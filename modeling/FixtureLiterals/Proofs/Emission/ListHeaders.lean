import FixtureLiterals.Fixture
import FixtureLiterals.Proofs.Emission.GoOpenings

/-!
# The headers of Go lists

A Go list spells the type of its elements once, in front of all of them, and each element of a
named or composite type spells its own type again. The header is spelled from the declaration of
the list, and an element from the literal that it was fitted to. They agree up to the mark of
what might be absent: in a header it is the asterisk of a pointer type, and in front of an
element the ampersand that makes a pointer. Only where the header has an asterisk is there
anything absent.
-/

namespace FixtureLiterals

open Emission Text

/-- A literal is part of another one, or is that literal itself. -/
inductive Literal.Within : Literal → Literal → Prop where
  | whole (literal : Literal) : Within literal literal
  | element {part element : Literal} {type : TypeReference} {elements : List Literal}
      (listed : element ∈ elements) (inside : Within part element) :
      Within part (.list type elements)
  | structField {part : Literal} {name : QualifiedName} {nullable : Bool}
      {field : String × Literal} {fields : List (String × Literal)} (listed : field ∈ fields)
      (inside : Within part field.2) : Within part (.struct name nullable fields)
  | unionField {part value : Literal} {name : QualifiedName} {nullable : Bool} {field : String}
      {ordinal : UInt64} (inside : Within part value) :
      Within part (.union name nullable field ordinal value)
  | tableField {part : Literal} {name : QualifiedName} {nullable : Bool}
      {field : String × Literal} {fields : List (String × Literal)}
      {unknown : List (UInt64 × UnknownData)} (listed : field ∈ fields)
      (inside : Within part field.2) : Within part (.table name nullable fields unknown)

/-- The parts of a well-formed literal are well-formed for what their declaration is made of. -/
theorem Literal.Within.wellFormed {environment : Environment} {property : Declaration → Prop}
    {part whole : Literal} (inside : part.Within whole) {declaration : Declaration}
    (all : declaration.All property) (fitted : WellFormed environment declaration whole) :
    ∃ inner : Declaration, inner.All property ∧ WellFormed environment inner part := by
  induction inside generalizing declaration with
  | whole => exact ⟨declaration, all, fitted⟩
  | element listed _ inductionHypothesis =>
    cases fitted with
    | array _ _ each => exact inductionHypothesis all.element_of_array (each _ listed)
    | vector _ each => exact inductionHypothesis all.element_of_vector (each _ listed)
  | structField listed _ inductionHypothesis =>
    cases fitted with
    | struct _ _ _ each =>
      obtain ⟨member, declared, content⟩ := exists_of_mem_right each listed
      exact inductionHypothesis (all.member member declared) content
  | unionField _ inductionHypothesis =>
    cases fitted with
    | union _ _ declared content =>
      exact inductionHypothesis (all.member _ (Member.mem_of_named? declared).1) content
  | tableField listed _ inductionHypothesis =>
    cases fitted with
    | table _ _ declared _ each =>
      obtain ⟨member, present, content⟩ := exists_of_mem_right each listed
      exact inductionHypothesis (all.member member (declared.subset present)) content

namespace GoWriter

variable {environment : Environment}

/-- What a list spells in front of its elements. -/
structure ListHeader where
  /-- Whether the address of the list is taken. -/
  addressed : Bool
  /-- The number of elements, where the type of the list says it. -/
  size? : Option UInt64
  /-- The type of the elements. -/
  element : String

/-- The brackets of a list type, around the size that it says. -/
def brackets : Option UInt64 → String
  | none => "[]"
  | some size => "[" ++ decimal size.toNat ++ "]"

/-- The text of a header. -/
def ListHeader.text (header : ListHeader) : String :=
  (if header.addressed then "&" else "") ++ brackets header.size? ++ header.element

/-- A text starts with a header, which ends where the first brace opens. -/
structure ListHeader.Heads (header : ListHeader) (text : String) : Prop where
  braceless : '\x7b' ∉ header.text.toList
  begins : Begins (header.text ++ "\x7b").toList text.toList

/-- The text that builds an element of a type: where the type is a pointer, the address of what
it points to. -/
def elementOpening (type : String) : String :=
  match type.toList with
  | '*' :: pointee => String.ofList ('&' :: pointee)
  | _ => type

/-- The text of an element agrees with the type of the elements. Numbers and truth values have no
type of their own, and nor do handles of the untyped kind and absent handles. -/
def Agrees (type text : String) : Literal → Prop
  | .list .. | .struct .. | .union .. | .unknownUnion .. | .table .. =>
    Begins (elementOpening type ++ "\x7b").toList text.toList
  | .bits _ value | .enumeration _ value => text = type ++ "(" ++ value.text ++ ")"
  | .handle index subtype _ =>
    subtype ≠ .handle → text = type ++ "(" ++ GoWriter.standard.handleAt index ++ ")"
  | .string value _ =>
    (type = "string" ∧ text = goQuoted value) ∨
      (type = "*string" ∧ text = "&[]string\x7b" ++ goQuoted value ++ "\x7d[0]")
  | .null => Begins ['*'] type.toList
  | .bool _ | .integer .. | .float .. | .floatBits .. | .invalidHandle _ => True

section Headers

/-- Brackets start with an opening one, whatever stands behind them. -/
theorem begins_brackets (size : Option UInt64) (rest : List Char) :
    Begins ['['] ((brackets size).toList ++ rest) := by
  cases size with
  | none => exact ⟨']' :: rest, rfl⟩
  | some size =>
    simp only [brackets, String.toList_append, List.append_assoc]
    exact ⟨_, rfl⟩

/-- In front of a bracket, an ampersand is revealed. -/
theorem reveals_ampersand (first second : Bool) :
    Reveals (Begins ['[']) (if first then "&" else "").toList (if second then "&" else "").toList
      (first = second) := by
  rintro _ _ ⟨rest, rfl⟩ ⟨other, rfl⟩ same
  have different : '&' ≠ '[' := by decide
  cases first <;> cases second
  case false.false | true.true => exact ⟨rfl, List.append_cancel_left same⟩
  case true.false => exact absurd same (Apart.of_heads different [] [] _ _)
  case false.true => exact absurd same.symm (Apart.of_heads different [] [] _ _)

/-- Brackets reveal the size between them. -/
theorem reveals_brackets (first second : Option UInt64) :
    Reveals Anything (brackets first).toList (brackets second).toList (first = second) := by
  have unsized (size : UInt64) : Apart (brackets none).toList (brackets (some size)).toList := by
    simp only [brackets, String.toList_append, List.append_assoc]
    exact ((apart_decimal size.toNat (by decide) []).longer "]".toList).symm.prefixed ['[']
  cases first with
  | none =>
    cases second with
    | none => exact .refl _ rfl
    | some size => exact .of_apart (unsized size)
  | some size =>
    cases second with
    | none => exact .of_apart (unsized size).symm
    | some other =>
      have digits : Reveals (Leaves Char.isDigit) (decimal size.toNat).toList
          (decimal other.toNat).toList (some size = some other) :=
        (reveals_decimal _ _).imp fun same => congrArg some (UInt64.toNat_inj.mp same)
      simp only [brackets, String.toList_append, List.append_assoc]
      exact (digits.closed "]".toList fun rest => leaves_append [] rest (by decide)).prefixed _

/-- Headers with the same text are the same. -/
theorem ListHeader.eq_of_text_eq {first second : ListHeader} (same : first.text = second.text) :
    first = second := by
  obtain ⟨addressed, size, element⟩ := first
  obtain ⟨pointed, number, type⟩ := second
  have agree := congrArg String.toList same
  simp only [text, String.toList_append] at agree
  obtain ⟨⟨rfl, rfl⟩, types⟩ := (reveals_ampersand addressed pointed).append
    (reveals_brackets size number) (fun rest _ => begins_brackets size rest)
    (fun rest _ => begins_brackets number rest) _ _ trivial trivial agree
  rw [String.toList_inj.mp types]

/-- A text starts with one header at most. -/
theorem ListHeader.Heads.unique {first second : ListHeader} {text : String}
    (heads : first.Heads text) (starts : second.Heads text) : first = second := by
  obtain ⟨rest, same⟩ := heads.begins
  obtain ⟨other, again⟩ := starts.begins
  have braceless {header : ListHeader} (heads : header.Heads text) :
      ∀ character ∈ header.text.toList, (character != '\x7b') = true :=
    fun character listed => bne_iff_ne.mpr fun brace => heads.braceless (brace ▸ listed)
  have agree := same.symm.trans again
  rw [String.toList_append, String.toList_append, List.append_assoc, List.append_assoc] at agree
  have ends (rest : List Char) : Leaves (· != '\x7b') ("\x7b".toList ++ rest) :=
    leaves_append [] rest (by decide)
  obtain ⟨texts, -⟩ :=
    reveals_word (braceless heads) (braceless starts) _ _ (ends rest) (ends other) agree
  exact eq_of_text_eq (String.toList_inj.mp texts)

end Headers

section Types

/-- The characters of types: those of names, the marks of pointers and addresses, and brackets. -/
def isTypeCharacter (character : Char) : Bool :=
  goStyle.isQualified character || ['*', '&', '[', ']'].contains character

/-- Names are spelled with characters of types. -/
theorem isTypeCharacter_of_isQualified {text : String}
    (spelled : ∀ character ∈ text.toList, goStyle.isQualified character = true) :
    ∀ character ∈ text.toList, isTypeCharacter character = true := by
  intro character listed
  rw [isTypeCharacter, spelled character listed, Bool.true_or]

/-- A mark in front makes no difference. -/
theorem isTypeCharacter_marked {mark text : String} (nullable : Bool)
    (leading : ∀ character ∈ mark.toList, isTypeCharacter character = true)
    (spelled : ∀ character ∈ text.toList, isTypeCharacter character = true) :
    ∀ character ∈ (marked mark nullable text).toList, isTypeCharacter character = true := by
  cases nullable with
  | false => exact spelled
  | true =>
    rw [marked, if_pos rfl, String.toList_append]
    exact List.forall_mem_append.mpr ⟨leading, spelled⟩

/-- All types are spelled with characters of types. -/
theorem isTypeCharacter_typeName {declaration : Declaration} {type : TypeReference}
    (described : Describes environment.supports declaration type)
    (spelled : declaration.All NameSpelled) {mark : String}
    (leading : ∀ character ∈ mark.toList, isTypeCharacter character = true) :
    ∀ character ∈ (GoWriter.standard.typeName mark type).toList,
      isTypeCharacter character = true := by
  have named {name : String} {parsed : QualifiedName} (path : IsSpelledPath name)
      (read : QualifiedName.parse name = .ok parsed) :
      ∀ character ∈ (qualified parsed).toList, isTypeCharacter character = true :=
    isTypeCharacter_of_isQualified (isQualified_render path read)
  have star : ∀ character ∈ "*".toList, isTypeCharacter character = true :=
    List.all_eq_true.mp (by decide)
  induction described generalizing mark with
  | primitive subtype =>
    rw [typeName]
    cases subtype <;> exact List.all_eq_true.mp (by decide)
  | bits parsed => exact named (spelled.self _ rfl) parsed
  | enumeration parsed => exact named (spelled.self _ rfl) parsed
  | @handle subtype =>
    rw [typeName]
    exact isTypeCharacter_of_isQualified (isQualified_handleType subtype)
  | string nullable =>
    exact isTypeCharacter_marked nullable leading (List.all_eq_true.mp (by decide))
  | @array element type size _ inductionHypothesis =>
    have digits : ∀ character ∈ (decimal size.toNat).toList, isTypeCharacter character = true :=
      isTypeCharacter_of_isQualified (isQualified_decimal size.toNat)
    rw [typeName, String.toList_append, String.toList_append, String.toList_append]
    simp only [List.forall_mem_append]
    exact ⟨⟨⟨List.all_eq_true.mp (by decide), digits⟩, List.all_eq_true.mp (by decide)⟩,
      inductionHypothesis spelled.element_of_array star⟩
  | @vector element type nullable _ inductionHypothesis =>
    refine isTypeCharacter_marked nullable leading ?_
    rw [String.toList_append]
    exact List.forall_mem_append.mpr ⟨List.all_eq_true.mp (by decide),
      inductionHypothesis spelled.element_of_vector star⟩
  | record parsed => exact isTypeCharacter_marked _ leading (named (spelled.self _ rfl) parsed)

end Types

section Openings

/-- What opens an element of a type that is no pointer is the type. -/
theorem elementOpening_of_bare {type : String} (bare : ¬ Begins ['*'] type.toList) :
    elementOpening type = type := by
  unfold elementOpening
  split
  case h_1 pointee same => exact absurd ⟨pointee, same⟩ bare
  case h_2 => rfl

/-- What opens an element has an ampersand where the type has an asterisk. -/
theorem elementOpening_marked {type : String} (bare : ¬ Begins ['*'] type.toList)
    (nullable : Bool) : elementOpening (marked "*" nullable type) = marked "&" nullable type := by
  cases nullable with
  | false => exact elementOpening_of_bare bare
  | true =>
    refine String.toList_inj.mp ?_
    simp [elementOpening, marked, String.toList_append]

/-- The name of a type does not start with an asterisk. -/
theorem not_begins_qualified {name : String} {parsed : QualifiedName} (path : IsSpelledPath name)
    (read : QualifiedName.parse name = .ok parsed) : ¬ Begins ['*'] (qualified parsed).toList := by
  rintro ⟨rest, same⟩
  have listed : '*' ∈ (qualified parsed).toList := by
    rw [same]
    exact List.mem_cons_self
  have inside : goStyle.isQualified '*' = true := isQualified_render path read '*' listed
  exact absurd inside (by decide)

/-- What starts with a bracket does not start with an asterisk. -/
theorem not_begins_of_bracket {text : List Char} (opens : Begins ['['] text) :
    ¬ Begins ['*'] text := by
  rintro ⟨rest, same⟩
  obtain ⟨others, rfl⟩ := opens
  exact absurd (List.cons.inj same).1 (by decide)

/-- What opens an element that is an array is the type of the array. -/
theorem elementOpening_array (writer : GoWriter) (type : TypeReference) (size : UInt64) :
    elementOpening (writer.typeName "*" (.array type size)) =
      writer.literalType (.array type size) := by
  rw [literalType, typeName, typeName]
  refine elementOpening_of_bare (not_begins_of_bracket ?_)
  simp only [String.toList_append, List.append_assoc]
  exact ⟨_, rfl⟩

/-- What opens an element that is a vector is the type of the vector. -/
theorem elementOpening_vector (writer : GoWriter) (type : TypeReference) (nullable : Bool) :
    elementOpening (writer.typeName "*" (.vector type nullable)) =
      writer.literalType (.vector type nullable) := by
  rw [literalType, typeName, typeName]
  refine elementOpening_marked (not_begins_of_bracket ?_) nullable
  rw [String.toList_append]
  exact ⟨_, rfl⟩

/-- What opens an element that is a record is the type of the record. -/
theorem elementOpening_named (writer : GoWriter) {name : String} {parsed : QualifiedName}
    (path : IsSpelledPath name) (read : QualifiedName.parse name = .ok parsed) (nullable : Bool) :
    elementOpening (writer.typeName "*" (.named parsed nullable)) = recordType parsed nullable := by
  rw [recordType, typeName]
  exact elementOpening_marked (not_begins_qualified path read) nullable

end Openings

section Elements

/-- A block starts with what opens it. -/
theorem begins_block (opener : String) (items : List String) (closer : String) :
    Begins opener.toList (block opener items closer).toList := by
  rw [toList_block]
  exact ⟨_, rfl⟩

/-- What is fitted to the elements of a list agrees with their type in the header. -/
theorem agrees_expression {declaration : Declaration} {type : TypeReference}
    (described : Describes environment.supports declaration type)
    (spelled : NameSpelled declaration) {literal : Literal}
    (fitted : WellFormed environment declaration literal) :
    Agrees (GoWriter.standard.typeName "*" type) (GoWriter.standard.expression literal) literal := by
  cases fitted with
  | bool | integer | float | floatBits | invalidHandle => trivial
  | bits parsed =>
    cases described with
    | bits read =>
      obtain rfl := Except.ok.inj (parsed.symm.trans read)
      rw [expression, typeName]
      rfl
  | enumeration parsed =>
    cases described with
    | enumeration read =>
      obtain rfl := Except.ok.inj (parsed.symm.trans read)
      rw [expression, typeName]
      rfl
  | handle =>
    cases described with
    | handle =>
      intro typed
      rw [expression, handle, if_neg typed, typeName]
  | string value nullable =>
    cases described
    rw [expression, typeName]
    cases nullable with
    | false => exact .inl ⟨rfl, rfl⟩
    | true => exact .inr ⟨rfl, rfl⟩
  | absentString =>
    cases described
    rw [expression, typeName]
    exact ⟨_, rfl⟩
  | array spells =>
    obtain rfl := eq_of_describes described spells
    cases described
    rw [expression_list, Agrees, elementOpening_array]
    exact begins_block _ _ _
  | vector spells =>
    obtain rfl := eq_of_describes described spells
    cases described
    rw [expression_list, Agrees, elementOpening_vector]
    exact begins_block _ _ _
  | absentVector =>
    cases described
    rw [expression, typeName, marked, if_pos rfl, Agrees, String.toList_append]
    exact ⟨_, rfl⟩
  | struct _ parsed =>
    cases described with
    | record read =>
      obtain rfl := Except.ok.inj (parsed.symm.trans read)
      rw [expression_struct, Agrees, elementOpening_named _ (spelled _ rfl) parsed]
      exact begins_block _ _ _
  | union _ parsed =>
    cases described with
    | record read =>
      obtain rfl := Except.ok.inj (parsed.symm.trans read)
      rw [expression_union, Agrees, elementOpening_named _ (spelled _ rfl) parsed]
      exact begins_block _ _ _
  | unknownUnion _ parsed =>
    cases described with
    | record read =>
      obtain rfl := Except.ok.inj (parsed.symm.trans read)
      rw [expression_unknownUnion, Agrees, elementOpening_named _ (spelled _ rfl) parsed]
      exact begins_block _ _ _
  | table _ parsed =>
    cases described with
    | record read =>
      obtain rfl := Except.ok.inj (parsed.symm.trans read)
      rw [expression_table, Agrees, elementOpening_named _ (spelled _ rfl) parsed]
      exact begins_block _ _ _
  | absentRecord members nullable =>
    cases described
    rw [expression, typeName, nullable, marked, if_pos rfl, Agrees, String.toList_append]
    exact ⟨_, rfl⟩

end Elements

/-- The type of a list is the spelled type of its declaration. -/
theorem describes_of_list {declaration : Declaration} {type : TypeReference}
    {elements : List Literal} (fitted : WellFormed environment declaration (.list type elements)) :
    Describes environment.supports declaration type := by
  cases fitted with
  | array described => exact described
  | vector described => exact described

/-- What opens a list ends where the first brace opens. -/
theorem braceless_literalType {declaration : Declaration} (spelled : declaration.All NameSpelled)
    {type : TypeReference} (described : Describes environment.supports declaration type) :
    '\x7b' ∉ (GoWriter.standard.literalType type).toList := by
  have ampersand : ∀ character ∈ "&".toList, isTypeCharacter character = true :=
    List.all_eq_true.mp (by decide)
  intro brace
  exact absurd (isTypeCharacter_typeName described spelled ampersand _ brace) (by decide)

/-- A list starts with a header with which its elements agree. -/
theorem exists_header {declaration : Declaration} (spelled : declaration.All NameSpelled)
    {type : TypeReference} {elements : List Literal}
    (fitted : WellFormed environment declaration (.list type elements)) :
    ∃ header : ListHeader, header.Heads (GoWriter.standard.expression (.list type elements)) ∧
      ∀ element ∈ elements,
        Agrees header.element (GoWriter.standard.expression element) element := by
  have heads {header : ListHeader} (text : header.text = GoWriter.standard.literalType type) :
      header.Heads (GoWriter.standard.expression (.list type elements)) := by
    refine ⟨?_, ?_⟩
    · rw [text]
      exact braceless_literalType spelled (describes_of_list fitted)
    · rw [text, expression_list]
      exact begins_block _ _ _
  cases fitted with
  | @array _ size _ _ described _ each =>
    cases described with
    | @array _ type _ described =>
      refine ⟨⟨false, some size, GoWriter.standard.typeName "*" type⟩, heads ?_, ?_⟩
      · rw [literalType, typeName]
        exact congrArg (· ++ _) String.empty_append
      · intro element listed
        exact agrees_expression described spelled.element_of_array.self (each element listed)
  | @vector _ nullable _ _ described each =>
    cases described with
    | @vector _ type _ described =>
      refine ⟨⟨nullable, none, GoWriter.standard.typeName "*" type⟩, heads ?_, ?_⟩
      · rw [literalType, typeName]
        cases nullable with
        | false => exact congrArg (· ++ _) String.empty_append
        | true => exact String.append_assoc
      · intro element listed
        exact agrees_expression described spelled.element_of_vector.self (each element listed)

/-- In what is fitted to a declaration, every list starts with a header, and every element of the
list agrees with the type in the header. -/
theorem list_agrees_with_header {handles : HandleTable} {declaration : Declaration}
    (spelled : declaration.All NameSpelled) {value : Value} {literal : Literal}
    (fits : (Writer.standard .go).fit handles declaration value = .ok literal)
    {type : TypeReference} {elements : List Literal}
    (inside : (Literal.list type elements).Within literal) :
    (∃ header : ListHeader, header.Heads (GoWriter.standard.expression (.list type elements))) ∧
      ∀ header : ListHeader, header.Heads (GoWriter.standard.expression (.list type elements)) →
        ∀ element ∈ elements,
          Agrees header.element (GoWriter.standard.expression element) element := by
  obtain ⟨inner, named, fitted⟩ := inside.wellFormed spelled (Literal.wellFormed_of_fit fits)
  obtain ⟨header, heads, agree⟩ := exists_header named fitted
  refine ⟨⟨header, heads⟩, fun other starts => ?_⟩
  rw [starts.unique heads]
  exact agree

/-- The rows of a struct agree with the type that the struct's only list spells for them. -/
theorem list_agrees_with_header_struct :
    let declaration : Declaration := .record ⟨"a.lib/Sheet", .struct, false, .value, .flexible⟩
      [⟨"rows", 0, .array (.vector (.string true) true) 2⟩]
    let value : Value := .record [Value.named "rows" (.list [.null, .list [.null, .string "a"]])]
    let row : TypeReference := .vector (.string true) true
    let elements : List Literal := [.null, .list row [.null, .string "a" true]]
    let list : Literal := .list (.array row 2) elements
    let literal : Literal := .struct ⟨["a.lib"], "Sheet"⟩ false [("rows", list)]
    declaration.All NameSpelled ∧
      (Writer.standard .go).fit [] declaration value = .ok literal ∧
      list.Within literal ∧
      (∃ header : ListHeader, header.Heads (GoWriter.standard.expression list)) ∧
        ∀ header : ListHeader, header.Heads (GoWriter.standard.expression list) →
          ∀ element ∈ elements,
            Agrees header.element (GoWriter.standard.expression element) element := by
  intro declaration value row elements list literal
  have spelled : declaration.All NameSpelled := ⟨by decide, ⟨nofun, nofun, nofun⟩, trivial⟩
  have fits : (Writer.standard .go).fit [] declaration value = .ok literal := rfl
  have inside : list.Within literal := .structField (List.mem_singleton_self _) (.whole _)
  exact ⟨spelled, fits, inside, list_agrees_with_header spelled fits inside⟩

end GoWriter

end FixtureLiterals
