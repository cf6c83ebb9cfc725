import FixtureLiterals.Proofs.Emission.Absence
import FixtureLiterals.Proofs.Emission.GoSource
import FixtureLiterals.Proofs.Emission.Items
import FixtureLiterals.Proofs.Emission.Strings

/-!
# The legality of Go texts

Names that are spelled with ASCII letters, digits and separators are written with letters, digits
and underscores, and everything else that is written for a value is a number, a fixed text or a
quoted string. So the text consists of code and of the literals of the strings in the value. It is
legal, except that a byte order mark in one of the strings is copied to the text, where the
compiler accepts it nowhere but at the start of the file.
-/

namespace FixtureLiterals

open Emission Text Text.Numeral

/-- The names of a record's members have ASCII letters, digits and separators only. -/
def MembersSpelled : Declaration → Prop
  | .record _ members => ∀ member ∈ members, IsSpelledName member.name
  | _ => True

instance (name : String) : Decidable (IsSpelledName name) :=
  decidable_of_iff (name.toList.all isSpelled = true) List.all_eq_true

instance (declaration : Declaration) : Decidable (MembersSpelled declaration) :=
  match declaration with
  | .record _ members =>
    inferInstanceAs (Decidable (∀ member ∈ members, IsSpelledName member.name))
  | .primitive _ | .bits _ | .enumeration _ | .handle .. | .string _ | .array .. | .vector .. =>
    .isTrue trivial

namespace Emission

section Code

/-- Code may be continued by code. -/
theorem IsCode.append {first second : String} (front : IsCode first) (behind : IsCode second) :
    IsCode (first ++ second) := by
  rw [IsCode, String.toList_append]
  exact List.forall_mem_append.mpr ⟨front, behind⟩

/-- A number in decimal is code. -/
theorem isCode_decimal (number : Nat) : IsCode (decimal number) :=
  fun _ listed => isCode_of_isDigit (isDigit_of_mem_decimal listed)

/-- A number in hexadecimal is code. -/
theorem isCode_hexadecimal (number : Nat) : IsCode (hexadecimal number) := by
  intro digit listed
  rw [hexadecimal, String.toList_ofList] at listed
  exact isCode_of_isHexadecimal (isHexadecimal_of_mem_toDigits listed)

/-- An integer is code. -/
theorem isCode_integerText (integer : Integer) : IsCode integer.text := by
  rw [Integer.text]
  cases integer.toInt with
  | ofNat number => exact isCode_decimal number
  | negSucc predecessor => exact IsCode.append (by decide) (isCode_decimal _)

/-- The characters of a numeral are code. -/
theorem isCode_characters {numeral : Numeral} (proper : numeral.Proper) :
    ∀ character ∈ numeral.characters, isCode character = true := by
  have digits {characters : List Char} (each : AreDigits characters) :
      ∀ character ∈ characters, isCode character = true :=
    fun character listed => isCode_of_isDigit (each character listed)
  have sign : ∀ character ∈ (if numeral.negative then ['-'] else []), isCode character = true := by
    cases numeral.negative <;> exact List.all_eq_true.mp (by decide)
  have fraction : ∀ character ∈ fractionCharacters numeral.fraction, isCode character = true := by
    rw [fractionCharacters]
    split
    · exact List.forall_mem_nil _
    · exact List.forall_mem_cons.mpr ⟨by decide, digits proper.fraction⟩
  have exponent : ∀ character ∈ exponentCharacters numeral.exponent, isCode character = true := by
    cases written : numeral.exponent with
    | none => exact List.forall_mem_nil _
    | some power =>
      have marks : ∀ character ∈ 'e' :: power.sign.characters, isCode character = true := by
        cases power.sign <;> exact List.all_eq_true.mp (by decide)
      exact List.forall_mem_append.mpr ⟨marks, digits (proper.exponent power written).1⟩
  rw [characters_eq]
  simp only [List.forall_mem_append]
  exact ⟨sign, digits proper.whole, fraction, exponent⟩

/-- A float that is written with digits is code. -/
theorem isCode_floatText (layout : Binary64.Layout) (float : Binary64) :
    IsCode (float.text layout) := by
  intro character listed
  rw [Binary64.text, Numeral.text, String.toList_ofList] at listed
  exact isCode_characters (Binary64.numeral_spec layout float).1 character listed

/-- A byte with its comma is code. -/
theorem isCode_byteItem (byte : UInt8) : IsCode (byteItem byte) := by
  have digits : IsCode (paddedHexadecimal 2 byte.toNat) := fun _ listed =>
    isCode_of_isHexadecimal (Document.isHexadecimal_of_mem_padded listed)
  exact (IsCode.append (by decide) digits).append (by decide)

/-- A line of bytes is code. -/
theorem isCode_byteLine (bytes : List UInt8) : IsCode (byteLine bytes) := by
  refine IsCode.append ?_ (by decide)
  intro character listed
  rw [String.toList_intercalate] at listed
  rcases mem_of_mem_intercalate listed with between | ⟨text, written, member⟩
  · exact (by decide : IsCode " ") character between
  · obtain ⟨item, found, rfl⟩ := List.mem_map.mp written
    obtain ⟨byte, -, rfl⟩ := List.mem_map.mp found
    exact isCode_byteItem byte character member

/-- A block of bytes is source. -/
theorem GoSource.byteBlock {strings : String → Prop} {opener closer : String}
    (opens : IsCode opener) (closes : IsCode closer) (width : Nat) (bytes : List UInt8) :
    GoSource strings (byteBlock width opener bytes closer) := by
  have lines : GoSource strings (String.join ((byteLines width bytes).map byteLine)) :=
    join (List.forall_mem_map.mpr fun line _ => .plain (isCode_byteLine line))
  cases bytes with
  | nil => exact .plain (opens.append closes)
  | cons first rest =>
    exact .append (.append (.plain (opens.append (by decide))) lines) (.plain closes)

end Code

end Emission

namespace GoWriter

variable {environment : Environment} {strings : String → Prop}

section Parts

/-- What is written with the characters of types is code. -/
theorem isCode_of_isTypeCharacter {text : String}
    (spelled : ∀ character ∈ text.toList, isTypeCharacter character = true) : IsCode text := by
  have marks : ∀ mark ∈ ['_', '.', '*', '&', '[', ']'], isCode mark = true :=
    List.all_eq_true.mp (by decide)
  intro character listed
  have inside := spelled character listed
  simp only [isTypeCharacter, NameStyle.isQualified, isIdentifier, Bool.or_eq_true, beq_iff_eq,
    List.contains_iff_mem] at inside
  rcases inside with ((word | rfl) | separator) | mark
  · exact isCode_of_isAlphanum word
  · decide
  · rw [List.mem_singleton.mp separator]
    decide
  · exact marks character (List.mem_cons_of_mem _ (List.mem_cons_of_mem _ mark))

/-- A qualified name is code. -/
theorem isCode_qualified {name : String} {parsed : QualifiedName} (path : IsSpelledPath name)
    (read : QualifiedName.parse name = .ok parsed) : IsCode (qualified parsed) :=
  isCode_of_isTypeCharacter (isTypeCharacter_of_isQualified (isQualified_render path read))

/-- A name in some casing is code. -/
theorem isCode_apply (casing : Casing) {name : String} (spelled : IsSpelledName name) :
    IsCode (casing.apply name) := by
  refine isCode_of_isTypeCharacter (isTypeCharacter_of_isQualified fun character listed => ?_)
  rw [NameStyle.isQualified, isIdentifier_apply casing spelled character listed, Bool.true_or]

/-- The type of a record is code. -/
theorem isCode_recordType {name : String} {parsed : QualifiedName} (path : IsSpelledPath name)
    (read : QualifiedName.parse name = .ok parsed) (nullable : Bool) :
    IsCode (recordType parsed nullable) := by
  cases nullable with
  | false => exact isCode_qualified path read
  | true => exact IsCode.append (by decide) (isCode_qualified path read)

/-- The field that tags a union is code. -/
theorem isCode_unionTagField {name : String} {parsed : QualifiedName} (path : IsSpelledPath name)
    (read : QualifiedName.parse name = .ok parsed) : IsCode (unionTagField parsed) := by
  have leaf : IsSpelledName parsed.leaf :=
    QualifiedName.isSpelledName_of_parse path read _ (by simp)
  exact (IsCode.append (by decide) (isCode_apply .lowerCamel leaf)).append (by decide)

/-- A float is code. -/
theorem isCode_float (subtype : Primitive) (value : Binary64) : IsCode (float subtype value) := by
  cases finite : value.isFinite with
  | true =>
    rw [float, if_pos finite]
    exact isCode_floatText _ value
  | false =>
    have decided : ∀ text ∈ infiniteTexts, IsCode text := by decide
    exact decided _ (float_mem_infiniteTexts subtype finite)

/-- A float by its pattern is code. -/
theorem isCode_floatBits (subtype : Primitive) (bits : UInt64) :
    IsCode (floatBits subtype bits) := by
  refine (IsCode.append ?_ (isCode_hexadecimal _)).append (by decide)
  split <;> decide

/-- A string is a literal, or the address of one in a list. -/
theorem source_string {content : String} (listed : strings content) (nullable : Bool) :
    GoSource strings (string nullable content) := by
  cases nullable with
  | false => exact .quoted listed
  | true => exact .append (.append (.plain (by decide)) (.quoted listed)) (.plain (by decide))

/-- One of the created handles is code. -/
theorem isCode_handleAt (index : UInt64) : IsCode (GoWriter.standard.handleAt index) :=
  (IsCode.append (by decide) (isCode_decimal _)).append (by decide)

/-- A handle is code. -/
theorem isCode_handle (index : UInt64) (subtype : HandleSubtype) :
    IsCode (GoWriter.standard.handle index subtype) := by
  have type : IsCode (GoWriter.standard.handleType subtype) :=
    isCode_of_isTypeCharacter (isTypeCharacter_of_isQualified (isQualified_handleType subtype))
  rw [handle]
  split
  · exact isCode_handleAt index
  · exact ((type.append (by decide)).append (isCode_handleAt index)).append (by decide)

/-- A handle of an unknown field is code. -/
theorem isCode_handleInfo (index : UInt64) : IsCode (GoWriter.standard.handleInfo index) := by
  have definition : IsCode ("handleDefs[" ++ decimal index.toNat ++ "]") :=
    (IsCode.append (by decide) (isCode_decimal _)).append (by decide)
  have opening : IsCode "\x7bHandle: " := by decide
  exact (((((opening.append (isCode_handleAt index)).append (by decide)).append definition).append
    (by decide)).append definition).append (by decide)

/-- The content of an unknown field is source. -/
theorem source_unknownData (data : UnknownData) :
    GoSource strings (GoWriter.standard.unknownData data) := by
  have bytes : GoSource strings ("Bytes: " ++ GoWriter.standard.bytes data.bytes) :=
    .append (.plain (by decide)) (.byteBlock (by decide) (by decide) _ _)
  have infos : GoSource strings (GoWriter.standard.handleInfos data.handles) := by
    cases data.handles with
    | nil => exact .plain (by decide)
    | cons index indices =>
      rw [handleInfos_cons]
      refine .block (by decide) (by decide) (List.forall_mem_map.mpr fun index _ => ?_)
      exact .plain (isCode_handleInfo index)
  have handles : GoSource strings ("Handles: " ++ GoWriter.standard.handleInfos data.handles) :=
    .append (.plain (by decide)) infos
  rw [unknownData, composite]
  refine .block (by decide) (by decide) ?_
  exact List.forall_mem_cons.mpr ⟨bytes, List.forall_mem_singleton.mpr handles⟩

/-- The entry of a table that holds its unknown fields is source, if there is one. -/
theorem source_unknownEntry (unknown : List (UInt64 × UnknownData)) :
    ∀ item ∈ GoWriter.standard.unknownEntry unknown, GoSource strings item := by
  rw [unknownEntry]
  split
  · exact List.forall_mem_nil _
  · refine List.forall_mem_singleton.mpr (.append (.plain (by decide)) ?_)
    refine .block (by decide) (by decide) (List.forall_mem_map.mpr fun entry _ => ?_)
    exact .append (.plain ((isCode_decimal _).append (by decide))) (source_unknownData entry.2)

/-- The entry of a field is source if its value is. -/
theorem source_entry {field : String × Literal} (spelled : IsSpelledName field.1)
    (value : GoSource strings (GoWriter.standard.expression field.2)) :
    GoSource strings (GoWriter.standard.entry field) :=
  .append (.plain ((isCode_apply .upperCamel spelled).append (by decide))) value

/-- Each entry of a table's field is source if the field's value is. -/
theorem source_tableEntries {field : String × Literal} (spelled : IsSpelledName field.1)
    (value : GoSource strings (GoWriter.standard.expression field.2)) :
    ∀ item ∈ tableEntries (field.1, GoWriter.standard.expression field.2),
      GoSource strings item := by
  have flag : IsCode (fieldName field.1 ++ "Present: true") :=
    (isCode_apply .upperCamel spelled).append (by decide)
  exact List.forall_mem_cons.mpr
    ⟨source_entry spelled value, List.forall_mem_singleton.mpr (.plain flag)⟩

end Parts

/-- What opens a list is code. -/
theorem isCode_literalType {declaration : Declaration} (named : declaration.All NameSpelled)
    {type : TypeReference} (described : Describes environment.supports declaration type) :
    IsCode (GoWriter.standard.literalType type) :=
  isCode_of_isTypeCharacter
    (isTypeCharacter_typeName described named (List.all_eq_true.mp (by decide)))

section Records

variable {header : RecordHeader} {members : List (Member Declaration)}
  (path : IsSpelledPath header.name) (spelled : ∀ member ∈ members, IsSpelledName member.name)
  (contents : ∀ member ∈ members, ∀ literal, WellFormed environment member.content literal →
    GoSource literal.Holds (GoWriter.standard.expression literal))
include spelled contents

/-- What belongs to a member has the member's spelled name, and is source with the strings of a
literal that it is part of. -/
theorem source_of_belongs {field : String × Literal} {literal : Literal}
    (belongs : Belongs environment members field)
    (within : ∀ content, field.2.Holds content → literal.Holds content) :
    IsSpelledName field.1 ∧ GoSource literal.Holds (GoWriter.standard.expression field.2) := by
  obtain ⟨member, declared, name, fitted⟩ := belongs
  refine ⟨?_, (contents member declared field.2 fitted).imp within⟩
  rw [name]
  exact spelled member declared

include path

/-- A record is source if the contents of its members are. -/
theorem source_record {literal : Literal}
    (fitted : WellFormed environment (.record header members) literal) :
    GoSource literal.Holds (GoWriter.standard.expression literal) := by
  have brace : IsCode "\x7b" := by decide
  have closes : IsCode "\x7d" := by decide
  cases fitted with
  | absentRecord => exact .plain (by decide)
  | struct kind parsed named each =>
    rw [expression_struct]
    refine .block ((isCode_recordType path parsed _).append brace) closes ?_
    refine List.forall_mem_map.mpr fun field listed => ?_
    obtain ⟨name, value⟩ := source_of_belongs spelled contents
      (belongs_of_named named each field listed)
      fun content inside => (Literal.holds_struct ..).mpr ⟨field, listed, inside⟩
    exact source_entry name value
  | @union _ _ parsedName member value kind parsed declared content =>
    have belongs : Belongs environment members (member.name, value) :=
      ⟨member, (Member.mem_of_named? declared).1, rfl, content⟩
    obtain ⟨name, inner⟩ := source_of_belongs spelled contents belongs
      fun content inside =>
        (Literal.holds_union parsedName header.nullable member.name member.ordinal value).mpr inside
    have tag : IsCode (unionTagField parsedName ++ ": " ++ unionTag parsedName member.name) :=
      ((isCode_unionTagField path parsed).append (by decide)).append
        ((isCode_qualified path parsed).append (isCode_apply .upperCamel name))
    rw [expression_union]
    refine .block ((isCode_recordType path parsed _).append brace) closes ?_
    exact List.forall_mem_cons.mpr
      ⟨.plain tag, List.forall_mem_singleton.mpr (source_entry name inner)⟩
  | @unknownUnion _ _ parsedName ordinal data kind parsed =>
    have tag : IsCode (unionTagField parsedName ++ ": " ++ decimal ordinal.toNat) :=
      ((isCode_unionTagField path parsed).append (by decide)).append (isCode_decimal _)
    rw [expression_unknownUnion]
    refine .block ((isCode_recordType path parsed _).append brace) closes ?_
    exact List.forall_mem_cons.mpr ⟨.plain tag, List.forall_mem_singleton.mpr
      (.append (.plain (by decide)) (source_unknownData data))⟩
  | table kind parsed declared named each =>
    rw [expression_table]
    refine .block ((isCode_recordType path parsed _).append brace) closes ?_
    refine List.forall_mem_append.mpr ⟨fun item listed => ?_, source_unknownEntry _⟩
    obtain ⟨field, present, written⟩ := List.mem_flatMap.mp listed
    obtain ⟨name, value⟩ := source_of_belongs spelled contents
      ((belongs_of_named named each field present).mono declared)
      fun content inside => (Literal.holds_table ..).mpr ⟨field, present, inside⟩
    exact source_tableEntries name value item written

end Records

/-- What is written for a well-formed literal is source with no other string literals than those
of the strings in it.

The induction is on the declaration, whose parts describe the parts of the literal. -/
theorem source_expression {declaration : Declaration} (named : declaration.All NameSpelled)
    (members : declaration.All MembersSpelled) {literal : Literal}
    (fitted : WellFormed environment declaration literal) :
    GoSource literal.Holds (GoWriter.standard.expression literal) := by
  induction declaration using Declaration.memberwise generalizing literal with
  | primitive subtype =>
    cases fitted with
    | bool value => cases value <;> exact .plain (by decide)
    | integer => exact .plain (isCode_integerText _)
    | float => exact .plain (isCode_float _ _)
    | floatBits => exact .plain (isCode_floatBits _ _)
  | bits scalar =>
    cases fitted with
    | bits parsed =>
      have type := isCode_qualified (named.self _ rfl) parsed
      exact .plain (((type.append (by decide)).append (isCode_integerText _)).append (by decide))
  | enumeration scalar =>
    cases fitted with
    | enumeration parsed =>
      have type := isCode_qualified (named.self _ rfl) parsed
      exact .plain (((type.append (by decide)).append (isCode_integerText _)).append (by decide))
  | handle subtype rights nullable =>
    cases fitted with
    | handle => exact .plain (isCode_handle _ _)
    | invalidHandle =>
      have absent : IsCode "zx.HandleInvalid" := by decide
      exact .plain absent
  | string nullable =>
    cases fitted with
    | string content nullable =>
      exact source_string ((Literal.holds_string content nullable).mpr rfl) nullable
    | absentString => exact .plain (by decide)
  | array element size inductionHypothesis =>
    cases fitted with
    | array described counted each =>
      rw [expression_list]
      refine .block ((isCode_literalType named described).append (by decide)) (by decide) ?_
      refine List.forall_mem_map.mpr fun item listed => ?_
      refine (inductionHypothesis named.element_of_array members.element_of_array
        (each item listed)).imp fun content inside => ?_
      exact (Literal.holds_list ..).mpr ⟨item, listed, inside⟩
  | vector element nullable inductionHypothesis =>
    cases fitted with
    | vector described each =>
      rw [expression_list]
      refine .block ((isCode_literalType named described).append (by decide)) (by decide) ?_
      refine List.forall_mem_map.mpr fun item listed => ?_
      refine (inductionHypothesis named.element_of_vector members.element_of_vector
        (each item listed)).imp fun content inside => ?_
      exact (Literal.holds_list ..).mpr ⟨item, listed, inside⟩
    | absentVector => exact .plain (by decide)
  | record header recordMembers inductionHypothesis =>
    refine source_record (named.self _ rfl) members.self (fun member declared literal => ?_) fitted
    exact inductionHypothesis member declared (named.member member declared)
      (members.member member declared)

/-- A string of a literal is quoted in what is written for the literal. -/
theorem standsIn_of_holds {literal : Literal} {content : String} (inside : literal.Holds content) :
    StandsIn (goQuoted content) (GoWriter.standard.expression literal) := by
  obtain ⟨nullable, part⟩ := inside
  have written : StandsIn (goQuoted content) (string nullable content) := by
    cases nullable with
    | false => exact List.infix_refl _
    | true =>
      exact (standsIn_append_right "&[]string\x7b" _).trans (standsIn_append_left _ "\x7d[0]")
  have stands := GoWriter.standard.standsIn_of_within part
  rw [expression] at stands
  exact written.trans stands

end GoWriter

namespace Writer

/-- If all names are spelled with ASCII letters, digits and separators, the Go text of an accepted
value is legal, except that it has a byte order mark if a string of the value has one. -/
theorem go_source_legal {handles : HandleTable} {declaration : Declaration}
    (named : declaration.All NameSpelled) (members : declaration.All MembersSpelled)
    {value : Value} {text : String}
    (written : (Writer.standard .go).encode handles declaration value = .ok text) :
    LegalGo text ∧ (byteOrderMark ∈ text.toList ↔
      ∃ content, value.Holds content ∧ byteOrderMark ∈ content.toList) := by
  obtain ⟨literal, fits, rfl⟩ := (Writer.encode_eq_ok_iff ..).mp written
  have source := GoWriter.source_expression named members (Literal.wellFormed_of_fit fits)
  refine ⟨source.legal, ?_, ?_⟩
  · intro marked
    obtain ⟨content, inside, mark⟩ := source.exists_of_byteOrderMark marked
    exact ⟨content, (Literal.holds_iff_of_fit fits content).mp inside, mark⟩
  · rintro ⟨content, inside, mark⟩
    have quoted := GoWriter.standsIn_of_holds ((Literal.holds_iff_of_fit fits content).mpr inside)
    exact quoted.subset ((byteOrderMark_mem_goQuoted content).mpr mark)

/-- A control character and a line end in a string do not get into the text of a table. -/
theorem go_source_legal_table :
    let declaration : Declaration := .record ⟨"a.lib/Row", .table, false, .value, .flexible⟩
      [⟨"first_name", 1, .string false⟩]
    let value : Value := .record [Value.named "first_name" (.string "\x00\n")]
    let text := "a_lib.Row\x7b\nFirstName: \"\\x00\\n\",\nFirstNamePresent: true,\n\x7d"
    declaration.All NameSpelled ∧ declaration.All MembersSpelled ∧
      (Writer.standard .go).encode [] declaration value = .ok text ∧
      LegalGo text ∧ (byteOrderMark ∈ text.toList ↔
        ∃ content, value.Holds content ∧ byteOrderMark ∈ content.toList) := by
  intro declaration value text
  have named : declaration.All NameSpelled := ⟨by decide, nofun, trivial⟩
  have members : declaration.All MembersSpelled := ⟨by decide, trivial, trivial⟩
  have written : (Writer.standard .go).encode [] declaration value = .ok text := by decide
  exact ⟨named, members, written, go_source_legal named members written⟩

/-- The byte order mark that is a string by itself is copied to the text. -/
theorem go_byte_order_mark_kept :
    (Writer.standard .go).encode [] (.string false) (.string "\uFEFF") = .ok "\"\uFEFF\"" ∧
      byteOrderMark ∈ "\"\uFEFF\"".toList := by
  constructor
  · rfl
  · decide

end Writer

end FixtureLiterals
