import FixtureLiterals.Proofs.Emission.GoRecords
import FixtureLiterals.Proofs.Emission.Openings

/-!
# How Go expressions open

An ampersand marks what is present where it might be absent: it takes the address of a record
or a list, or that of the only element of a list, where a string has no address of its own.
All other expressions open with the name of a type, unless they are numbers, strings or lists.
-/

namespace FixtureLiterals.GoWriter

open Emission Text

variable {environment : Environment}

/-- What Go expressions open with. -/
def openings : Openings where
  absent := Target.go.absentText
  mark := Target.go.presentMark
  fixed := ["true", "false", "math.", "float32(", "\"", "[", "handles[", "zx.HandleInvalid"]
  inside := goStyle.isQualified
  behind := ['(', '{']
  differing := by decide
  foreign_mark := by decide
  foreign_absent := by decide

/-- The name of a type opens an expression. -/
theorem opens_qualified {name : String} {parsed : QualifiedName} (spelled : IsSpelledPath name)
    (read : QualifiedName.parse name = .ok parsed) (next : Char) (listed : next ∈ openings.behind)
    (rest : List Char) : openings.Opens ((qualified parsed).toList ++ next :: rest) :=
  .name (isQualified_render spelled read) next listed rest

/-- A float opens with a number or with the name of a function. -/
theorem opens_float (subtype : Primitive) (value : Binary64) :
    openings.Opens (float subtype value).toList := by
  cases finite : value.isFinite with
  | true =>
    rw [float, if_pos finite, ← List.append_nil (String.toList _)]
    exact Openings.opens_floatText _ value []
  | false =>
    have calls : ∀ text ∈ infiniteTexts,
        "math.".toList <+: text.toList ∨ "float32(".toList <+: text.toList := by decide
    rcases calls _ (float_mem_infiniteTexts subtype finite) with ⟨rest, same⟩ | ⟨rest, same⟩
    · exact .fixed "math." (by decide) ⟨rest, same.symm⟩
    · exact .fixed "float32(" (by decide) ⟨rest, same.symm⟩

/-- The kernel type of a handle is a qualified name. -/
theorem isQualified_handleType (subtype : HandleSubtype) :
    ∀ character ∈ (GoWriter.standard.handleType subtype).toList,
      goStyle.isQualified character = true := by
  cases subtype <;> exact List.all_eq_true.mp (by decide)

/-- A handle opens with the variable of the handles or with its kernel type. -/
theorem opens_handle (index : UInt64) (subtype : HandleSubtype) :
    openings.Opens (GoWriter.standard.handle index subtype).toList := by
  rw [handle]
  split
  case isTrue =>
    simp only [handleAt, String.toList_append, List.append_assoc]
    exact .fixed "handles[" (by decide) ⟨_, rfl⟩
  case isFalse =>
    simp only [String.toList_append, List.append_assoc]
    exact .name (isQualified_handleType subtype) '(' (by decide) _

/-- The type of a record opens an expression. -/
theorem opens_record {name : String} {parsed : QualifiedName} (spelled : IsSpelledPath name)
    (read : QualifiedName.parse name = .ok parsed) (items : List String) :
    openings.Opens (block (recordType parsed false ++ "\x7b") items "\x7d").toList := by
  rw [toList_block, String.toList_append, List.append_assoc]
  exact opens_qualified spelled read '{' (by decide) _

/-- Expressions of what has no mark of presence open without an ampersand. -/
theorem opens_expression {declaration : Declaration} (spelled : NameSpelled declaration)
    (bare : declaration.isOptional = false) {literal : Literal}
    (fitted : WellFormed environment declaration literal) :
    openings.Opens (GoWriter.standard.expression literal).toList := by
  cases fitted with
  | bool value =>
    cases value
    · exact .fixed "false" (by decide) ⟨[], by decide⟩
    · exact .fixed "true" (by decide) ⟨[], by decide⟩
  | @integer _ value =>
    rw [expression, ← List.append_nil (String.toList _)]
    exact Openings.opens_integerText value []
  | @float subtype value =>
    rw [expression]
    exact opens_float subtype value
  | @floatBits subtype bits =>
    obtain ⟨others, same⟩ := exists_floatBits_eq subtype bits
    rw [expression, same]
    exact .fixed "math." (by decide) ⟨_, rfl⟩
  | bits parsed =>
    simp only [expression, String.toList_append, List.append_assoc]
    exact opens_qualified (spelled _ rfl) parsed '(' (by decide) _
  | enumeration parsed =>
    simp only [expression, String.toList_append, List.append_assoc]
    exact opens_qualified (spelled _ rfl) parsed '(' (by decide) _
  | @handle subtype _ _ index =>
    rw [expression]
    exact opens_handle index subtype
  | invalidHandle =>
    rw [expression]
    exact .fixed "zx.HandleInvalid" (by decide) ⟨[], by decide⟩
  | string value nullable =>
    cases nullable with
    | true => exact absurd bare.symm Bool.false_ne_true
    | false =>
      rw [expression, string, if_neg Bool.false_ne_true, goQuoted, quoted, String.toList_ofList]
      exact .fixed "\"" (by decide) ⟨_, rfl⟩
  | array described =>
    cases described
    simp only [expression_list, toList_block, literalType, typeName, String.toList_append,
      List.append_assoc]
    exact .fixed "[" (by decide) ⟨_, rfl⟩
  | @vector _ nullable _ _ described =>
    cases nullable with
    | true => exact absurd bare.symm Bool.false_ne_true
    | false =>
      cases described
      simp only [expression_list, toList_block, literalType, typeName, marked,
        if_neg Bool.false_ne_true, String.toList_append, List.append_assoc]
      exact .fixed "[" (by decide) ⟨_, rfl⟩
  | struct kind parsed =>
    rw [expression_struct, Declaration.nullable_of_isOptional bare]
    exact opens_record (spelled _ rfl) parsed _
  | union kind parsed =>
    rw [expression_union, Declaration.nullable_of_isOptional bare]
    exact opens_record (spelled _ rfl) parsed _
  | unknownUnion kind parsed =>
    rw [expression_unknownUnion, Declaration.nullable_of_isOptional bare]
    exact opens_record (spelled _ rfl) parsed _
  | table kind parsed =>
    rw [expression_table, Declaration.nullable_of_isOptional bare]
    exact opens_record (spelled _ rfl) parsed _
  | absentString => exact absurd bare.symm Bool.false_ne_true
  | absentVector => exact absurd bare.symm Bool.false_ne_true
  | absentRecord members nullable =>
    rw [Declaration.nullable_of_isOptional bare] at nullable
    exact absurd nullable Bool.false_ne_true

/-- The type of a record that may be absent opens with an ampersand. -/
theorem begins_record (name : QualifiedName) (items : List String) :
    Begins openings.mark.toList (block (recordType name true ++ "\x7b") items "\x7d").toList := by
  simp only [toList_block, recordType, marked, if_true, String.toList_append, List.append_assoc]
  exact ⟨_, rfl⟩

/-- Expressions of what is present where it might be absent open with an ampersand. -/
theorem begins_expression {writer : GoWriter} {declaration : Declaration}
    (optional : declaration.isOptional = true) {literal : Literal}
    (fitted : WellFormed environment declaration literal) (held : literal ≠ .null) :
    Begins openings.mark.toList (writer.expression literal).toList := by
  cases fitted with
  | string value nullable =>
    cases nullable with
    | false => exact absurd optional Bool.false_ne_true
    | true =>
      simp only [expression, string, if_true, String.toList_append, List.append_assoc]
      exact ⟨_, rfl⟩
  | @vector _ nullable _ _ described =>
    cases nullable with
    | false => exact absurd optional Bool.false_ne_true
    | true =>
      cases described
      simp only [expression_list, toList_block, literalType, typeName, marked, if_true,
        String.toList_append, List.append_assoc]
      exact ⟨_, rfl⟩
  | struct =>
    rw [expression_struct, Declaration.nullable_of_isOptional optional]
    exact begins_record _ _
  | union =>
    rw [expression_union, Declaration.nullable_of_isOptional optional]
    exact begins_record _ _
  | unknownUnion =>
    rw [expression_unknownUnion, Declaration.nullable_of_isOptional optional]
    exact begins_record _ _
  | table =>
    rw [expression_table, Declaration.nullable_of_isOptional optional]
    exact begins_record _ _
  | absentString => exact absurd rfl held
  | absentVector => exact absurd rfl held
  | absentRecord => exact absurd rfl held
  | handle =>
    rw [Declaration.isOptional_of_isHandle rfl] at optional
    exact absurd optional Bool.false_ne_true
  | _ => exact absurd optional Bool.false_ne_true

/-- Go expressions open as they have to. -/
theorem governs : openings.Governs environment GoWriter.standard.expression where
  absent := by rw [expression]; rfl
  present := begins_expression
  bare := opens_expression

end FixtureLiterals.GoWriter
