import FixtureLiterals.Proofs.Emission.Openings
import FixtureLiterals.Proofs.Emission.RustRecords

/-!
# How Rust expressions open

A present value that might be absent is wrapped in `Some`. All other expressions open with the
name of a type or with a path through it, unless they are numbers, copied handles or lists.
-/

namespace FixtureLiterals.RustWriter

open Emission Text

variable {environment : Environment} {writer : RustWriter}

/-- What Rust expressions open with. -/
def openings : Openings where
  absent := Target.rust.absentText
  mark := Target.rust.presentMark
  fixed := ["true", "false", "copy_handle(&", "copy_handle_with_rights(&", "Handle::invalid()",
    "String::from(", "[", "vec!["]
  inside := rustStyle.isQualified
  behind := [':', ' ']
  differing := by decide
  foreign_mark := by decide
  foreign_absent := by decide

/-- The name of a type opens an expression. -/
theorem opens_qualified {name : String} {parsed : QualifiedName} (spelled : IsSpelledPath name)
    (read : QualifiedName.parse name = .ok parsed) (next : Char) (listed : next ∈ openings.behind)
    (rest : List Char) : openings.Opens ((qualified parsed).toList ++ next :: rest) :=
  .name (isQualified_render spelled read) next listed rest

/-- A path through the type of a number opens an expression. -/
theorem opens_primitiveType (subtype : Primitive) (rest : List Char) :
    openings.Opens ((primitiveType subtype).toList ++ ':' :: rest) := by
  have type : ∀ character ∈ (primitiveType subtype).toList, openings.inside character = true := by
    cases subtype <;> exact List.all_eq_true.mp (by decide)
  exact .name type ':' (by decide) rest

/-- A float opens with a number or with its type. -/
theorem opens_float (subtype : Primitive) (value : Binary64) :
    openings.Opens (float subtype value).toList := by
  cases finite : value.isFinite with
  | true =>
    rw [float, if_pos finite, String.toList_append]
    exact Openings.opens_floatText _ value _
  | false =>
    have path : ∃ rest, (special "::NAN" "::NEG_INFINITY" "::INFINITY" value).toList =
        ':' :: rest := by
      rw [special]
      cases value.isNaN <;> cases value.isNegative <;> exact ⟨_, rfl⟩
    obtain ⟨rest, same⟩ := path
    rw [float_of_not_finite subtype finite, String.toList_append, same]
    exact opens_primitiveType subtype rest

/-- A converted handle opens with its type, if not like the handle itself. -/
theorem opens_typedHandle (subtype : HandleSubtype) {handle : String}
    (opens : openings.Opens handle.toList) : openings.Opens (typedHandle subtype handle).toList := by
  rw [typedHandle]
  split
  case isTrue => exact opens
  case isFalse =>
    have type : ∀ character ∈ (handleType subtype).toList, openings.inside character = true := by
      cases subtype <;> exact List.all_eq_true.mp (by decide)
    simp only [String.toList_append, List.append_assoc]
    exact .name type ':' (by decide) _

/-- A handle opens with its type or with the call that copies it. -/
theorem opens_handle (index : UInt64) (subtype : HandleSubtype) (expected : Option Rights) :
    openings.Opens (writer.handle index subtype expected).toList := by
  cases expected with
  | none =>
    rw [handle]
    refine opens_typedHandle subtype ?_
    unfold copyHandle
    simp only [String.toList_append, List.append_assoc]
    exact .fixed "copy_handle(&" (by decide) ⟨_, rfl⟩
  | some narrowed =>
    rw [handle]
    refine opens_typedHandle subtype ?_
    simp only [String.toList_append, List.append_assoc]
    exact .fixed "copy_handle_with_rights(&" (by decide) ⟨_, rfl⟩

/-- A present record is written without a box where it might not be absent. -/
theorem boxed_false (text : String) : boxed false text = text := rfl

/-- Expressions of what has no mark of presence open without `Some`. -/
theorem opens_expression {declaration : Declaration} (spelled : NameSpelled declaration)
    (bare : declaration.isOptional = false) {literal : Literal}
    (fitted : WellFormed environment declaration literal) :
    openings.Opens (writer.expression literal).toList := by
  cases fitted with
  | bool value =>
    rw [expression]
    cases value
    · exact .fixed "false" (by decide) ⟨[], by decide⟩
    · exact .fixed "true" (by decide) ⟨[], by decide⟩
  | @integer subtype value =>
    rw [expression, String.toList_append]
    exact Openings.opens_integerText value _
  | @float subtype value =>
    rw [expression]
    exact opens_float subtype value
  | @floatBits subtype bits =>
    simp only [expression, String.toList_append, List.append_assoc]
    exact opens_primitiveType subtype _
  | bits parsed =>
    simp only [expression, String.toList_append, List.append_assoc]
    exact opens_qualified (spelled _ rfl) parsed ':' (by decide) _
  | enumeration parsed =>
    simp only [expression, String.toList_append, List.append_assoc]
    exact opens_qualified (spelled _ rfl) parsed ':' (by decide) _
  | @handle subtype _ _ index rights =>
    rw [expression]
    exact opens_handle index subtype rights
  | @invalidHandle subtype =>
    rw [expression]
    exact opens_typedHandle subtype (.fixed "Handle::invalid()" (by decide) ⟨[], by decide⟩)
  | string value nullable =>
    cases nullable with
    | true => exact absurd bare.symm Bool.false_ne_true
    | false =>
      simp only [expression, optional, if_neg Bool.false_ne_true, String.toList_append,
        List.append_assoc]
      exact .fixed "String::from(" (by decide) ⟨_, rfl⟩
  | array described =>
    cases described
    rw [expression, list, toList_block]
    exact .fixed "[" (by decide) ⟨_, rfl⟩
  | @vector _ nullable _ _ described =>
    cases nullable with
    | true => exact absurd bare.symm Bool.false_ne_true
    | false =>
      cases described
      rw [expression, list, optional, if_neg Bool.false_ne_true, toList_block]
      exact .fixed "vec![" (by decide) ⟨_, rfl⟩
  | struct kind parsed =>
    rw [expression_struct, Declaration.nullable_of_isOptional bare, boxed_false, toList_block,
      String.toList_append, List.append_assoc]
    exact opens_qualified (spelled _ rfl) parsed ' ' (by decide) _
  | union kind parsed =>
    rw [expression_union, Declaration.nullable_of_isOptional bare, boxed_false,
      String.toList_append, String.toList_append, List.append_assoc]
    exact opens_qualified (spelled _ rfl) parsed ':' (by decide) _
  | unknownUnion kind parsed =>
    rw [expression_unknownUnion, Declaration.nullable_of_isOptional bare, boxed_false,
      String.toList_append, String.toList_append, List.append_assoc]
    exact opens_qualified (spelled _ rfl) parsed ':' (by decide) _
  | table kind parsed =>
    rw [expression_table, Declaration.nullable_of_isOptional bare, boxed_false, toList_table,
      String.toList_append, List.append_assoc]
    exact opens_qualified (spelled _ rfl) parsed ' ' (by decide) _
  | absentString => exact absurd bare.symm Bool.false_ne_true
  | absentVector => exact absurd bare.symm Bool.false_ne_true
  | absentRecord members nullable =>
    rw [Declaration.nullable_of_isOptional bare] at nullable
    exact absurd nullable Bool.false_ne_true

/-- What is optional opens with `Some`. -/
theorem begins_optional (text : String) :
    Begins openings.mark.toList (optional true text).toList := by
  simp only [optional, if_true, String.toList_append, List.append_assoc]
  exact ⟨_, rfl⟩

/-- What is optional and boxed opens with `Some`. -/
theorem begins_boxed (text : String) : Begins openings.mark.toList (boxed true text).toList := by
  simp only [boxed, if_true, String.toList_append, List.append_assoc]
  exact ⟨_, rfl⟩

/-- Expressions of what is present where it might be absent open with `Some`. -/
theorem begins_expression {declaration : Declaration} (optional : declaration.isOptional = true)
    {literal : Literal} (fitted : WellFormed environment declaration literal)
    (held : literal ≠ .null) : Begins openings.mark.toList (writer.expression literal).toList := by
  cases fitted with
  | string value nullable =>
    cases nullable with
    | false => exact absurd optional Bool.false_ne_true
    | true =>
      rw [expression]
      exact begins_optional _
  | @vector _ nullable _ _ described =>
    cases nullable with
    | false => exact absurd optional Bool.false_ne_true
    | true =>
      cases described
      rw [expression, list]
      exact begins_optional _
  | struct =>
    rw [expression_struct, Declaration.nullable_of_isOptional optional]
    exact begins_boxed _
  | union =>
    rw [expression_union, Declaration.nullable_of_isOptional optional]
    exact begins_boxed _
  | unknownUnion =>
    rw [expression_unknownUnion, Declaration.nullable_of_isOptional optional]
    exact begins_boxed _
  | table =>
    rw [expression_table, Declaration.nullable_of_isOptional optional]
    exact begins_boxed _
  | absentString => exact absurd rfl held
  | absentVector => exact absurd rfl held
  | absentRecord => exact absurd rfl held
  | handle =>
    rw [Declaration.isOptional_of_isHandle rfl] at optional
    exact absurd optional Bool.false_ne_true
  | _ => exact absurd optional Bool.false_ne_true

/-- Rust expressions open as they have to. -/
theorem governs : openings.Governs environment writer.expression where
  absent := by rw [expression]; rfl
  present := begins_expression
  bare := opens_expression

end FixtureLiterals.RustWriter
