import FixtureLiterals.Proofs.Emission.RustOpenings

/-!
# Rust expressions determine their literals

Where a declaration is readable, the Rust expressions of its literals reveal the literals, up
to what Rust leaves out. How expressions open is enough to tell that no element of a list starts
like the bracket that closes the list, and that the absent value is not mistaken for another one.
-/

namespace FixtureLiterals.RustWriter

open Emission Text

variable {environment : Environment} {writer : RustWriter}

/-- No expression starts like the bracket that closes a list. -/
theorem apart_expression {declaration : Declaration} (readable : Readable .rust declaration)
    {literal : Literal} (fitted : WellFormed environment declaration literal) :
    Apart (writer.expression literal).toList [']'] :=
  governs.apart (by decide) (by decide) (by decide) readable.nameSpelled fitted

section Lists

variable {element : Declaration} (readable : Readable .rust element)
  (contents : RevealsLiterals environment .rust writer.expression element)
include readable contents

/-- The items of a list are revealed, whatever opens it. -/
theorem reveals_items (opener : String) {first second : List Literal}
    (each : ∀ item ∈ first, WellFormed environment element item)
    (every : ∀ item ∈ second, WellFormed environment element item) :
    Reveals Anything (block opener (writer.expressions first) "]").toList
      (block opener (writer.expressions second) "]").toList
      (List.Forall₂ (Alike .rust) first second) := by
  have elements : ∀ left ∈ first, ∀ right ∈ second,
      Reveals (Begins [',']) (writer.expression left).toList (writer.expression right).toList
        (Alike .rust left right) :=
    fun left member right listed =>
      (contents left right (each left member) (every right listed)).narrow fun _ =>
        ends_of_begins_comma
  rw [expressions_eq_map, expressions_eq_map]
  refine reveals_block elements opener (.of_differ (by decide)) ?_
  rintro item (member | listed)
  · exact (apart_expression readable (each item member)).longer _
  · exact (apart_expression readable (every item listed)).longer _

/-- Lists of one type are revealed if their elements are. -/
theorem reveals_list (type : TypeReference) {first second : List Literal}
    (each : ∀ item ∈ first, WellFormed environment element item)
    (every : ∀ item ∈ second, WellFormed environment element item) :
    Reveals Anything (writer.expression (.list type first)).toList
      (writer.expression (.list type second)).toList (List.Forall₂ (Alike .rust) first second) := by
  have items := fun opener => reveals_items readable contents opener each every
  rw [expression, expression]
  cases type with
  | array => exact items "["
  | vector _ nullable => exact reveals_optional (items "vec![") nullable
  | _ => exact items "vec!["

end Lists

/-- A number in a call is revealed. -/
theorem reveals_call (opening : String) (first second : Integer) :
    Reveals Ends (opening ++ first.text ++ ")").toList (opening ++ second.text ++ ")").toList
      (first.toInt = second.toInt) :=
  ((reveals_integer first second).opened opening).ended ")" fun rest =>
    leaves_append [] rest (by decide)

/-- Rust expressions reveal their literals, node by node. -/
theorem revealsNodes : RevealsNodes environment .rust writer.expression where
  bool := by
    rw [TellsApart, expression, expression]
    exact .of_differ (by decide)
  integer subtype first second := by
    rw [Tells, expression, expression]
    exact (reveals_integer first second).ended _ (leaves_primitiveType subtype)
  float subtype first second := (reveals_float subtype first second).narrow fun _ _ => trivial
  floatBits subtype first second :=
    (reveals_floatBits subtype first second).narrow fun _ _ => trivial
  pattern := apart_floatBits
  bits name first second := by
    rw [Tells, expression, expression]
    exact reveals_call _ first second
  enumeration name first second := by
    rw [Tells, expression, expression]
    exact reveals_call _ first second
  handle subtype first second rights others := by
    rw [Tells, expression, expression]
    refine ((reveals_handle writer subtype first second rights others).narrow
      fun _ _ => trivial).imp ?_
    rintro ⟨same, asked⟩
    exact ⟨same, fun _ => asked⟩
  invalidHandle subtype index rights := by
    rw [TellsApart, expression, expression]
    exact apart_handle writer index subtype rights
  string nullable first second := by
    rw [Tells, expression, expression]
    exact (reveals_string nullable first second).narrow fun _ _ => trivial
  absent := governs.apart_absent
  list readable contents type first second each every :=
    (reveals_list readable contents type each every).narrow fun _ _ => trivial
  struct record kind name first second belong listed :=
    (reveals_struct record kind name belong listed).narrow fun _ _ => trivial
  union record kind name parsed first second belongs listed ordinal other :=
    (reveals_union record kind name belongs listed ordinal other).narrow fun _ _ => trivial
  unknownUnion name nullable first second :=
    (reveals_unknownUnion writer name nullable first second).narrow fun _ _ => trivial
  member record kind name parsed field belongs := apart_unions record name belongs
  table record kind name first second belong listed unknown others :=
    (reveals_table record kind name belong listed unknown others).narrow fun _ _ => trivial

end FixtureLiterals.RustWriter
