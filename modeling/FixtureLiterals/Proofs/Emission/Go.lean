import FixtureLiterals.Proofs.Emission.GoOpenings

/-!
# Go expressions determine their literals

Where a declaration is readable, the Go expressions of its literals reveal the literals, up
to what Go leaves out. How expressions open is enough to tell that no element of a list starts
like the brace that closes the list, and that the absent value is not mistaken for another one.
-/

namespace FixtureLiterals.GoWriter

open Emission Text

variable {environment : Environment}

/-- No expression starts like the brace that closes a list. -/
theorem apart_expression {declaration : Declaration} (readable : Readable .go declaration)
    {literal : Literal} (fitted : WellFormed environment declaration literal) :
    Apart (GoWriter.standard.expression literal).toList ['\x7d'] :=
  governs.apart (by decide) (by decide) (by decide) readable.nameSpelled fitted

/-- The number behind the name of a scalar is revealed. -/
theorem reveals_scalar (name : QualifiedName) (first second : Integer) :
    Reveals Ends (qualified name ++ "(" ++ first.text ++ ")").toList
      (qualified name ++ "(" ++ second.text ++ ")").toList (first.toInt = second.toInt) :=
  ((reveals_integer first second).opened _).ended _ fun rest =>
    leaves_append [] rest (by decide)

/-- Lists of one type are revealed if their elements are. -/
theorem reveals_list {element : Declaration} (readable : Readable .go element)
    (contents : RevealsLiterals environment .go GoWriter.standard.expression element)
    (type : TypeReference) {first second : List Literal}
    (each : ∀ item ∈ first, WellFormed environment element item)
    (every : ∀ item ∈ second, WellFormed environment element item) :
    Reveals Anything (GoWriter.standard.expression (.list type first)).toList
      (GoWriter.standard.expression (.list type second)).toList
      (List.Forall₂ (Alike .go) first second) := by
  have elements : ∀ left ∈ first, ∀ right ∈ second,
      Reveals (Begins [',']) (GoWriter.standard.expression left).toList
        (GoWriter.standard.expression right).toList (Alike .go left right) :=
    fun left member right listed =>
      (contents left right (each left member) (every right listed)).narrow fun _ =>
        ends_of_begins_comma
  rw [expression_list, expression_list]
  refine reveals_block elements _ (.of_differ (by decide)) ?_
  rintro item (member | listed)
  · exact (apart_expression readable (each item member)).longer _
  · exact (apart_expression readable (every item listed)).longer _

/-- Go expressions reveal their literals, node by node. -/
theorem revealsNodes : RevealsNodes environment .go GoWriter.standard.expression where
  bool := by
    rw [TellsApart, expression, expression]
    exact .of_differ (by decide)
  integer subtype first second :=
    (reveals_integer first second).narrow fun _ => leaves_of_ends (by decide) (by decide)
  float := reveals_float
  floatBits := reveals_floatBits
  pattern := apart_floatBits
  bits name first second := by
    rw [Tells, expression, expression]
    exact reveals_scalar name first second
  enumeration name first second := by
    rw [Tells, expression, expression]
    exact reveals_scalar name first second
  handle subtype first second rights others := by
    rw [Tells, expression, expression]
    refine (reveals_handle GoWriter.standard subtype first second).imp fun same => ⟨same, ?_⟩
    intro refused
    cases refused
  invalidHandle subtype index rights := by
    rw [TellsApart, expression, expression]
    exact apart_handle index subtype
  string nullable first second := by
    rw [Tells, expression, expression]
    exact reveals_string nullable first second
  absent := governs.apart_absent
  list readable contents type first second each every :=
    (reveals_list readable contents type each every).narrow fun _ _ => trivial
  struct record kind name first second belong listed :=
    (reveals_struct record name belong listed).narrow fun _ _ => trivial
  union record kind name parsed first second belongs listed ordinal other :=
    (reveals_union record parsed belongs listed ordinal other).narrow fun _ _ => trivial
  unknownUnion name nullable first second :=
    (reveals_unknownUnion _ name nullable first second).narrow fun _ _ => trivial
  member record kind name parsed field belongs := apart_unions record parsed belongs
  table record kind name first second belong listed unknown others :=
    (reveals_table record name belong listed unknown others).narrow fun _ _ => trivial

end FixtureLiterals.GoWriter
