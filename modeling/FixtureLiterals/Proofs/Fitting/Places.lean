import FixtureLiterals.Failure
import FixtureLiterals.Proofs.Text.Revealing

/-!
# Places in writing

The steps of a place are written one behind the other, and nothing is escaped. A step into a
field or to an unknown ordinal starts with a point, one to an item with a bracket, so a name ends
where a point or a bracket follows, or the text does. The sign behind the point of an unknown
ordinal tells it from a name.

So a place is read back from its text if no name in it has the characters that start another
step, nor begins with that sign. Nothing else is asked of names: they may be empty, consist of
digits, or have a closing bracket in them.
-/

namespace FixtureLiterals

open Text

/-- The characters that a name goes on with, which are all but those that start a step. -/
def continuesName (character : Char) : Bool := character != '.' && character != '['

/-- A name that ends where the next step starts, and that is not taken for an ordinal. -/
structure IsUnmarkedName (name : String) : Prop where
  noPoint : '.' ∉ name.toList
  noBracket : '[' ∉ name.toList
  noOrdinal : name.toList.head? ≠ some '#'

/-- A step whose name, if it has one, is unmarked. -/
def Segment.IsUnmarked : Segment → Prop
  | .field name => IsUnmarkedName name
  | .unknownOrdinal _ | .index _ => True

/-- A place whose names are unmarked. -/
def Place.IsUnmarked : Place → Prop
  | .value route => ∀ segment ∈ route, segment.IsUnmarked
  | .handleDefinition _ => True

/-- The characters of an unmarked name go on with it. -/
theorem IsUnmarkedName.continuesName {name : String} (unmarked : IsUnmarkedName name) :
    ∀ character ∈ name.toList, continuesName character = true := by
  intro character listed
  have noPoint : character ≠ '.' := fun same => unmarked.noPoint (same ▸ listed)
  have noBracket : character ≠ '[' := fun same => unmarked.noBracket (same ▸ listed)
  simp [FixtureLiterals.continuesName, noPoint, noBracket]

/-- Behind a name, what starts a step is no digit. -/
theorem leaves_digits {rest : List Char} (leaves : Leaves continuesName rest) :
    Leaves Char.isDigit rest := by
  intro character head
  have starts := leaves character head
  simp only [continuesName, Bool.and_eq_false_iff, bne_eq_false_iff_eq] at starts
  rcases starts with rfl | rfl <;> decide

/-- Every step starts with a point or a bracket, behind which there is nothing of a name. -/
theorem leaves_segment (segment : Segment) (rest : List Char) :
    Leaves continuesName (segment.text.toList ++ rest) := by
  cases segment with
  | field name | unknownOrdinal ordinal | index position =>
    simp only [Segment.text, String.toList_append]
    exact leaves_append _ rest (by decide)

/-- An unmarked name is not mistaken for an ordinal, be the name empty or not. -/
theorem reveals_name_or_ordinal {name : String} (unmarked : IsUnmarkedName name)
    (ordinal : String) :
    Reveals (Leaves continuesName) name.toList ("#" ++ ordinal).toList False := by
  intro rest other leaves _ same
  rw [String.toList_append] at same
  cases spelled : name.toList with
  | nil =>
    -- The sign would be what follows the empty name, but it starts no step.
    rw [spelled] at same
    have begun : rest.head? = some '#' := congrArg List.head? same
    exact absurd (leaves '#' begun) (by decide)
  | cons first others =>
    rw [spelled] at same
    obtain ⟨rfl, -⟩ := List.cons.inj same
    exact absurd (by rw [spelled, List.head?_cons]; rfl) unmarked.noOrdinal

/-- A step to an item is not mistaken for one that starts with a point. -/
theorem apart_index (position : Nat) (step : String) :
    Apart (Segment.index position).text.toList ("." ++ step).toList := by
  have heads : Apart "[".toList ".".toList := .of_differ (by decide)
  simp only [Segment.text, String.toList_append, List.append_assoc]
  exact heads.append _ _

/-- A step to an item reveals the position. -/
theorem reveals_index (first second : Nat) :
    Reveals Anything (Segment.index first).text.toList (Segment.index second).text.toList
      (first = second) :=
  ((reveals_decimal first second).opened "[").ended "]" fun rest =>
    leaves_append [] rest (by decide)

/-- A step reveals its kind and where it leads, whatever step follows it. -/
theorem reveals_segment {first second : Segment} (unmarked : first.IsUnmarked)
    (regular : second.IsUnmarked) :
    Reveals (Leaves continuesName) first.text.toList second.text.toList (first = second) := by
  cases first <;> cases second
  case field.field name other =>
    have word := reveals_word unmarked.continuesName regular.continuesName
    exact (word.opened ".").imp fun same => congrArg Segment.field (String.toList_inj.mp same)
  case unknownOrdinal.unknownOrdinal ordinal other =>
    have number := (reveals_decimal ordinal.toNat other.toNat).imp UInt64.toNat_inj.mp
    exact ((number.opened ".#").imp (congrArg _)).narrow fun _ => leaves_digits
  case index.index position other =>
    exact ((reveals_index position other).imp (congrArg _)).narrow fun _ _ => trivial
  case field.unknownOrdinal name ordinal =>
    have mistaken := reveals_name_or_ordinal unmarked (decimal ordinal.toNat)
    exact (mistaken.opened ".").imp False.elim
  case unknownOrdinal.field ordinal name =>
    have mistaken := reveals_name_or_ordinal regular (decimal ordinal.toNat)
    exact (mistaken.opened ".").symm.imp False.elim
  case field.index name position => exact .of_apart (apart_index position name).symm
  case index.field position name => exact .of_apart (apart_index position name)
  case unknownOrdinal.index ordinal position =>
    exact .of_apart (apart_index position ("#" ++ decimal ordinal.toNat)).symm
  case index.unknownOrdinal position ordinal =>
    exact .of_apart (apart_index position ("#" ++ decimal ordinal.toNat))

/-- A route reveals its steps, if nothing follows it. -/
theorem reveals_route {first second : List Segment}
    (unmarked : ∀ segment ∈ first, segment.IsUnmarked)
    (regular : ∀ segment ∈ second, segment.IsUnmarked) :
    Reveals (· = []) (String.join (first.map Segment.text)).toList
      (String.join (second.map Segment.text)).toList (first = second) := by
  rw [String.toList_join, String.toList_join, List.flatMap_map, List.flatMap_map]
  have each : ∀ left ∈ first, ∀ right ∈ second,
      Reveals (Leaves continuesName) left.text.toList right.text.toList (left = right) :=
    fun left member right listed => reveals_segment (unmarked left member) (regular right listed)
  refine (reveals_flatMap_between each ?_ leaves_segment ?_).imp fun same => ?_
  · rintro rest rfl
    exact nofun
  · rintro segment - rest tail rfl empty
    have begun : segment.text.toList = [] := (List.append_eq_nil_iff.mp empty).1
    cases segment <;> simp [Segment.text] at begun
  · rwa [List.forall₂_eq_eq_eq] at same

/-- The written place identifies the place: root, kinds of steps, names, ordinals and positions. -/
theorem Place.text_eq_text_iff {first second : Place} (unmarked : first.IsUnmarked)
    (regular : second.IsUnmarked) : first.text = second.text ↔ first = second := by
  constructor
  · intro same
    have characters : first.text.toList ++ [] = second.text.toList ++ [] := by rw [same]
    have roots (route : List Segment) (position : Nat) :
        Apart (Place.value route).text.toList (Place.handleDefinition position).text.toList := by
      have heads : Apart "$".toList "handle_defs".toList := .of_differ (by decide)
      rw [Place.text, Place.text, String.toList_append, String.toList_append]
      exact heads.append _ _
    cases first <;> cases second
    case value.value route other =>
      have steps := (reveals_route unmarked regular).opened "$"
      exact congrArg Place.value (steps.of_eq rfl same)
    case handleDefinition.handleDefinition position other =>
      have entries := (reveals_index position other).opened "handle_defs"
      exact congrArg Place.handleDefinition (entries.of_eq trivial same)
    case value.handleDefinition route position => exact absurd characters (roots route position _ _)
    case handleDefinition.value position route =>
      exact absurd characters ((roots route position).symm _ _)
  · intro same
    rw [same]

/-- A step through a field without a name leaves its point in the text. -/
theorem Place.text_eq_text_iff_unnamed :
    let unnamed : Place := .value [.field "", .unknownOrdinal 7, .index 12]
    let shorter : Place := .value [.unknownOrdinal 7, .index 12]
    (unnamed.IsUnmarked ∧ shorter.IsUnmarked) ∧
      (unnamed.text = shorter.text ↔ unnamed = shorter) := by
  intro unnamed shorter
  have empty : IsUnmarkedName "" := ⟨by decide, by decide, by decide⟩
  have first : unnamed.IsUnmarked :=
    List.forall_mem_cons.mpr ⟨empty, List.forall_mem_cons.mpr ⟨trivial,
      List.forall_mem_cons.mpr ⟨trivial, nofun⟩⟩⟩
  have second : shorter.IsUnmarked :=
    List.forall_mem_cons.mpr ⟨trivial, List.forall_mem_cons.mpr ⟨trivial, nofun⟩⟩
  exact ⟨⟨first, second⟩, Place.text_eq_text_iff first second⟩

/-- A name that begins with the sign of ordinals is taken for one. -/
example : (Place.value [.field "#7"]).text = (Place.value [.unknownOrdinal 7]).text := by decide

end FixtureLiterals
