import FixtureLiterals.Proofs.Fitting.Fields
import FixtureLiterals.Proofs.Schema.Memberwise

/-!
# Routes into values and declarations

A route is walked step by step. In a value a step leads to the first field with its key or to
the item at its position, if there is one. In a declaration it leads to the member of a
name or to the element of a list; an unknown ordinal leads nowhere, as the schema has no
type for it.

Where the names of a record are distinct, the step to a name leads to what a look-up of the
name finds, in the value as in the declaration.
-/

namespace FixtureLiterals

namespace Value

/-- The part of a value that a step leads to. -/
def part? : Value → Segment → Option Value
  | .record fields, segment =>
    (fields.find? fun field => field.key.segment == segment).map Field.value
  | .list items, .index position => items[position]?
  | _, _ => none

/-- The part of a value that a route leads to. -/
def at? (value : Value) : List Segment → Option Value
  | [] => some value
  | segment :: route => (value.part? segment).bind fun part => at? part route

end Value

namespace Declaration

/-- The declaration of the part that a step leads to. -/
def part? : Declaration → Segment → Option Declaration
  | .array element _, .index _ | .vector element _, .index _ => some element
  | .record _ members, .field name => (Member.named? members name).map Member.content
  | _, _ => none

/-- The declaration of the part that a route leads to. -/
def at? (declaration : Declaration) : List Segment → Option Declaration
  | [] => some declaration
  | segment :: route => (declaration.part? segment).bind fun part => at? part route

/-- What holds of everything in a declaration holds of everything in its parts. -/
theorem All.part {property : Declaration → Prop} {declaration part : Declaration}
    {segment : Segment} (all : All property declaration)
    (found : declaration.part? segment = some part) : All property part := by
  cases declaration <;> cases segment <;> simp only [part?, reduceCtorEq, Option.some.injEq] at found
  case array.index => exact found ▸ all.element_of_array
  case vector.index => exact found ▸ all.element_of_vector
  case record.field =>
    obtain ⟨member, chosen, rfl⟩ := Option.map_eq_some_iff.mp found
    exact all.member member (Member.mem_of_named? chosen).1

end Declaration

end FixtureLiterals
