import FixtureLiterals.Schema.Declaration
import Mathlib.Data.List.Forall2

/-!
# Reasoning over all parts of a declaration

A declaration contains others: the element of a list and the members of a record. A
statement about all declarations is proved memberwise, from the same statement about the
parts of each. A property may also be asked of a declaration and of everything in it.

Names identify members, so the names of a record's members are distinct. The type of
declarations does not say so, since a list of members may hold two of one name. It is a
property of the whole tree, and statements that depend on it name it.
-/

namespace FixtureLiterals

namespace Declaration

/-- Induction over declarations, with the induction hypothesis for each member of a
record. -/
theorem memberwise {motive : Declaration → Prop}
    (primitive : ∀ subtype, motive (.primitive subtype))
    (bits : ∀ scalar, motive (.bits scalar))
    (enumeration : ∀ scalar, motive (.enumeration scalar))
    (handle : ∀ subtype rights nullable, motive (.handle subtype rights nullable))
    (string : ∀ nullable, motive (.string nullable))
    (array : ∀ element size, motive element → motive (.array element size))
    (vector : ∀ element nullable, motive element → motive (.vector element nullable))
    (record : ∀ header members, (∀ member ∈ members, motive member.content) →
      motive (.record header members))
    (declaration : Declaration) : motive declaration :=
  Declaration.rec
    (motive_2 := fun members => ∀ member ∈ members, motive member.content)
    (motive_3 := fun member => motive member.content)
    primitive bits enumeration handle string array vector record
    (fun _ absent => nomatch absent)
    (fun _ _ first others => List.forall_mem_cons.mpr ⟨first, others⟩)
    (fun _ _ _ content => content)
    declaration

mutual

/-- A property of a declaration and of every declaration in it. -/
def All (property : Declaration → Prop) : Declaration → Prop
  | .array element size => property (.array element size) ∧ All property element
  | .vector element nullable => property (.vector element nullable) ∧ All property element
  | .record header members => property (.record header members) ∧ AllMembers property members
  | declaration => property declaration

/-- A property of every declaration in a list of members. -/
def AllMembers (property : Declaration → Prop) : List (Member Declaration) → Prop
  | [] => True
  | ⟨_, _, content⟩ :: members => All property content ∧ AllMembers property members

end

variable {property : Declaration → Prop}

/-- A property of the contents of all members. -/
theorem allMembers_iff (members : List (Member Declaration)) :
    AllMembers property members ↔ ∀ member ∈ members, All property member.content := by
  induction members with
  | nil => simp [AllMembers]
  | cons member members inductionHypothesis => simp [AllMembers, inductionHypothesis]

/-- What holds of everything in a declaration holds of the declaration. -/
theorem All.self {declaration : Declaration} (all : All property declaration) :
    property declaration := by
  cases declaration <;> simp only [All] at all
  case array | vector | record => exact all.1
  all_goals exact all

/-- Everything in the element of an array is in the array. -/
theorem All.element_of_array {element : Declaration} {size : UInt64}
    (all : All property (.array element size)) : All property element := by
  simp only [All] at all
  exact all.2

/-- Everything in the element of a vector is in the vector. -/
theorem All.element_of_vector {element : Declaration} {nullable : Bool}
    (all : All property (.vector element nullable)) : All property element := by
  simp only [All] at all
  exact all.2

/-- Everything in a member of a record is in the record. -/
theorem All.member {header : RecordHeader} {members : List (Member Declaration)}
    (all : All property (.record header members)) :
    ∀ member ∈ members, All property member.content := by
  simp only [All] at all
  exact (allMembers_iff members).mp all.2

/-- Two properties of everything in a declaration hold of everything in it together. -/
theorem All.and {first second : Declaration → Prop} {declaration : Declaration}
    (left : All first declaration) (right : All second declaration) :
    All (fun inner => first inner ∧ second inner) declaration := by
  induction declaration using Declaration.memberwise with
  | array element size inductionHypothesis =>
    simp only [All]
    exact ⟨⟨left.self, right.self⟩,
      inductionHypothesis left.element_of_array right.element_of_array⟩
  | vector element nullable inductionHypothesis =>
    simp only [All]
    exact ⟨⟨left.self, right.self⟩,
      inductionHypothesis left.element_of_vector right.element_of_vector⟩
  | record header members inductionHypothesis =>
    simp only [All]
    refine ⟨⟨left.self, right.self⟩, (allMembers_iff members).mpr fun member declared => ?_⟩
    exact inductionHypothesis member declared (left.member member declared)
      (right.member member declared)
  | _ => exact ⟨left, right⟩

/-- The names of a record's members are distinct, since a record declares them by a map from
names. Other declarations have no members. -/
def NamesApart : Declaration → Prop
  | .record _ members => (members.map Member.name).Nodup
  | _ => True

/-- In a declaration and in everything in it, the names of members are distinct. -/
abbrev Distinct (declaration : Declaration) : Prop := declaration.All NamesApart

end Declaration

end FixtureLiterals
