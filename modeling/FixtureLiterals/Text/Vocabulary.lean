/-!
# Closed vocabularies

Schemas, values and suites name the members of a small closed set by fixed words:
the primitive types, the handle subtypes, the error codes. A vocabulary lists its
members in order and gives each one a word of its own. Since the words are distinct,
a word can be read back, and reading returns exactly the member it was written for.
-/

namespace FixtureLiterals.Text

/-- A closed set of constants with one distinct word for each. -/
class Vocabulary (α : Type) where
  /-- The members, in their fixed order. -/
  all : List α
  /-- The word of a member. -/
  word : α → String
  /-- No member is left out of the list. -/
  mem_all : ∀ member, member ∈ all
  /-- No two members share a word. -/
  distinct : (all.map word).Nodup

namespace Vocabulary

variable {α : Type} [Vocabulary α]

/-- The member that a word stands for, if there is one. -/
def ofWord? (text : String) : Option α :=
  all.find? (fun member => word member == text)

/-- The member at a position of the fixed order, if the position is in range. -/
def ofPosition? (position : Nat) : Option α := (all : List α)[position]?

/-- A member that was found by a word has that word. -/
theorem word_of_ofWord? {text : String} {member : α} (found : ofWord? text = some member) :
    word member = text := by
  simpa using List.find?_some found

/-- Every member is read back from its own word. Distinctness rules out that an
earlier member of the list is found in its place. -/
theorem ofWord?_word (member : α) : ofWord? (word member) = some member := by
  have search (members : List α) (distinct : (members.map word).Nodup)
      (present : member ∈ members) :
      members.find? (fun candidate => word candidate == word member) = some member := by
    induction members with
    | nil => simp at present
    | cons first others inductionHypothesis =>
      simp only [List.map_cons, List.nodup_cons] at distinct
      by_cases same : word first = word member
      · rcases List.mem_cons.mp present with rfl | later
        · simp
        · exact absurd (List.mem_map.mpr ⟨member, later, same.symm⟩) distinct.1
      · have later : member ∈ others := by
          rcases List.mem_cons.mp present with rfl | later
          · exact absurd rfl same
          · exact later
        simp [same, inductionHypothesis distinct.2 later]
  exact search all Vocabulary.distinct (mem_all member)

end Vocabulary

end FixtureLiterals.Text
