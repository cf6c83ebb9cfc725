import FixtureLiterals.Literal.Fitting
import Mathlib.Data.List.Forall2
import Mathlib.Data.List.Nodup

/-!
# The fields of a record value

The fields of a record stand under declared names and under unknown ordinals. Fitting
scans them several times: once for the names, once for the ordinals, and then it looks
names up. Each scan sees one of two sublists, and this module says which.

A name that occurs once has one value, so it makes no difference that the scan puts the
latest field first: looking up a name finds the field that has it.
-/

namespace FixtureLiterals

namespace Field

variable {α : Type}

/-- The fields under declared names, in order. -/
def underNames : List (Field α) → List (String × α)
  | [] => []
  | ⟨.declared name, value⟩ :: fields => (name, value) :: underNames fields
  | ⟨.unknown _, _⟩ :: fields => underNames fields

/-- The fields under unknown ordinals, in order. -/
def underOrdinals : List (Field α) → List (UInt64 × α)
  | [] => []
  | ⟨.declared _, _⟩ :: fields => underOrdinals fields
  | ⟨.unknown ordinal, value⟩ :: fields => (ordinal, value) :: underOrdinals fields

/-- A field is under a name exactly if the name is its key. -/
theorem mem_underNames (fields : List (Field α)) (name : String) (value : α) :
    (name, value) ∈ underNames fields ↔ ⟨.declared name, value⟩ ∈ fields := by
  induction fields with
  | nil => simp [underNames]
  | cons field fields inductionHypothesis =>
    obtain ⟨key, content⟩ := field
    cases key <;> simp [underNames, inductionHypothesis]

/-- A field is under an ordinal exactly if the ordinal is its key. -/
theorem mem_underOrdinals (fields : List (Field α)) (ordinal : UInt64) (value : α) :
    (ordinal, value) ∈ underOrdinals fields ↔ ⟨.unknown ordinal, value⟩ ∈ fields := by
  induction fields with
  | nil => simp [underOrdinals]
  | cons field fields inductionHypothesis =>
    obtain ⟨key, content⟩ := field
    cases key <;> simp [underOrdinals, inductionHypothesis]

/-- A name is used exactly if it is the key of a field. -/
theorem mem_names (fields : List (Field α)) (name : String) :
    name ∈ (underNames fields).map Prod.fst ↔ FieldKey.declared name ∈ fields.map Field.key := by
  induction fields with
  | nil => simp [underNames]
  | cons field fields inductionHypothesis =>
    obtain ⟨key, content⟩ := field
    cases key <;> simp_all [underNames]

/-- An ordinal is used exactly if it is the key of a field. -/
theorem mem_ordinals (fields : List (Field α)) (ordinal : UInt64) :
    ordinal ∈ (underOrdinals fields).map Prod.fst ↔
      FieldKey.unknown ordinal ∈ fields.map Field.key := by
  induction fields with
  | nil => simp [underOrdinals]
  | cons field fields inductionHypothesis =>
    obtain ⟨key, content⟩ := field
    cases key <;> simp_all [underOrdinals]

/-- No key repeats exactly if neither a name nor an ordinal does. -/
theorem nodup_keys_iff (fields : List (Field α)) :
    (fields.map Field.key).Nodup ↔
      ((underNames fields).map Prod.fst).Nodup ∧ ((underOrdinals fields).map Prod.fst).Nodup := by
  induction fields with
  | nil => simp [underNames, underOrdinals]
  | cons field fields inductionHypothesis =>
    obtain ⟨key, content⟩ := field
    cases key with
    | declared name =>
      simp only [List.map_cons, underNames, underOrdinals, List.nodup_cons, mem_names,
        inductionHypothesis, and_assoc]
    | unknown ordinal =>
      simp only [List.map_cons, underNames, underOrdinals, List.nodup_cons, mem_ordinals,
        inductionHypothesis]
      exact and_left_comm

/-- There is a first unknown ordinal unless there is none at all. -/
theorem firstUnknownOrdinal?_eq_none_iff (fields : List (Field Value)) :
    Literal.firstUnknownOrdinal? fields = none ↔ underOrdinals fields = [] := by
  induction fields with
  | nil => simp [Literal.firstUnknownOrdinal?, underOrdinals]
  | cons field fields inductionHypothesis =>
    obtain ⟨key, content⟩ := field
    cases key with
    | declared name => simpa [Literal.firstUnknownOrdinal?, underOrdinals] using inductionHypothesis
    | unknown ordinal => simp [Literal.firstUnknownOrdinal?, underOrdinals]

end Field

section Lookup

variable {α β : Type} [BEq α] [LawfulBEq α]

/-- Among distinct keys, looking one up finds its only entry. -/
theorem lookup_eq_some_iff_mem (entries : List (α × β)) (distinct : (entries.map Prod.fst).Nodup)
    (key : α) (value : β) : entries.lookup key = some value ↔ (key, value) ∈ entries := by
  induction entries with
  | nil => simp
  | cons entry entries inductionHypothesis =>
    obtain ⟨first, content⟩ := entry
    obtain ⟨absent, rest⟩ := List.nodup_cons.mp distinct
    by_cases same : key = first
    · subst same
      have notLater : (key, value) ∉ entries := fun later =>
        absent (List.mem_map.mpr ⟨_, later, rfl⟩)
      simp [notLater, eq_comm]
    · have later : (key == first) = false := beq_eq_false_iff_ne.mpr same
      simp [List.lookup_cons, later, same, inductionHypothesis rest]

/-- A key is not found behind an entry exactly if it is another key and not found without it. -/
theorem lookup_cons_eq_none_iff (key first : α) (content : β) (entries : List (α × β)) :
    ((first, content) :: entries).lookup key = none ↔
      key ≠ first ∧ entries.lookup key = none := by
  by_cases same : key = first
  · simp [same]
  · simp [List.lookup_cons, same, beq_eq_false_iff_ne.mpr same]

/-- Among distinct keys, the order of the entries is of no account to a look-up. -/
theorem lookup_reverse (entries : List (α × β)) (distinct : (entries.map Prod.fst).Nodup)
    (key : α) : entries.reverse.lookup key = entries.lookup key := by
  have reversed : (entries.reverse.map Prod.fst).Nodup := by
    rw [List.map_reverse]
    exact List.nodup_reverse.mpr distinct
  apply Option.ext
  intro value
  rw [lookup_eq_some_iff_mem _ reversed, lookup_eq_some_iff_mem _ distinct, List.mem_reverse]

end Lookup

namespace Member

variable {α β : Type}

/-- Some member has a name exactly if one is found. -/
theorem named?_isSome_iff (members : List (Member α)) (name : String) :
    (named? members name).isSome ↔ ∃ member ∈ members, member.name = name := by
  simp [named?]

/-- A member that is found is a member, and has the name. -/
theorem mem_of_named? {members : List (Member α)} {name : String} {member : Member α}
    (found : named? members name = some member) : member ∈ members ∧ member.name = name :=
  ⟨List.mem_of_find?_eq_some found, by simpa using List.find?_some found⟩

/-- No member has an ordinal exactly if none is found. -/
theorem ofOrdinal?_eq_none_iff (members : List (Member α)) (ordinal : UInt64) :
    ofOrdinal? members ordinal = none ↔ ∀ member ∈ members, member.ordinal ≠ ordinal := by
  simp [ofOrdinal?]

/-- Finding by name does not depend on what is known of the content. -/
theorem named?_map (transform : α → β) (members : List (Member α)) (name : String) :
    named? (members.map (Member.map transform)) name =
      (named? members name).map (Member.map transform) := by
  simp only [named?, List.find?_map]
  rfl

/-- Finding by ordinal does not depend on what is known of the content. -/
theorem ofOrdinal?_map (transform : α → β) (members : List (Member α)) (ordinal : UInt64) :
    ofOrdinal? (members.map (Member.map transform)) ordinal =
      (ofOrdinal? members ordinal).map (Member.map transform) := by
  simp only [ofOrdinal?, List.find?_map]
  rfl

end Member

end FixtureLiterals
