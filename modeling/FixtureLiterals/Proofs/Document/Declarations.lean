import FixtureLiterals.Document.Declarations
import FixtureLiterals.Proofs.Schema.Memberwise

/-!
# Declarations in documents tell their members apart

A record declares its members by a map. A name that is repeated there stands for one member,
in its first place and with its last content, so no record that is read from a document has
two members of one name. Since declarations come from documents only, everything that is
proved of declarations whose members are told apart is true of all that there are.
-/

namespace FixtureLiterals

namespace Document

/-- Putting an entry in its place adds no name but its own, behind all others. -/
theorem names_putEntry {α : Type} (entries : List (String × α)) (entry : String × α) :
    (putEntry entries entry).map Prod.fst =
      if entry.1 ∈ entries.map Prod.fst then entries.map Prod.fst
      else entries.map Prod.fst ++ [entry.1] := by
  have known : entries.any (fun other => other.1 == entry.1) = true ↔
      entry.1 ∈ entries.map Prod.fst := by
    simp [List.any_eq_true]
  by_cases listed : entry.1 ∈ entries.map Prod.fst
  · have replaced : ∀ other ∈ entries,
        (if other.1 == entry.1 then entry else other).1 = other.1 := by
      intro other _
      by_cases same : other.1 = entry.1
      · simp [same]
      · simp [same]
    rw [putEntry, if_pos (known.mpr listed), if_pos listed, List.map_map]
    exact List.map_congr_left replaced
  · rw [putEntry, if_neg (mt known.mp listed), if_neg listed, List.map_append]
    rfl

/-- What is found after an entry was put in its place is the entry or was there before. -/
theorem mem_putEntry {α : Type} {entries : List (String × α)} {entry other : String × α}
    (listed : other ∈ putEntry entries entry) : other = entry ∨ other ∈ entries := by
  unfold putEntry at listed
  split at listed
  · obtain ⟨former, member, rfl⟩ := List.mem_map.mp listed
    split
    · exact .inl rfl
    · exact .inr member
  · rcases List.mem_append.mp listed with before | last
    · exact .inr before
    · exact .inl (List.mem_singleton.mp last)

/-- Putting entries in their places one after the other keeps the names distinct, and leaves
nothing but the entries and what was there before. -/
theorem foldl_putEntry {α : Type} (added entries : List (String × α))
    (distinct : (entries.map Prod.fst).Nodup) :
    ((added.foldl putEntry entries).map Prod.fst).Nodup ∧
      ∀ entry ∈ added.foldl putEntry entries, entry ∈ added ∨ entry ∈ entries := by
  induction added generalizing entries with
  | nil => exact ⟨distinct, fun entry listed => .inr listed⟩
  | cons first added inductionHypothesis =>
    have stays : ((putEntry entries first).map Prod.fst).Nodup := by
      rw [names_putEntry]
      split
      case isTrue => exact distinct
      case isFalse fresh =>
        refine List.nodup_append.mpr ⟨distinct, by simp, ?_⟩
        intro name before last behind same
        exact fresh (List.mem_singleton.mp behind ▸ same ▸ before)
    obtain ⟨apart, origin⟩ := inductionHypothesis (putEntry entries first) stays
    refine ⟨apart, fun entry listed => ?_⟩
    rcases origin entry listed with later | put
    · exact .inl (List.mem_cons_of_mem first later)
    · rcases mem_putEntry put with rfl | before
      · exact .inl List.mem_cons_self
      · exact .inr before

/-- Whatever is made of a list was made of one of its members. -/
theorem exists_of_mem_mapM {α β : Type} {make : α → Option β} {members : List α}
    {results : List β} (made : members.mapM make = some results) {result : β}
    (listed : result ∈ results) : ∃ member ∈ members, make member = some result := by
  induction members generalizing results with
  | nil =>
    rw [List.mapM_nil] at made
    cases made
    cases listed
  | cons member members inductionHypothesis =>
    rw [List.mapM_cons] at made
    obtain ⟨first, head, rest⟩ := Option.bind_eq_some_iff.mp made
    obtain ⟨others, tail, joined⟩ := Option.bind_eq_some_iff.mp rest
    cases joined
    rcases List.mem_cons.mp listed with rfl | later
    · exact ⟨member, List.mem_cons_self, head⟩
    · obtain ⟨source, included, gives⟩ := inductionHypothesis tail later
      exact ⟨source, List.mem_cons_of_mem member included, gives⟩

end Document

namespace Declaration

open Document

/-- What is read at some depth has members that are told apart: a declaration, the members
of a record, and each one of them. -/
structure ReadsApart (depth : Nat) : Prop where
  declaration : ∀ {reading tree found}, ofSound? depth reading tree = some found → found.Distinct
  members : ∀ {tree found}, membersOfSound? depth tree = some found →
    (found.map Member.name).Nodup ∧ ∀ member ∈ found, member.content.Distinct
  member : ∀ {tree ordinal found}, memberOfSound? depth tree = some (ordinal, found) →
    found.Distinct

/-- A declaration tells its members apart if its parts do. -/
theorem distinct_of_ofSound? {depth : Nat} (parts : ReadsApart depth) {reading : Reading}
    {tree : Tree} {found : Declaration} (read : ofSound? (depth + 1) reading tree = some found) :
    found.Distinct := by
  simp only [ofSound?, Option.bind_eq_bind, Option.bind_eq_some_iff] at read
  obtain ⟨-, -, tag, -, members, -, made⟩ := read
  cases tag <;> simp only [Option.bind_eq_some_iff, Option.pure_def, Option.some.injEq] at made
  case primitive | bits | enumeration | string =>
    obtain ⟨-, -, rfl⟩ := made
    trivial
  case handle =>
    obtain ⟨-, -, -, -, -, -, rfl⟩ := made
    trivial
  case array | vector =>
    obtain ⟨element, present, -, -, rfl⟩ := made
    obtain ⟨part, -, inside⟩ := Option.bind_eq_some_iff.mp present
    exact ⟨trivial, parts.declaration inside⟩
  case record =>
    obtain ⟨header, -, declared, present, rfl⟩ := made
    unfold Members.withDefault at present
    split at present
    · cases present
      exact ⟨List.nodup_nil, trivial⟩
    · obtain ⟨apart, inside⟩ := parts.members present
      exact ⟨apart, (allMembers_iff declared).mpr inside⟩

/-- The members of a record are told apart, since a map declares them. -/
theorem distinct_of_membersOfSound? {depth : Nat} (parts : ReadsApart depth) {tree : Tree}
    {found : List (Member Declaration)} (read : membersOfSound? (depth + 1) tree = some found) :
    (found.map Member.name).Nodup ∧ ∀ member ∈ found, member.content.Distinct := by
  cases tree <;> simp only [membersOfSound?, reduceCtorEq] at read
  case object members =>
    obtain ⟨entries, made, whole⟩ := Option.bind_eq_some_iff.mp read
    cases whole
    obtain ⟨apart, origin⟩ := foldl_putEntry entries [] List.nodup_nil
    rw [List.map_map]
    refine ⟨apart, fun member listed => ?_⟩
    obtain ⟨entry, put, rfl⟩ := List.mem_map.mp listed
    have inside : entry ∈ entries := (origin entry put).resolve_right List.not_mem_nil
    obtain ⟨⟨key, content⟩, -, gives⟩ := exists_of_mem_mapM made inside
    obtain ⟨name, -, named⟩ := Option.bind_eq_some_iff.mp gives
    obtain ⟨⟨ordinal, type⟩, typed, entered⟩ := Option.bind_eq_some_iff.mp named
    cases entered
    exact parts.member typed

/-- A member is told apart in what its type tells apart. -/
theorem distinct_of_memberOfSound? {depth : Nat} (parts : ReadsApart depth) {tree : Tree}
    {ordinal : UInt64} {found : Declaration}
    (read : memberOfSound? (depth + 1) tree = some (ordinal, found)) : found.Distinct := by
  simp only [memberOfSound?, Option.bind_eq_bind, Option.bind_eq_some_iff, Option.pure_def,
    Option.some.injEq, Prod.mk.injEq] at read
  obtain ⟨members, -, number, -, type, present, -, rfl⟩ := read
  obtain ⟨part, -, inside⟩ := Option.bind_eq_some_iff.mp present
  exact parts.declaration inside

/-- At every depth, what is read has members that are told apart. -/
theorem readsApart (depth : Nat) : ReadsApart depth := by
  induction depth with
  | zero =>
    constructor
    · intro reading tree found read
      simp [ofSound?] at read
    · intro tree found read
      simp [membersOfSound?] at read
    · intro tree ordinal found read
      simp [memberOfSound?] at read
  | succ depth parts =>
    exact ⟨distinct_of_ofSound? parts, distinct_of_membersOfSound? parts,
      distinct_of_memberOfSound? parts⟩

/-- A declaration tells the members of its records apart by their names, wherever in a
document it stands. -/
theorem distinct_of_ofTree? {depth : Nat} {reading : Reading} {tree : Tree}
    {declaration : Declaration} (read : Documented.ofTree? depth reading tree = some declaration) :
    declaration.Distinct := by
  change ofTree? depth reading tree = some declaration at read
  unfold ofTree? at read
  split at read
  · cases read
  · exact (readsApart depth).declaration read

/-- Every document of a declaration tells the members of its records apart. -/
theorem distinct_of_read? {text : String} {declaration : Declaration}
    (read : read? text = some declaration) : declaration.Distinct := by
  obtain ⟨tree, -, found⟩ := Option.bind_eq_some_iff.mp read
  exact distinct_of_ofTree? found

end Declaration

end FixtureLiterals
