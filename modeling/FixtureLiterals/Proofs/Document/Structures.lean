import FixtureLiterals.Proofs.Document.Recovery
import Mathlib.Data.List.Perm.Basic

/-!
# Structures and maps that a draft shows

The entries of a structure have distinct names, and what is found under a name is what the
entry of that name shows. Where nothing is found, the entry held its default and was left
out. The entries of a map have no defaults, and since its names are distinct, every entry is
put behind the ones before it.
-/

namespace FixtureLiterals.Document

/-- What is found under the name of an entry is what the entry shows, and nothing is found only
where the entry holds its default. -/
def Entry.Answered (entry : Entry Draft) (depth : Nat) (members : Members) : Prop :=
  match members.lookup entry.name with
  | none => entry.default? = some entry.content.full
  | some content => entry.content.Shows content ∧ content.isSound depth = true

namespace Entry.Answered

variable {α : Type} {name : String} {draft : Draft} {depth : Nat} {members : Members}
  {read : Tree → Option α} {content : α}

/-- A member without a default is read. -/
theorem required (answered : Entry.Answered ⟨name, none, draft⟩ depth members)
    (yields : draft.Yields depth read content) : members.required name read = some content := by
  unfold Entry.Answered at answered
  rw [Members.required]
  cases found : members.lookup name with
  | none => simp [found] at answered
  | some tree =>
    simp only [found] at answered
    exact yields tree answered.1 answered.2

/-- A member with a default is read, or it is missing and was the default. -/
theorem withDefault {default : α} {standard : Tree}
    (answered : Entry.Answered ⟨name, some standard, draft⟩ depth members)
    (yields : draft.Yields depth read content) (same : standard = draft.full → default = content) :
    members.withDefault name default read = some content := by
  unfold Entry.Answered at answered
  rw [Members.withDefault]
  cases found : members.lookup name with
  | none =>
    simp only [found] at answered
    simp only [same (Option.some.inj answered)]
  | some tree =>
    simp only [found] at answered
    exact yields tree answered.1 answered.2

end Entry.Answered

/-- A member of a structure as a member of an object. -/
def keyedMember (member : String × Tree) : Option String × Tree := (some member.1, member.2)

/-- Members with keys are members of a structure. -/
theorem keyed?_map (members : Members) : keyed? (members.map keyedMember) = some members := by
  rw [keyed?]
  induction members with
  | nil => rfl
  | cons member members inductionHypothesis =>
    rw [List.map_cons, List.mapM_cons, inductionHypothesis]
    rfl

/-- Members under some of the declared names, each only once, are all of a structure's members. -/
theorem members?_map {names : List String} {members : Members} (distinct : names.Nodup)
    (declared : (members.map Prod.fst).Sublist names) :
    members? names (.object (members.map keyedMember)) = some members := by
  have known : ∀ member ∈ members, names.contains member.1 = true := by
    intro member listed
    rw [List.contains_iff_mem]
    exact declared.subset (List.mem_map_of_mem listed)
  rw [members?, keyed?_map]
  simp only [Option.bind_eq_bind, Option.bind_some, List.filter_eq_self.mpr known]
  exact if_pos (distinct.sublist declared)

/-- Nothing is found under a name that no member has. -/
theorem lookup_of_not_mem {members : Members} {name : String}
    (absent : name ∉ members.map Prod.fst) : members.lookup name = none := by
  refine List.lookup_eq_none_iff.mpr fun member listed => ?_
  rw [bne_iff_ne]
  rintro rfl
  exact absent (List.mem_map_of_mem listed)

/-- What remains of entries with distinct names answers to all of them. -/
theorem Remains.answered {entries : List (Entry Draft)} {shown : List (Option String × Tree)}
    (remains : Remains Draft.Shows entries shown) {depth : Nat}
    (sound : ∀ member ∈ shown, member.2.isSound depth = true)
    (distinct : (entries.map Entry.name).Nodup) :
    ∃ members : Members, shown = members.map keyedMember ∧
      (members.map Prod.fst).Sublist (entries.map Entry.name) ∧
      ∀ entry ∈ entries, entry.Answered depth members := by
  induction remains with
  | nil => exact ⟨[], rfl, .slnil, nofun⟩
  | @kept entry content entries others shows _ inductionHypothesis =>
    rw [List.map_cons, List.nodup_cons] at distinct
    rw [List.forall_mem_cons] at sound
    obtain ⟨members, rfl, among, answered⟩ := inductionHypothesis sound.2 distinct.2
    refine ⟨(entry.name, content) :: members, rfl, among.cons_cons entry.name,
      List.forall_mem_cons.mpr ⟨?_, fun other listed => ?_⟩⟩
    · rw [Entry.Answered, List.lookup_cons_self]
      exact ⟨shows, sound.1⟩
    · have apart : (other.name == entry.name) = false := by
        rw [beq_eq_false_iff_ne]
        intro same
        exact distinct.1 (same ▸ List.mem_map_of_mem listed)
      rw [Entry.Answered, List.lookup_cons, apart]
      exact answered other listed
  | @dropped entry entries others standard _ inductionHypothesis =>
    rw [List.map_cons, List.nodup_cons] at distinct
    obtain ⟨members, rfl, among, answered⟩ := inductionHypothesis sound distinct.2
    refine ⟨members, rfl, among.cons entry.name, List.forall_mem_cons.mpr ⟨?_, answered⟩⟩
    rw [Entry.Answered, lookup_of_not_mem fun listed => distinct.1 (among.subset listed)]
    exact standard

namespace Draft

/-- What is shown of a structure has its members, which answer to all of its entries. -/
theorem Shows.members? {entries : List (Entry Draft)} {tree : Tree} {depth : Nat}
    (shows : (Draft.object entries).Shows tree) (sound : tree.isSound depth = true)
    {names : List String} (named : entries.map Entry.name = names) (distinct : names.Nodup) :
    ∃ below members, depth = below + 1 ∧ Document.members? names tree = some members ∧
      entries.Forall fun entry => entry.Answered below members := by
  subst named
  cases shows with
  | object remains =>
    obtain ⟨below, rfl, inside⟩ := Tree.isSound_object_iff.mp sound
    obtain ⟨members, rfl, among, answered⟩ :=
      remains.answered (fun member listed => (inside member listed).2) distinct
    exact ⟨below, members, rfl, members?_map distinct among,
      List.forall_iff_forall_mem.mpr answered⟩

/-- Entries with plain contents make a plain object. -/
theorem plain_object {entries : List (Entry Draft)}
    (plain : ∀ entry ∈ entries, entry.content.full.Plain) : (object entries).full.Plain := by
  rw [full, fullMembers_eq]
  refine .object (fun member listed => ?_) fun member listed => ?_
  · obtain ⟨entry, -, rfl⟩ := List.mem_map.mp listed
    rfl
  · obtain ⟨entry, among, rfl⟩ := List.mem_map.mp listed
    exact plain entry among

variable {α : Type}

/-- A structure is recovered if it is made of its members, and made right of members that answer
to its entries. -/
theorem recovers_object {entries : List (Entry Draft)} {tree : Tree}
    {read : Nat → Reading → Tree → Option α} {content : α} (names : List String)
    (named : entries.map Entry.name = names) (distinct : names.Nodup)
    (full : (object entries).full = tree)
    (plain : entries.Forall fun entry => entry.content.full.Plain)
    (build : Nat → Reading → Members → Option α)
    (reads : ∀ depth reading part, read (depth + 1) reading part =
      (Document.members? names part).bind (build depth reading))
    (builds : ∀ depth reading members, (entries.Forall fun entry => entry.Answered depth members) →
      build depth reading members = some content) :
    (object entries).Recovers tree read content where
  full := full
  plain := full ▸ plain_object (List.forall_iff_forall_mem.mp plain)
  yields := by
    intro depth reading shown shows sound
    obtain ⟨below, members, rfl, found, answered⟩ := shows.members? sound named distinct
    rw [reads, found]
    exact builds below reading members answered

end Draft

section Singles

variable {α β : Type}

/-- An object with a single member is recovered if its content is. -/
theorem Draft.recovers_single {name : String} {draft : Draft} {part tree : Tree}
    {readPart : Nat → Reading → Tree → Option α} {inner : α}
    {read : Nat → Reading → Tree → Option β} {content : β}
    (recovers : draft.Recovers part readPart inner) (written : tree = .object [(some name, part)])
    (reads : ∀ depth reading shown, readPart depth reading shown = some inner →
      read (depth + 1) reading (.object [(some name, shown)]) = some content) :
    (object [⟨name, none, draft⟩]).Recovers tree read content := by
  have full : (object [⟨name, none, draft⟩]).full = tree := by
    simp only [Draft.full, fullMembers, recovers.full, written]
  refine ⟨full, full ▸ plain_object (List.forall_iff_forall_mem.mp recovers.plain_full), ?_⟩
  intro depth reading shown shows sound
  cases shows with
  | object remains =>
    cases remains with
    | dropped standard => cases standard
    | kept shows nothing =>
      cases nothing
      obtain ⟨below, rfl, inside⟩ := Tree.isSound_object_iff.mp sound
      exact reads below reading _
        (recovers.yields below reading _ shows (inside _ List.mem_cons_self).2)

end Singles

section Maps

variable {α : Type}

/-- Entries with new and distinct names are put behind the ones before them. -/
theorem foldl_putEntry_of_nodup {entries before : List (String × α)}
    (distinct : ((before ++ entries).map Prod.fst).Nodup) :
    entries.foldl putEntry before = before ++ entries := by
  induction entries generalizing before with
  | nil => rw [List.foldl_nil, List.append_nil]
  | cons entry entries inductionHypothesis =>
    have fresh : before.any (fun other => other.1 == entry.1) = false := by
      rw [List.any_eq_false]
      intro other listed same
      rw [List.map_append, List.nodup_append] at distinct
      exact distinct.2.2 other.1 (List.mem_map_of_mem listed) entry.1
        (List.mem_map_of_mem List.mem_cons_self) (of_decide_eq_true same)
    have last : putEntry before entry = before ++ [entry] := by
      rw [putEntry, if_neg (Bool.eq_false_iff.mp fresh)]
    rw [List.append_cons] at distinct ⊢
    rw [List.foldl_cons, last, inductionHypothesis distinct]

/-- An entry of a map: it has no default, and its content is recovered. -/
structure Entry.Maps (write : α → Tree) (read : Nat → Reading → Tree → Option α)
    (entry : Entry Draft) (named : String × α) : Prop where
  name : entry.name = named.1
  kept : entry.default? = none
  recovers : entry.content.Recovers (write named.2) read named.2

/-- The members of a map are read one by one. -/
theorem mapM_of_maps {write : α → Tree} {read : Nat → Reading → Tree → Option α}
    {entries : List (Entry Draft)} {members : List (Option String × Tree)}
    {contents : List (String × α)} {depth : Nat} (reading : Reading)
    (remains : Remains Draft.Shows entries members)
    (sound : ∀ member ∈ members, member.2.isSound depth = true)
    (each : List.Forall₂ (Entry.Maps write read) entries contents) :
    (members.mapM fun (key, content) => do
      return (← key, ← read depth reading content)) = some contents := by
  induction remains generalizing contents with
  | nil =>
    cases each
    rfl
  | kept shows _ inductionHypothesis =>
    cases each with
    | cons maps others =>
      rw [List.forall_mem_cons] at sound
      rw [List.mapM_cons, inductionHypothesis sound.2 others]
      simp only [Option.bind_eq_bind, Option.bind_some, Option.pure_def,
        maps.recovers.yields depth reading _ shows sound.1, maps.name]
  | dropped standard =>
    cases each with
    | cons maps => cases maps.kept.symm.trans standard

/-- A map with distinct names is recovered if its entries are. -/
theorem Draft.recovers_map {write : α → Tree} {read : Nat → Reading → Tree → Option α}
    {entries : List (Entry Draft)} {contents : List (String × α)}
    (distinct : (contents.map Prod.fst).Nodup)
    (each : List.Forall₂ (Entry.Maps write read) entries contents) :
    (object entries).Recovers (ofEntries write contents)
      (fun depth reading => entries? (fun below => read below reading) depth) contents := by
  have full : (object entries).full = ofEntries write contents := by
    have same : entries.map (fun entry => (some entry.name, entry.content.full)) =
        contents.map fun named => (some named.1, write named.2) :=
      map_eq_map_of_forall₂
        (fun _ _ maps => Prod.ext (congrArg some maps.name) maps.recovers.full) each
    rw [Draft.full, fullMembers_eq, same]
    rfl
  refine ⟨full, full ▸ plain_object fun entry listed => ?_, ?_⟩
  · obtain ⟨named, -, maps⟩ := exists_of_mem_right each.flip listed
    exact maps.recovers.plain_full
  · intro depth reading shown shows sound
    cases shows with
    | object remains =>
      obtain ⟨below, rfl, inside⟩ := Tree.isSound_object_iff.mp sound
      have listed := mapM_of_maps reading remains (fun member listed => (inside member listed).2)
        each
      have put : contents.foldl putEntry [] = contents := foldl_putEntry_of_nodup distinct
      refine (congrArg (Option.bind · fun entries => some (entries.foldl putEntry [])) listed).trans ?_
      rw [Option.bind_some, put]

end Maps

end FixtureLiterals.Document
