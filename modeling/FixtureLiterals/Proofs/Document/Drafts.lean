import FixtureLiterals.Proofs.Document.Trees
import FixtureLiterals.Proofs.Pairwise

/-!
# Documents with members that may be left out

A draft is a document in which the members that have a default say so. It shows every tree
that is the document without some of the members that hold just their default, each of them
left out or kept by itself and at any depth. The draft in full is the tree with all members
in it.

What is left out takes nothing from the rest of the document: no tree that a draft shows nests
deeper than the draft in full, and none has other numbers, texts or keys.
-/

namespace FixtureLiterals.Document

/-- A member of an object in a draft. -/
structure Entry (α : Type) where
  name : String
  /-- The document of the default that a missing member stands for, if it may be missing. -/
  default? : Option Tree
  content : α

/-- A document some of whose members have defaults. -/
inductive Draft where
  /-- A document with nothing to leave out. -/
  | whole (tree : Tree)
  | array (items : List Draft)
  | object (entries : List (Entry Draft))

namespace Draft

/-- Induction over drafts, with the induction hypothesis for each item and each entry. -/
theorem partwise {motive : Draft → Prop} (whole : ∀ tree, motive (.whole tree))
    (array : ∀ items, (∀ item ∈ items, motive item) → motive (.array items))
    (object : ∀ entries, (∀ entry ∈ entries, motive entry.content) → motive (.object entries))
    (draft : Draft) : motive draft :=
  Draft.rec
    (motive_2 := fun items => ∀ item ∈ items, motive item)
    (motive_3 := fun entries => ∀ entry ∈ entries, motive entry.content)
    (motive_4 := fun entry => motive entry.content)
    whole array object
    (fun _ absent => nomatch absent)
    (fun _ _ first others => List.forall_mem_cons.mpr ⟨first, others⟩)
    (fun _ absent => nomatch absent)
    (fun _ _ first others => List.forall_mem_cons.mpr ⟨first, others⟩)
    (fun _ _ _ content => content)
    draft

mutual

/-- The tree of a draft with nothing left out. -/
def full : Draft → Tree
  | .whole tree => tree
  | .array items => .array (fullItems items)
  | .object entries => .object (fullMembers entries)

/-- The trees of an array's items with nothing left out. -/
def fullItems : List Draft → List Tree
  | [] => []
  | item :: items => full item :: fullItems items

/-- The members of an object with nothing left out. -/
def fullMembers : List (Entry Draft) → List (Option String × Tree)
  | [] => []
  | ⟨name, _, content⟩ :: entries => (some name, full content) :: fullMembers entries

end

/-- The items of a full array are the full items. -/
theorem fullItems_eq (items : List Draft) : fullItems items = items.map full := by
  induction items with
  | nil => rfl
  | cons item items inductionHypothesis => rw [fullItems, inductionHypothesis, List.map_cons]

/-- The members of a full object are the full entries. -/
theorem fullMembers_eq (entries : List (Entry Draft)) :
    fullMembers entries = entries.map fun entry => (some entry.name, entry.content.full) := by
  induction entries with
  | nil => rfl
  | cons entry entries inductionHypothesis =>
    rw [fullMembers, inductionHypothesis, List.map_cons]

end Draft

/-- What remains of the entries of an object, where each content shows as a tree, and entries
that hold their default may be missing. -/
inductive Remains (shows : Draft → Tree → Prop) :
    List (Entry Draft) → List (Option String × Tree) → Prop where
  | nil : Remains shows [] []
  | kept {entry : Entry Draft} {content : Tree} {entries : List (Entry Draft)}
      {members : List (Option String × Tree)} (shown : shows entry.content content)
      (others : Remains shows entries members) :
      Remains shows (entry :: entries) ((some entry.name, content) :: members)
  | dropped {entry : Entry Draft} {entries : List (Entry Draft)}
      {members : List (Option String × Tree)}
      (standard : entry.default? = some entry.content.full)
      (others : Remains shows entries members) : Remains shows (entry :: entries) members

/-- A draft shows every tree that it becomes without some of the members that hold their
default. -/
inductive Draft.Shows : Draft → Tree → Prop where
  | whole (tree : Tree) : Shows (.whole tree) tree
  | array {drafts : List Draft} {items : List Tree} (each : List.Forall₂ Shows drafts items) :
      Shows (.array drafts) (.array items)
  | object {entries : List (Entry Draft)} {members : List (Option String × Tree)}
      (remains : Remains Shows entries members) : Shows (.object entries) (.object members)

namespace Draft

/-- A draft shows itself in full. -/
theorem shows_full (draft : Draft) : draft.Shows draft.full := by
  induction draft using partwise with
  | whole tree => exact .whole tree
  | array items inductionHypothesis =>
    rw [full, fullItems_eq]
    exact .array (List.forall₂_map_right_iff.mpr (List.forall₂_same.mpr inductionHypothesis))
  | object entries inductionHypothesis =>
    rw [full]
    refine .object ?_
    induction entries with
    | nil => exact .nil
    | cons entry entries later =>
      rw [List.forall_mem_cons] at inductionHypothesis
      exact .kept inductionHypothesis.1 (later inductionHypothesis.2)

end Draft

/-- Every member that remains is what one of the entries shows. -/
theorem Remains.exists_entry {shows : Draft → Tree → Prop} {entries : List (Entry Draft)}
    {members : List (Option String × Tree)} (remains : Remains shows entries members)
    {member : Option String × Tree} (listed : member ∈ members) :
    ∃ entry ∈ entries, member.1 = some entry.name ∧ shows entry.content member.2 := by
  induction remains with
  | nil => cases listed
  | kept shown _ inductionHypothesis =>
    rcases List.mem_cons.mp listed with rfl | later
    · exact ⟨_, List.mem_cons_self, rfl, shown⟩
    · obtain ⟨entry, among, shows⟩ := inductionHypothesis later
      exact ⟨entry, List.mem_cons_of_mem _ among, shows⟩
  | dropped _ _ inductionHypothesis =>
    obtain ⟨entry, among, shows⟩ := inductionHypothesis listed
    exact ⟨entry, List.mem_cons_of_mem _ among, shows⟩

namespace Tree

/-- The items of a plain array are plain. -/
theorem Plain.items {items : List Tree} (plain : (Tree.array items).Plain) :
    ∀ item ∈ items, item.Plain := by
  cases plain with
  | array inside => exact inside

/-- The contents of a plain object are plain. -/
theorem Plain.contents {members : List (Option String × Tree)}
    (plain : (Tree.object members).Plain) : ∀ member ∈ members, member.2.Plain := by
  cases plain with
  | object _ inside => exact inside

end Tree

namespace Draft

/-- What a plain draft shows is plain. -/
theorem Shows.plain {draft : Draft} {tree : Tree} (shown : draft.Shows tree)
    (plain : draft.full.Plain) : tree.Plain := by
  induction draft using partwise generalizing tree with
  | whole source =>
    cases shown
    exact plain
  | array drafts inductionHypothesis =>
    cases shown with
    | array each =>
      rw [full, fullItems_eq] at plain
      refine .array fun item listed => ?_
      obtain ⟨draft, among, shows⟩ := exists_of_mem_right each listed
      exact inductionHypothesis draft among shows (plain.items _ (List.mem_map_of_mem among))
  | object entries inductionHypothesis =>
    cases shown with
    | object remains =>
      rw [full, fullMembers_eq] at plain
      refine .object (fun member listed => ?_) fun member listed => ?_
      · obtain ⟨entry, -, named, -⟩ := remains.exists_entry listed
        rw [named, Option.isSome_some]
      · obtain ⟨entry, among, -, shows⟩ := remains.exists_entry listed
        exact inductionHypothesis entry among shows (plain.contents _ (List.mem_map_of_mem among))

/-- What a draft shows nests no deeper than the draft in full. -/
theorem Shows.height_le {draft : Draft} {tree : Tree} (shown : draft.Shows tree) :
    tree.height ≤ draft.full.height := by
  induction draft using partwise generalizing tree with
  | whole source =>
    cases shown
    exact Nat.le_refl _
  | array drafts inductionHypothesis =>
    cases shown with
    | array each =>
      rw [full, fullItems_eq, Tree.height, Tree.height]
      refine Nat.succ_le_succ (Tree.itemsHeight_le_iff.mpr fun item listed => ?_)
      obtain ⟨draft, among, shows⟩ := exists_of_mem_right each listed
      exact (inductionHypothesis draft among shows).trans
        (Tree.itemsHeight_le_iff.mp (Nat.le_refl _) _ (List.mem_map_of_mem among))
  | object entries inductionHypothesis =>
    cases shown with
    | object remains =>
      rw [full, fullMembers_eq, Tree.height, Tree.height]
      refine Nat.succ_le_succ (Tree.membersHeight_le_iff.mpr fun member listed => ?_)
      obtain ⟨entry, among, -, shows⟩ := remains.exists_entry listed
      have inside : (some entry.name, entry.content.full) ∈
          entries.map fun entry => (some entry.name, entry.content.full) := List.mem_map_of_mem among
      exact (inductionHypothesis entry among shows).trans
        (Tree.membersHeight_le_iff.mp (Nat.le_refl _) _ inside)

/-- What a plain draft shows can be set aside wherever the draft in full does not nest too deep. -/
theorem Shows.isSound {draft : Draft} {tree : Tree} (shown : draft.Shows tree)
    (plain : draft.full.Plain) {depth : Nat} (shallow : draft.full.height ≤ depth) :
    tree.isSound depth = true :=
  (shown.plain plain).isSound (shown.height_le.trans shallow)

end Draft

end FixtureLiterals.Document
