import FixtureLiterals.Document.Reading
import FixtureLiterals.Proofs.Document.Drafts

/-!
# Reading what a draft shows

A content is recovered from a draft of its document if it is read from every tree that the
draft shows, wherever the tree does not nest too deep. A structure is recovered if each of its
members is: a member that is there is read from what is shown of it, and one that was left
out stands for its default. Arrays and maps are recovered item by item.
-/

namespace FixtureLiterals.Document

open Text

namespace Draft

/-- At some depth, the same content is read from every tree that a draft shows. -/
def Yields {α : Type} (draft : Draft) (depth : Nat) (read : Tree → Option α) (content : α) : Prop :=
  ∀ tree, draft.Shows tree → tree.isSound depth = true → read tree = some content

/-- A draft of a document from which a reader recovers a content, whatever is left out. -/
structure Recovers {α : Type} (draft : Draft) (tree : Tree)
    (read : Nat → Reading → Tree → Option α) (content : α) : Prop where
  full : draft.full = tree
  plain : tree.Plain
  yields : ∀ depth reading, draft.Yields depth (read depth reading) content

/-- A draft of the document of a content. -/
abbrev Drafts {α : Type} [Documented α] (draft : Draft) (content : α) : Prop :=
  draft.Recovers (Documented.toTree content) Documented.ofTree? content

/-- The draft of a content with nothing to leave out of its document. -/
abbrev leaf {α : Type} [Documented α] (content : α) : Draft := whole (Documented.toTree content)

/-- The draft of an array, from the drafts of its items. -/
def ofItems {α : Type} (draft : α → Draft) (items : List α) : Draft := array (items.map draft)

variable {α β : Type}

/-- Where nothing can be left out, reading the document itself is enough. -/
theorem recovers_whole {tree : Tree} {read : Nat → Reading → Tree → Option α} {content : α}
    (plain : tree.Plain) (reads : ∀ depth reading, read depth reading tree = some content) :
    (whole tree).Recovers tree read content where
  full := by rw [full]
  plain := plain
  yields := by
    intro depth reading shown shows _
    cases shows
    exact reads depth reading

/-- What is made of a recovered content is recovered. -/
theorem Recovers.map {draft : Draft} {tree : Tree} {read : Nat → Reading → Tree → Option α}
    {content : α} (recovers : draft.Recovers tree read content) (make : α → β) :
    draft.Recovers tree (fun depth reading part => (read depth reading part).map make)
      (make content) where
  full := recovers.full
  plain := recovers.plain
  yields := by
    intro depth reading shown shows sound
    simp only [recovers.yields depth reading shown shows sound, Option.map_some]

/-- A draft of what a reader recovers is plain in full. -/
theorem Recovers.plain_full {draft : Draft} {tree : Tree}
    {read : Nat → Reading → Tree → Option α} {content : α}
    (recovers : draft.Recovers tree read content) : draft.full.Plain :=
  recovers.full ▸ recovers.plain

/-- The same document is no draft of two contents, as only one of them can be read from it. -/
theorem Recovers.eq_of_full_eq {draft other : Draft} {tree standard : Tree}
    {read : Nat → Reading → Tree → Option α} {content default : α}
    (recovers : draft.Recovers tree read content) (defaults : other.Recovers standard read default)
    (same : standard = draft.full) : default = content := by
  have sound (draft : Draft) (plain : draft.full.Plain) :
      draft.full.isSound draft.full.height = true :=
    plain.isSound (Nat.le_refl _)
  have first := recovers.yields draft.full.height .immediate draft.full draft.shows_full
    (sound draft recovers.plain_full)
  have second := defaults.yields other.full.height .immediate other.full other.shows_full
    (sound other defaults.plain_full)
  rw [defaults.full, same] at second
  exact Option.some.inj (second.symm.trans first)

section Leaves

/-- The integer of an integer's document. -/
theorem integer?_ofInteger (number : Int) : integer? (ofInteger number) = some number :=
  Numeral.integer?_ofInt number

/-- A natural number below a bound is read from its document. -/
theorem natural?_ofInteger {bound number : Nat} (bounded : number < bound) :
    natural? bound (ofInteger number) = some number := by
  have inside : 0 ≤ (number : Int) ∧ (number : Int) < bound := by omega
  simp only [natural?, integer?_ofInteger, Option.bind_eq_bind, Option.bind_some, if_pos inside,
    Int.toNat_natCast]

/-- The document of a natural number of sixty-four bits is plain. -/
theorem plain_ofInteger {number : Nat} (bounded : number < 2 ^ 64) :
    (ofInteger number).Plain :=
  .number (by simpa using bounded)

/-- A truth value is recovered. -/
theorem drafts_bool (value : Bool) : (leaf value).Drafts value :=
  recovers_whole (.bool value) fun _ _ => rfl

/-- A text is recovered. -/
theorem drafts_string (content : String) : (leaf content).Drafts content :=
  recovers_whole (.text content) fun _ _ => rfl

/-- A number of eight bits is recovered. -/
theorem drafts_uint8 (number : UInt8) : (leaf number).Drafts number := by
  have bounded : number.toNat < UInt8.size := number.toNat_lt_size
  refine recovers_whole (plain_ofInteger (bounded.trans (by decide))) fun _ _ => ?_
  change (natural? UInt8.size (ofInteger number.toNat)).map UInt8.ofNat = some number
  rw [natural?_ofInteger bounded, Option.map_some, UInt8.ofNat_toNat]

/-- A number of thirty-two bits is recovered. -/
theorem drafts_uint32 (number : UInt32) : (leaf number).Drafts number := by
  have bounded : number.toNat < UInt32.size := number.toNat_lt_size
  refine recovers_whole (plain_ofInteger (bounded.trans (by decide))) fun _ _ => ?_
  change (natural? UInt32.size (ofInteger number.toNat)).map UInt32.ofNat = some number
  rw [natural?_ofInteger bounded, Option.map_some, UInt32.ofNat_toNat]

/-- A number of sixty-four bits is recovered. -/
theorem drafts_uint64 (number : UInt64) : (leaf number).Drafts number := by
  have bounded : number.toNat < UInt64.size := number.toNat_lt_size
  refine recovers_whole (plain_ofInteger bounded) fun _ _ => ?_
  change (natural? UInt64.size (ofInteger number.toNat)).map UInt64.ofNat = some number
  rw [natural?_ofInteger bounded, Option.map_some, UInt64.ofNat_toNat]

/-- An integer with a sign is recovered. -/
theorem drafts_int64 (number : Int64) : (leaf number).Drafts number := by
  have least : -0x8000000000000000 ≤ number.toInt := number.le_toInt
  have greatest : number.toInt < 0x8000000000000000 := number.toInt_lt
  refine recovers_whole (.number (by omega)) fun _ _ => ?_
  change ((integer? (ofInteger number.toInt)).bind fun read =>
    if -0x8000000000000000 ≤ read ∧ read < 0x8000000000000000 then some (Int64.ofInt read)
    else none) = some number
  rw [integer?_ofInteger, Option.bind_some, if_pos ⟨least, greatest⟩, Int64.ofInt_toInt]

/-- A member of a vocabulary is recovered. -/
theorem drafts_word [Vocabulary α] (member : α) :
    (leaf member).Drafts member := by
  refine recovers_whole (.text _) fun depth reading => ?_
  have read : word? depth reading (.text (some (Vocabulary.word member))) =
      some (Vocabulary.word member) := by
    cases depth <;> rfl
  change (word? depth reading (.text (some (Vocabulary.word member)))).bind Vocabulary.ofWord? = _
  rw [read, Option.bind_some, Vocabulary.ofWord?_word]

/-- What is not there is recovered. -/
theorem drafts_none [Documented α] : (whole .null).Drafts (none : Option α) :=
  recovers_whole .null fun _ _ => rfl

/-- What is there is recovered, if it does not look like something that is not. -/
theorem drafts_some [Documented α] {tree : Tree} {content : α}
    (drafts : (whole tree).Drafts content) (present : tree ≠ .null) :
    (whole tree).Drafts (some content) where
  full := drafts.full
  plain := drafts.plain
  yields := by
    intro depth reading shown shows sound
    have read := drafts.yields depth reading shown shows sound
    cases shows
    cases tree
    case null => exact absurd rfl present
    all_goals exact congrArg (Option.map some) read

end Leaves

section Arrays

/-- The items of an array are read one by one. -/
theorem mapM_of_yields {drafts : List Draft} {items : List Tree} {contents : List α} {depth : Nat}
    {read : Tree → Option α} (shown : List.Forall₂ Shows drafts items)
    (sound : ∀ item ∈ items, item.isSound depth = true)
    (each : List.Forall₂ (fun draft content => draft.Yields depth read content) drafts contents) :
    items.mapM read = some contents := by
  induction shown generalizing contents with
  | nil =>
    cases each
    rfl
  | cons shows _ inductionHypothesis =>
    cases each with
    | cons yields others =>
      rw [List.forall_mem_cons] at sound
      rw [List.mapM_cons, yields _ shows sound.1, inductionHypothesis sound.2 others]
      rfl

/-- An array is recovered if its items are. -/
theorem drafts_items [Documented α] {draft : α → Draft} {items : List α}
    (each : ∀ item ∈ items, (draft item).Drafts item) : (ofItems draft items).Drafts items where
  full := by
    have trees : (items.map draft).map full = items.map Documented.toTree := by
      rw [List.map_map]
      exact List.map_congr_left fun item listed => (each item listed).full
    rw [ofItems, full, fullItems_eq, trees]
    rfl
  plain := by
    refine .array fun tree listed => ?_
    obtain ⟨item, among, rfl⟩ := List.mem_map.mp listed
    exact (each item among).plain
  yields := by
    intro depth reading shown shows sound
    cases shows with
    | array shows =>
      obtain ⟨below, rfl, inside⟩ := Tree.isSound_array_iff.mp sound
      refine mapM_of_yields shows inside ?_
      exact List.forall₂_map_left_iff.mpr (List.forall₂_same.mpr fun item among =>
        (each item among).yields _ reading)

/-- An empty array is recovered. -/
theorem drafts_empty [Documented α] : (array []).Drafts ([] : List α) :=
  @drafts_items α _ (fun _ => array []) [] nofun

end Arrays

section Documents

variable [Documented α]

/-- A content is read from every document that a draft of it shows, unless the draft in full nests
too deep. -/
theorem Recovers.read? {draft : Draft} {content : α} (drafts : draft.Drafts content)
    (shallow : (Documented.toTree content).height ≤ nestingLimit) {tree : Tree}
    (shows : draft.Shows tree) : Document.read? tree.compact = some content := by
  have sound : tree.isSound nestingLimit = true :=
    shows.isSound drafts.plain_full (drafts.full ▸ shallow)
  rw [Document.read?, Tree.parse?_compact (shows.plain drafts.plain_full)]
  exact drafts.yields nestingLimit .immediate tree shows sound

/-- A content is read back from its whole document, unless the document nests too deep. -/
theorem Recovers.read?_write {draft : Draft} {content : α} (drafts : draft.Drafts content)
    (shallow : (Documented.toTree content).height ≤ nestingLimit) :
    Document.read? (write content) = some content := by
  rw [write, ← drafts.full]
  exact drafts.read? shallow draft.shows_full

end Documents

end Draft

end FixtureLiterals.Document
