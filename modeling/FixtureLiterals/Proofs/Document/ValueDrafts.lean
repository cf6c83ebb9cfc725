import FixtureLiterals.Document.Values
import FixtureLiterals.Proofs.Document.HandleDrafts

/-!
# Values are recovered from their documents

In the document of a value the kind stands in front of the content, so nothing has to be set
aside. Members may be left out of handle references, which need no rights, and of unknown
data, which need no handles. A float is the only part whose document is not an integer, a text
or a word. Values without floats are recovered whatever is left out of them.
-/

namespace FixtureLiterals

open Document Document.Draft

/-- The draft of a bit pattern. -/
def RawFloat.draft (float : RawFloat) : Draft := .object [
  ⟨"width", none, .leaf float.width⟩,
  ⟨"bits", none, .leaf float.bits⟩]

/-- A bit pattern is recovered. -/
theorem RawFloat.drafts (float : RawFloat) : float.draft.Drafts float := by
  have width := drafts_word float.width
  have bits := drafts_uint64 float.bits
  refine recovers_object ["width", "bits"] rfl (by decide) rfl ⟨width.plain, bits.plain⟩ _
    (fun _ _ _ => rfl) fun depth reading members answered => ?_
  rw [answered.1.required (width.yields depth reading),
    answered.2.required (bits.yields depth reading)]
  rfl

/-- The draft of a handle reference, whose rights may be left out where there are none. -/
def HandleReference.draft (reference : HandleReference) : Draft := .object [
  ⟨"index", none, .leaf reference.index⟩,
  ⟨"rights", some (Documented.toTree (none : Option Rights)), .leaf reference.rights⟩]

/-- Rights that may be absent are recovered. -/
theorem drafts_rights? (rights : Option Rights) :
    (leaf rights).Drafts rights := by
  cases rights with
  | none => exact drafts_none
  | some rights => exact drafts_some rights.drafts nofun

/-- A handle reference is recovered. -/
theorem HandleReference.drafts (reference : HandleReference) :
    reference.draft.Drafts reference := by
  have index := drafts_uint64 reference.index
  have rights := drafts_rights? reference.rights
  refine recovers_object ["index", "rights"] rfl (by decide) rfl ⟨index.plain, rights.plain⟩ _
    (fun _ _ _ => rfl) fun depth reading members answered => ?_
  rw [answered.1.required (index.yields depth reading),
    answered.2.withDefault (rights.yields depth reading) (rights.eq_of_full_eq (drafts_rights? none))]
  rfl

/-- The draft of unknown data, whose handles may be left out where there are none. -/
def UnknownData.draft (data : UnknownData) : Draft := .object [
  ⟨"bytes", none, ofItems leaf data.bytes⟩,
  ⟨"handles", some (Documented.toTree ([] : List UInt64)), ofItems leaf data.handles⟩]

/-- Unknown data are recovered. -/
theorem UnknownData.drafts (data : UnknownData) : data.draft.Drafts data := by
  have bytes := drafts_items fun byte (_ : byte ∈ data.bytes) => drafts_uint8 byte
  have handles := drafts_items fun index (_ : index ∈ data.handles) => drafts_uint64 index
  have full : data.draft.full = Documented.toTree data := by
    simp only [draft, Draft.full, fullMembers, bytes.full, handles.full]
    rfl
  refine recovers_object ["bytes", "handles"] rfl (by decide) full
    ⟨bytes.plain_full, handles.plain_full⟩ _ (fun _ _ _ => rfl)
    fun depth reading members answered => ?_
  rw [answered.1.required (bytes.yields depth reading),
    answered.2.withDefault (handles.yields depth reading) (handles.eq_of_full_eq drafts_empty)]
  rfl

/-- The draft of a key. -/
def FieldKey.draft : FieldKey → Draft
  | .declared name => .object [⟨"name", none, .leaf name⟩]
  | .unknown ordinal => .object [⟨"unknown_ordinal", none, .leaf ordinal⟩]

/-- A key is recovered. -/
theorem FieldKey.drafts (key : FieldKey) : key.draft.Drafts key := by
  cases key with
  | declared name =>
    exact recovers_single (drafts_string name) rfl fun _ _ _ read =>
      congrArg (Option.map FieldKey.declared) read
  | unknown ordinal =>
    exact recovers_single (drafts_uint64 ordinal) rfl fun _ _ _ read =>
      congrArg (Option.map FieldKey.unknown) read

namespace Value

/-- The draft of a value with its kind in front. -/
def taggedDraft (kind : ValueKind) (content : Draft) : Draft := .object [
  ⟨"kind", none, .leaf kind⟩, ⟨"value", none, content⟩]

mutual

/-- The draft of a value. -/
def draft : Value → Draft
  | .bool value => taggedDraft .bool (.leaf value)
  | .integer (.signed number) => taggedDraft .int (.leaf number)
  | .integer (.unsigned number) => taggedDraft .uint (.leaf number)
  | .float value => taggedDraft .float64 (.leaf value)
  | .rawFloat value => taggedDraft .rawFloat value.draft
  | .string value => taggedDraft .string (.leaf value)
  | .handle reference => taggedDraft .handle reference.draft
  | .record fields => taggedDraft .record (.object [⟨"fields", none, .array (fieldDrafts fields)⟩])
  | .list items => taggedDraft .list (.array (itemDrafts items))
  | .unknownData data => taggedDraft .unknownData data.draft
  | .null => .object [⟨"kind", none, .leaf ValueKind.null⟩]

/-- The drafts of a list's items. -/
def itemDrafts : List Value → List Draft
  | [] => []
  | item :: items => draft item :: itemDrafts items

/-- The drafts of a record's fields. -/
def fieldDrafts : List (Field Value) → List Draft
  | [] => []
  | ⟨key, value⟩ :: fields =>
    .object [⟨"key", none, key.draft⟩, ⟨"value", none, draft value⟩] :: fieldDrafts fields

end

/-- Values without floats anywhere in them, except those given by their bit patterns. -/
inductive Floatless : Value → Prop where
  | bool (value : Bool) : Floatless (.bool value)
  | integer (value : Integer) : Floatless (.integer value)
  | rawFloat (value : RawFloat) : Floatless (.rawFloat value)
  | string (value : String) : Floatless (.string value)
  | handle (reference : HandleReference) : Floatless (.handle reference)
  | record {fields : List (Field Value)} (inside : ∀ field ∈ fields, Floatless field.value) :
      Floatless (.record fields)
  | list {items : List Value} (inside : ∀ item ∈ items, Floatless item) : Floatless (.list items)
  | unknownData (data : UnknownData) : Floatless (.unknownData data)
  | null : Floatless .null

/-- What is shown of a value with its kind in front has that kind, and what is shown of the
content is read where it stands. -/
theorem parts?_of_shows {kind : ValueKind} {content : Draft} {tree : Tree} {depth : Nat}
    (shows : (taggedDraft kind content).Shows tree) (sound : tree.isSound depth = true) :
    ∃ below part, depth = below + 1 ∧ content.Shows part ∧ part.isSound below = true ∧
      ∀ reading, parts? below reading tree = some (kind, some part, reading) := by
  have written : ∃ part, content.Shows part ∧ tree = .object
      ([("kind", Documented.toTree kind), ("value", part)].map keyedMember) := by
    cases shows with
    | object remains =>
      cases remains with
      | dropped standard => cases standard
      | kept first others =>
        cases first
        cases others with
        | dropped standard => cases standard
        | kept shown nothing =>
          cases nothing
          exact ⟨_, shown, rfl⟩
  obtain ⟨part, shown, rfl⟩ := written
  have members (part : Tree) := @members?_map ["kind", "value"]
    [("kind", Documented.toTree kind), ("value", part)] (by decide) (List.Sublist.refl _)
  obtain ⟨below, rfl, inside⟩ := Tree.isSound_object_iff.mp sound
  refine ⟨below, part, rfl, shown, (inside (some "value", part) (by simp [keyedMember])).2,
    fun reading => ?_⟩
  have read := (drafts_word kind).yields below reading _ (.whole _)
    (inside (some "kind", Documented.toTree kind) (by simp [keyedMember])).2
  rw [parts?, members]
  simp only [Option.bind_eq_bind, Option.bind_some, Members.required, List.lookup_cons_self, read]
  have behind : contentFirst (.object
      ([("kind", Documented.toTree kind), ("value", part)].map keyedMember)) = false := rfl
  simp only [behind, Bool.and_false]
  rfl

variable {α : Type}

/-- A value with its kind in front is recovered if its content is. -/
theorem drafts_tagged {kind : ValueKind} {content : Draft} {part : Tree}
    {read : Nat → Reading → Tree → Option α} {inner : α} {value : Value}
    (recovers : content.Recovers part read inner) (written : value.toTree = tagged kind part)
    (reads : ∀ depth reading tree shown, parts? depth reading tree = some (kind, some shown, reading) →
      read depth reading shown = some inner → ofTree? (depth + 1) reading tree = some value) :
    (taggedDraft kind content).Drafts value := by
  have full : (taggedDraft kind content).full = Documented.toTree value := by
    simp only [taggedDraft, Draft.full, fullMembers, recovers.full]
    exact written.symm
  refine ⟨full, full ▸ plain_object ?_, ?_⟩
  · exact List.forall_iff_forall_mem.mp ⟨(drafts_word kind).plain, recovers.plain_full⟩
  · intro depth reading tree shows sound
    obtain ⟨below, shown, rfl, shows, inside, parts⟩ := parts?_of_shows shows sound
    exact reads below reading tree shown (parts reading)
      (recovers.yields below reading shown shows inside)

/-- The drafts of a list's items are the drafts of the items. -/
theorem itemDrafts_eq (items : List Value) : itemDrafts items = items.map draft := by
  induction items with
  | nil => rfl
  | cons item items inductionHypothesis => rw [itemDrafts, inductionHypothesis, List.map_cons]

/-- The documents of a list's items are the documents of the items. -/
theorem itemsToTree_eq (items : List Value) : itemsToTree items = items.map Documented.toTree := by
  induction items with
  | nil => rfl
  | cons item items inductionHypothesis =>
    rw [itemsToTree, inductionHypothesis, List.map_cons]
    rfl

/-- The items of a list are read like any other array. -/
theorem itemsOfTree?_eq (depth : Nat) (reading : Reading) (tree : Tree) :
    itemsOfTree? depth reading tree = (Documented.ofTree? depth reading tree : Option (List Value)) := by
  cases depth with
  | zero => cases tree <;> rfl
  | succ depth => cases tree <;> rfl

/-- The draft of a field. -/
def fieldDraft (field : Field Value) : Draft := .object [
  ⟨"key", none, field.key.draft⟩, ⟨"value", none, field.value.draft⟩]

/-- The drafts of a record's fields are the drafts of the fields. -/
theorem fieldDrafts_eq (fields : List (Field Value)) :
    fieldDrafts fields = fields.map fieldDraft := by
  induction fields with
  | nil => rfl
  | cons field fields inductionHypothesis =>
    rw [fieldDrafts, inductionHypothesis, List.map_cons, fieldDraft]

/-- A field is recovered if its value is. -/
theorem drafts_field {field : Field Value} (value : field.value.draft.Drafts field.value) :
    (fieldDraft field).Drafts field := by
  have key := field.key.drafts
  have full : (fieldDraft field).full = Documented.toTree field := by
    simp only [fieldDraft, Draft.full, fullMembers, key.full, value.full]
    rfl
  refine recovers_object ["key", "value"] rfl (by decide) full ⟨key.plain_full, value.plain_full⟩ _
    (fun depth reading part => by rw [Documented.ofTree?]; rfl)
    fun depth reading members answered => ?_
  have content : members.required "value" (ofTree? depth reading) = some field.value :=
    answered.2.required (value.yields depth reading)
  rw [answered.1.required (key.yields depth reading), content]
  rfl

/-- The documents of a record's fields are the documents of the fields. -/
theorem fieldsToTree_eq (fields : List (Field Value)) :
    fieldsToTree fields = fields.map Documented.toTree := by
  induction fields with
  | nil => rfl
  | cons field fields inductionHypothesis =>
    rw [fieldsToTree, inductionHypothesis, List.map_cons]
    rfl

/-- The fields of a record are read like any other array. -/
theorem fieldsOfTree?_eq (depth : Nat) (reading : Reading) (tree : Tree) :
    fieldsOfTree? depth reading tree =
      (Documented.ofTree? depth reading tree : Option (List (Field Value))) := by
  cases depth with
  | zero => cases tree <;> rfl
  | succ depth => cases tree <;> rfl

/-- A list is recovered if its items are. -/
theorem drafts_list {items : List Value} (each : ∀ item ∈ items, item.draft.Drafts item) :
    (draft (.list items)).Drafts (Value.list items) := by
  have inner : (array (itemDrafts items)).Drafts items := by
    rw [itemDrafts_eq]
    exact drafts_items each
  rw [draft]
  refine drafts_tagged inner ?_ fun depth reading tree shown parts read => ?_
  · rw [toTree, itemsToTree_eq]
    rfl
  · simp only [ofTree?, parts, itemsOfTree?_eq, read, Option.bind_eq_bind, Option.bind_some,
      Option.pure_def]

/-- A record is recovered if the values of its fields are. -/
theorem drafts_record {fields : List (Field Value)}
    (each : ∀ field ∈ fields, field.value.draft.Drafts field.value) :
    (draft (.record fields)).Drafts (Value.record fields) := by
  have inner : (array (fieldDrafts fields)).Drafts fields := by
    rw [fieldDrafts_eq]
    exact drafts_items fun field listed => drafts_field (each field listed)
  have full : (object [⟨"fields", none, array (fieldDrafts fields)⟩]).full =
      recordToTree fields := by
    rw [Draft.full, fullMembers, fullMembers, inner.full, recordToTree, fieldsToTree_eq]
    rfl
  have structured : (object [⟨"fields", none, array (fieldDrafts fields)⟩]).Recovers
      (recordToTree fields) recordOfTree? fields := by
    refine recovers_object ["fields"] rfl (by decide) full inner.plain_full
      (fun depth reading members => members.required "fields" (fieldsOfTree? depth reading))
      (fun depth reading part => by rw [recordOfTree?]; rfl)
      fun depth reading members answered => answered.required ?_
    intro part shows sound
    rw [fieldsOfTree?_eq]
    exact inner.yields depth reading part shows sound
  rw [draft]
  refine drafts_tagged structured ?_ fun depth reading tree shown parts read => ?_
  · rw [toTree, recordToTree]
  · simp only [ofTree?, parts, read, Option.bind_eq_bind, Option.bind_some, Option.pure_def]

/-- The absent value is recovered. It has no content. -/
theorem drafts_null : (draft .null).Drafts Value.null := by
  rw [draft]
  refine recovers_single (drafts_word ValueKind.null) rfl fun depth reading shown read => ?_
  have members := @members?_map ["kind", "value"] [("kind", shown)] (by decide) (by simp)
  have parts : parts? depth reading (.object [(some "kind", shown)]) =
      some (.null, none, reading) := by
    rw [parts?, show Tree.object [(some "kind", shown)] = .object ([("kind", shown)].map keyedMember)
      from rfl, members]
    simp only [Option.bind_eq_bind, Option.bind_some, Members.required, List.lookup_cons_self, read]
    rfl
  simp only [Documented.ofTree?, ofTree?, parts, Option.bind_eq_bind, Option.bind_some, Option.pure_def]

/-- A value without floats is recovered. -/
theorem Floatless.drafts {value : Value} (floatless : value.Floatless) :
    value.draft.Drafts value := by
  induction floatless with
  | bool value =>
    refine drafts_tagged (drafts_bool value) rfl fun depth reading tree shown parts read => ?_
    simp only [ofTree?, parts, read, Option.bind_eq_bind, Option.bind_some, Option.pure_def]
  | integer value =>
    cases value with
    | signed number =>
      refine drafts_tagged (drafts_int64 number) rfl fun depth reading tree shown parts read => ?_
      simp only [ofTree?, parts, read, Option.bind_eq_bind, Option.bind_some, Option.pure_def]
    | unsigned number =>
      refine drafts_tagged (drafts_uint64 number) rfl fun depth reading tree shown parts read => ?_
      simp only [ofTree?, parts, read, Option.bind_eq_bind, Option.bind_some, Option.pure_def]
  | rawFloat value =>
    refine drafts_tagged value.drafts rfl fun depth reading tree shown parts read => ?_
    simp only [ofTree?, parts, read, Option.bind_eq_bind, Option.bind_some, Option.pure_def]
  | string value =>
    refine drafts_tagged (drafts_string value) rfl fun depth reading tree shown parts read => ?_
    simp only [ofTree?, parts, read, Option.bind_eq_bind, Option.bind_some, Option.pure_def]
  | handle reference =>
    refine drafts_tagged reference.drafts rfl fun depth reading tree shown parts read => ?_
    simp only [ofTree?, parts, read, Option.bind_eq_bind, Option.bind_some, Option.pure_def]
  | unknownData data =>
    refine drafts_tagged data.drafts rfl fun depth reading tree shown parts read => ?_
    simp only [ofTree?, parts, read, Option.bind_eq_bind, Option.bind_some, Option.pure_def]
  | list _ inductionHypothesis => exact drafts_list inductionHypothesis
  | record _ inductionHypothesis => exact drafts_record inductionHypothesis
  | null => exact drafts_null

end Value

end FixtureLiterals
