import FixtureLiterals.Document.Declarations
import FixtureLiterals.Proofs.Document.HandleDrafts
import FixtureLiterals.Proofs.Schema.Memberwise

/-!
# Declarations are recovered from their documents

In the document of a declaration the tag stands in front. It tells which members the rest has,
and all of them but the names, kinds and types may be left out where they hold what they stand
for when they are missing: rights that ask for the same, a member's ordinal zero, a record
without members, and whatever is neither nullable, nor a resource, nor flexible.

A declaration is set aside before it is read. Its document can be set aside wherever it does
not nest too deep, since it holds nothing but integers, texts and words.
-/

namespace FixtureLiterals.Declaration

open Document Document.Draft

/-- The entry that tells whether a value may be absent. -/
def nullableEntry (nullable : Bool) : Entry Draft :=
  ⟨"nullable", some (Documented.toTree false), .leaf nullable⟩

/-- The entries of a named scalar. -/
def scalarEntries (scalar : NamedScalar) : List (Entry Draft) := [
  ⟨"name", none, .leaf scalar.name⟩,
  ⟨"subtype", none, .leaf scalar.subtype⟩]

/-- The entries of a record, with the draft of the map that declares its members. -/
def recordEntries (header : RecordHeader) (members : Draft) : List (Entry Draft) := [
  ⟨"name", none, .leaf header.name⟩,
  ⟨"kind", none, .leaf header.kind⟩,
  ⟨"fields", some (.object []), members⟩,
  nullableEntry header.nullable,
  ⟨"resourceness", some (Documented.toTree Resourceness.value), .leaf header.resourceness⟩,
  ⟨"strictness", some (Documented.toTree Strictness.strict), .leaf header.strictness⟩]

/-- The draft of a declaration with its tag in front. -/
def taggedDraft (tag : DeclarationTag) (entries : List (Entry Draft)) : Draft :=
  .object (⟨"type", none, .leaf tag⟩ :: entries)

mutual

/-- The draft of a declaration. -/
def draft : Declaration → Draft
  | .primitive subtype =>
    taggedDraft .primitive [⟨"subtype", none, .leaf subtype⟩]
  | .bits scalar => taggedDraft .bits (scalarEntries scalar)
  | .enumeration scalar => taggedDraft .enumeration (scalarEntries scalar)
  | .handle subtype rights nullable => taggedDraft .handle [
      ⟨"subtype", none, .leaf subtype⟩,
      ⟨"rights", some (Documented.toTree Rights.same), .leaf rights⟩,
      nullableEntry nullable]
  | .string nullable => taggedDraft .string [nullableEntry nullable]
  | .array element size => taggedDraft .array [
      ⟨"elem", none, draft element⟩, ⟨"size", none, .leaf size⟩]
  | .vector element nullable =>
    taggedDraft .vector [⟨"elem", none, draft element⟩, nullableEntry nullable]
  | .record header members =>
    taggedDraft .record (recordEntries header (.object (memberEntries members)))

/-- The entries of the map that declares a record's members. -/
def memberEntries : List (Member Declaration) → List (Entry Draft)
  | [] => []
  | ⟨name, ordinal, type⟩ :: members =>
    ⟨name, none, .object [
      ⟨"ordinal", some (Documented.toTree (0 : UInt64)), .leaf ordinal⟩,
      ⟨"type", none, draft type⟩]⟩ :: memberEntries members

end

/-- What is known of a part after its tag and its members were found. -/
structure Opened (tag : DeclarationTag) (reading : Reading) (tree : Tree) (members : Members) :
    Prop where
  tagged : tagPart? tree = some (Documented.toTree tag)
  told : DeclarationTag.ofTree? reading (Documented.toTree tag) = some tag
  found : members? tag.memberNames tree = some members

/-- What is shown of a declaration has its tag, and members that answer to its entries. -/
theorem opened_of_shows {tag : DeclarationTag} {entries : List (Entry Draft)} {tree : Tree}
    {depth : Nat} (shows : (taggedDraft tag entries).Shows tree)
    (sound : tree.isSound depth = true) (named : "type" :: entries.map Entry.name = tag.memberNames) :
    ∃ below members, depth = below + 1 ∧ (∀ reading, Opened tag reading tree members) ∧
      entries.Forall fun entry => entry.Answered below members := by
  have distinct : tag.memberNames.Nodup := by cases tag <;> decide
  have part : tagPart? tree = some (Documented.toTree tag) := by
    cases shows with
    | object remains =>
      cases remains with
      | dropped standard => cases standard
      | kept shown =>
        cases shown
        rfl
  have read (reading : Reading) : DeclarationTag.ofTree? reading (Documented.toTree tag) = some tag := by
    cases reading <;> exact Text.Vocabulary.ofWord?_word tag
  obtain ⟨below, members, rfl, found, answered⟩ := shows.members? sound named distinct
  exact ⟨below, members, rfl, fun reading => ⟨part, read reading, found⟩,
    List.forall_iff_forall_mem.mpr fun entry listed =>
      List.forall_iff_forall_mem.mp answered entry (List.mem_cons_of_mem _ listed)⟩

/-- A declaration is recovered if it is made right of members that answer to its entries. -/
theorem drafts_tagged {tag : DeclarationTag} {entries : List (Entry Draft)}
    {declaration : Declaration} (named : "type" :: entries.map Entry.name = tag.memberNames)
    (full : (taggedDraft tag entries).full = Documented.toTree declaration)
    (plain : entries.Forall fun entry => entry.content.full.Plain)
    (builds : ∀ depth reading tree members, Opened tag reading tree members →
      (entries.Forall fun entry => entry.Answered depth members) →
      ofSound? (depth + 1) reading tree = some declaration) :
    (taggedDraft tag entries).Drafts declaration := by
  have each : ∀ entry ∈ entries, entry.content.full.Plain := List.forall_iff_forall_mem.mp plain
  refine ⟨full, full ▸ plain_object (List.forall_mem_cons.mpr ⟨(drafts_word tag).plain, each⟩), ?_⟩
  intro depth reading tree shows sound
  obtain ⟨below, members, rfl, opened, answered⟩ := opened_of_shows shows sound named
  change ofTree? (below + 1) reading tree = some declaration
  rw [ofTree?, sound, Bool.not_true, Bool.and_false, if_neg Bool.false_ne_true]
  exact builds below reading tree members (opened reading) answered

section Leaves

variable {depth : Nat} {members : Members}

/-- Whether a value may be absent is read, or is not said of a value that is always present. -/
theorem nullable_of_answered {nullable : Bool}
    (answered : (nullableEntry nullable).Answered depth members) :
    members.withDefault "nullable" false (Documented.ofTree? depth .deferred) = some nullable := by
  have flag := drafts_bool nullable
  exact answered.withDefault (flag.yields depth .deferred) (flag.eq_of_full_eq (drafts_bool false))

/-- A named scalar is read. -/
theorem scalar_of_answered {scalar : NamedScalar}
    (answered : (scalarEntries scalar).Forall fun entry => entry.Answered depth members) :
    scalarOfMembers? depth members = some scalar := by
  rw [scalarOfMembers?, answered.1.required ((drafts_string scalar.name).yields depth .deferred),
    answered.2.required ((drafts_word scalar.subtype).yields depth .deferred)]
  rfl

/-- What a record says of itself is read. -/
theorem header_of_answered {header : RecordHeader} {declared : Draft}
    (answered : (recordEntries header declared).Forall fun entry => entry.Answered depth members) :
    headerOfMembers? depth members = some header := by
  obtain ⟨name, kind, -, nullable, resourceness, strictness⟩ := answered
  have resource := drafts_word header.resourceness
  have strict := drafts_word header.strictness
  rw [headerOfMembers?, name.required ((drafts_string header.name).yields depth .deferred),
    kind.required ((drafts_word header.kind).yields depth .deferred),
    nullable_of_answered nullable,
    resourceness.withDefault (resource.yields depth .deferred)
      (resource.eq_of_full_eq (drafts_word Resourceness.value)),
    strictness.withDefault (strict.yields depth .deferred)
      (strict.eq_of_full_eq (drafts_word Strictness.strict))]
  rfl

end Leaves

/-- What is set aside is read at once. -/
theorem yields_of_drafts {declaration : Declaration}
    (drafts : declaration.draft.Drafts declaration) (depth : Nat) :
    declaration.draft.Yields depth (ofSound? depth .deferred) declaration :=
  drafts.yields depth .deferred

/-- A primitive type is recovered. -/
theorem drafts_primitive (subtype : Primitive) :
    (draft (.primitive subtype)).Drafts (Declaration.primitive subtype) := by
  have word := drafts_word subtype
  rw [draft]
  refine drafts_tagged rfl rfl word.plain fun depth reading tree members opened answered => ?_
  have read := answered.required (word.yields depth .deferred)
  simp only [ofSound?, opened.tagged, opened.told, opened.found, read, Option.bind_eq_bind,
    Option.bind_some, Option.pure_def]

/-- A set of flags is recovered. -/
theorem drafts_bits (scalar : NamedScalar) :
    (draft (.bits scalar)).Drafts (Declaration.bits scalar) := by
  rw [draft]
  refine drafts_tagged rfl rfl ⟨(drafts_string scalar.name).plain, (drafts_word scalar.subtype).plain⟩
    fun depth reading tree members opened answered => ?_
  simp only [ofSound?, opened.tagged, opened.told, opened.found, scalar_of_answered answered,
    Option.bind_eq_bind, Option.bind_some, Option.pure_def]

/-- An enumeration is recovered. -/
theorem drafts_enumeration (scalar : NamedScalar) :
    (draft (.enumeration scalar)).Drafts (Declaration.enumeration scalar) := by
  rw [draft]
  refine drafts_tagged rfl rfl ⟨(drafts_string scalar.name).plain, (drafts_word scalar.subtype).plain⟩
    fun depth reading tree members opened answered => ?_
  simp only [ofSound?, opened.tagged, opened.told, opened.found, scalar_of_answered answered,
    Option.bind_eq_bind, Option.bind_some, Option.pure_def]

/-- A handle is recovered. -/
theorem drafts_handle (subtype : HandleSubtype) (rights : Rights) (nullable : Bool) :
    (draft (.handle subtype rights nullable)).Drafts (Declaration.handle subtype rights nullable) := by
  have word := drafts_word subtype
  have bits := rights.drafts
  rw [draft]
  refine drafts_tagged rfl rfl ⟨word.plain, bits.plain, (drafts_bool nullable).plain⟩
    fun depth reading tree members opened answered => ?_
  obtain ⟨subtypeAnswered, rightsAnswered, nullableAnswered⟩ := answered
  have granted := rightsAnswered.withDefault (bits.yields depth .deferred)
    (bits.eq_of_full_eq Rights.same.drafts)
  simp only [ofSound?, opened.tagged, opened.told, opened.found,
    subtypeAnswered.required (word.yields depth .deferred), granted,
    nullable_of_answered nullableAnswered, Option.bind_eq_bind, Option.bind_some, Option.pure_def]

/-- A string is recovered. -/
theorem drafts_text (nullable : Bool) :
    (draft (.string nullable)).Drafts (Declaration.string nullable) := by
  rw [draft]
  refine drafts_tagged rfl rfl (drafts_bool nullable).plain
    fun depth reading tree members opened answered => ?_
  simp only [ofSound?, opened.tagged, opened.told, opened.found, nullable_of_answered answered,
    Option.bind_eq_bind, Option.bind_some, Option.pure_def]

/-- An array is recovered if its element is. -/
theorem drafts_arrayOf {element : Declaration} (drafts : element.draft.Drafts element)
    (size : UInt64) : (draft (.array element size)).Drafts (Declaration.array element size) := by
  have number := drafts_uint64 size
  have full : (draft (.array element size)).full = Documented.toTree (Declaration.array element size) := by
    simp only [draft, taggedDraft, Draft.full, fullMembers, drafts.full]
    rfl
  rw [draft] at full ⊢
  refine drafts_tagged rfl full ⟨drafts.plain_full, number.plain⟩
    fun depth reading tree members opened answered => ?_
  obtain ⟨elementAnswered, sizeAnswered⟩ := answered
  simp only [ofSound?, opened.tagged, opened.told, opened.found,
    elementAnswered.required (yields_of_drafts drafts depth),
    sizeAnswered.required (number.yields depth .deferred), Option.bind_eq_bind, Option.bind_some,
    Option.pure_def]

/-- A vector is recovered if its element is. -/
theorem drafts_vector {element : Declaration} (drafts : element.draft.Drafts element)
    (nullable : Bool) : (draft (.vector element nullable)).Drafts (Declaration.vector element nullable) := by
  have full : (draft (.vector element nullable)).full =
      Documented.toTree (Declaration.vector element nullable) := by
    simp only [draft, taggedDraft, nullableEntry, Draft.full, fullMembers, drafts.full]
    rfl
  rw [draft] at full ⊢
  refine drafts_tagged rfl full ⟨drafts.plain_full, (drafts_bool nullable).plain⟩
    fun depth reading tree members opened answered => ?_
  obtain ⟨elementAnswered, nullableAnswered⟩ := answered
  simp only [ofSound?, opened.tagged, opened.told, opened.found,
    elementAnswered.required (yields_of_drafts drafts depth), nullable_of_answered nullableAnswered,
    Option.bind_eq_bind, Option.bind_some, Option.pure_def]

section Members

/-- What a map knows of a record's member under the member's name. -/
def namedContent (member : Member Declaration) : String × UInt64 × Declaration :=
  (member.name, member.ordinal, member.content)

/-- The member of a name with what a map knows of it. -/
def ofNamedContent (named : String × UInt64 × Declaration) : Member Declaration :=
  ⟨named.1, named.2.1, named.2.2⟩

/-- The document of a member's ordinal and type. -/
def contentToTree (content : UInt64 × Declaration) : Tree :=
  ofMembers [("ordinal", Documented.toTree content.1), ("type", toTree content.2)]

/-- The draft of a member's ordinal and type. -/
def contentDraft (ordinal : UInt64) (type : Declaration) : Draft := .object [
  ⟨"ordinal", some (Documented.toTree (0 : UInt64)), .leaf ordinal⟩, ⟨"type", none, draft type⟩]

/-- The ordinal and the type of a member are recovered if the type is. -/
theorem recovers_content {type : Declaration} (drafts : type.draft.Drafts type) (ordinal : UInt64) :
    (contentDraft ordinal type).Recovers (contentToTree (ordinal, type))
      (fun depth _ => memberOfSound? depth) (ordinal, type) := by
  have number := drafts_uint64 ordinal
  have full : (contentDraft ordinal type).full = contentToTree (ordinal, type) := by
    simp only [contentDraft, Draft.full, fullMembers, drafts.full]
    rfl
  refine recovers_object ["ordinal", "type"] rfl (by decide) full
    ⟨number.plain, drafts.plain_full⟩ _ (fun _ _ _ => by rw [memberOfSound?]; rfl)
    fun depth reading members answered => ?_
  rw [answered.1.withDefault (number.yields depth .deferred)
      (number.eq_of_full_eq (drafts_uint64 0)),
    answered.2.required (yields_of_drafts drafts depth)]
  rfl

/-- The members of a record are read as a map. -/
theorem membersOfSound?_eq (depth : Nat) (tree : Tree) :
    membersOfSound? depth tree = (entries? memberOfSound? depth tree).map (·.map ofNamedContent) := by
  cases depth with
  | zero => cases tree <;> rfl
  | succ depth =>
    cases tree
    case object members =>
      rw [membersOfSound?, entries?]
      generalize (members.mapM _ : Option (List (String × UInt64 × Declaration))) = found
      cases found <;> rfl
    all_goals rfl

/-- The entries of the map that declares a record's members are those of the members. -/
theorem memberEntries_eq (members : List (Member Declaration)) : memberEntries members =
    members.map fun member => ⟨member.name, none, contentDraft member.ordinal member.content⟩ := by
  induction members with
  | nil => rfl
  | cons member members inductionHypothesis =>
    rw [memberEntries, inductionHypothesis, List.map_cons, contentDraft]

/-- The map that declares a record's members is the map of what it knows of them. -/
theorem object_membersToTree (members : List (Member Declaration)) :
    Tree.object (membersToTree members) = ofEntries contentToTree (members.map namedContent) := by
  have written : membersToTree members =
      members.map fun member => (some member.name, contentToTree (namedContent member).2) := by
    induction members with
    | nil => rfl
    | cons member members inductionHypothesis =>
      rw [membersToTree, inductionHypothesis, List.map_cons]
      rfl
  rw [written, ofEntries, List.map_map]
  rfl

/-- The members of a record are recovered if they have distinct names and their types are. -/
theorem recovers_members {members : List (Member Declaration)}
    (distinct : (members.map Member.name).Nodup)
    (each : ∀ member ∈ members, member.content.draft.Drafts member.content) :
    (object (memberEntries members)).Recovers (.object (membersToTree members))
      (fun depth _ => membersOfSound? depth) members := by
  have names : (members.map namedContent).map Prod.fst = members.map Member.name := by
    rw [List.map_map]
    rfl
  have entries : List.Forall₂ (Entry.Maps contentToTree fun depth _ => memberOfSound? depth)
      (memberEntries members) (members.map namedContent) := by
    rw [memberEntries_eq]
    refine List.forall₂_map_left_iff.mpr (List.forall₂_map_right_iff.mpr
      (List.forall₂_same.mpr fun member listed => ?_))
    exact ⟨rfl, rfl, recovers_content (each member listed) member.ordinal⟩
  have recovers := (recovers_map (names ▸ distinct) entries).map (·.map ofNamedContent)
  have read : (fun depth (_ : Reading) => membersOfSound? depth) =
      fun depth _ tree => (entries? memberOfSound? depth tree).map (·.map ofNamedContent) := by
    funext depth _ tree
    exact membersOfSound?_eq depth tree
  have same : (members.map namedContent).map ofNamedContent = members := by
    rw [List.map_map]
    exact List.map_id members
  rw [object_membersToTree, read]
  rw [same] at recovers
  exact recovers

/-- A record is recovered if its members have distinct names and their types are recovered. -/
theorem drafts_record (header : RecordHeader) {members : List (Member Declaration)}
    (distinct : (members.map Member.name).Nodup)
    (each : ∀ member ∈ members, member.content.draft.Drafts member.content) :
    (draft (.record header members)).Drafts (Declaration.record header members) := by
  have declared := recovers_members distinct each
  have full : (draft (.record header members)).full =
      Documented.toTree (Declaration.record header members) := by
    have inside := declared.full
    rw [Draft.full] at inside
    simp only [draft, taggedDraft, recordEntries, nullableEntry, Draft.full, fullMembers, inside]
    rfl
  rw [draft] at full ⊢
  refine drafts_tagged rfl full
    ⟨(drafts_string _).plain, (drafts_word _).plain, declared.plain_full, (drafts_bool _).plain,
      (drafts_word _).plain, (drafts_word _).plain⟩
    fun depth reading tree found opened answered => ?_
  have header := header_of_answered answered
  obtain ⟨-, -, fields, -⟩ := answered
  have nothing := @recovers_members [] List.nodup_nil (List.forall_mem_nil _)
  have read := fields.withDefault (declared.yields depth .deferred) (declared.eq_of_full_eq nothing)
  simp only [ofSound?, opened.tagged, opened.told, opened.found, header, read, Option.bind_eq_bind,
    Option.bind_some, Option.pure_def]

end Members

/-- A declaration whose members are told apart is recovered. -/
theorem drafts_of_distinct (declaration : Declaration) (distinct : declaration.Distinct) :
    declaration.draft.Drafts declaration := by
  induction declaration using memberwise with
  | primitive subtype => exact drafts_primitive subtype
  | bits scalar => exact drafts_bits scalar
  | enumeration scalar => exact drafts_enumeration scalar
  | handle subtype rights nullable => exact drafts_handle subtype rights nullable
  | string nullable => exact drafts_text nullable
  | array element size inductionHypothesis =>
    exact drafts_arrayOf (inductionHypothesis distinct.element_of_array) size
  | vector element nullable inductionHypothesis =>
    exact drafts_vector (inductionHypothesis distinct.element_of_vector) nullable
  | record header members inductionHypothesis =>
    exact drafts_record header distinct.self fun member listed =>
      inductionHypothesis member listed (distinct.member member listed)

end FixtureLiterals.Declaration
