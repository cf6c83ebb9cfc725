import FixtureLiterals.Fixture
import FixtureLiterals.Proofs.Fitting.Declarations
import FixtureLiterals.Proofs.Literal.WellFormed
import FixtureLiterals.Proofs.Schema.Evolution

/-!
# Fitted values outlive schema evolution

A value that is fitted to a declaration is fitted to the same literal after the schema has
evolved, as long as no new member takes an ordinal that the value uses as unknown. So the
text written for the value stays the same as well.

Fitting never reads a member that a union value does not select or a table value does not
set, and it reads of a record as a whole only what a change leaves as it is or makes more
permissive. This is shown once for each shape of record, for any extension of its members;
one change anywhere in a declaration is then an induction on where it stands.
-/

namespace FixtureLiterals

namespace Literal

open Declaration

/-- Every value of a kind that one declaration fits is fitted alike by another. -/
def FitsAlike (environment : Environment) (Kept : Value → Prop) (declaration other : Declaration) :
    Prop :=
  ∀ value literal, Kept value → fit environment declaration value = .ok literal →
    fit environment other value = .ok literal

section Records

variable {environment : Environment} {Kept : Value → Prop} {Added : Member Declaration → Prop}
  {header grown : RecordHeader} {members others : List (Member Declaration)}
  {fields : List (Field Value)} {literal : Literal}

/-- The names that were set still set members. -/
theorem setsNames_of_extends {α : Type} {entries : List (String × α)}
    (extension : Member.Extends (FitsAlike environment Kept) Added members others)
    (sets : SetsNames members entries) : SetsNames others entries := by
  refine ⟨fun entry listed => ?_, sets.distinct⟩
  obtain ⟨member, declared, named⟩ := sets.declared entry listed
  obtain ⟨other, kept, same, -⟩ := extension.exists_kept declared
  exact ⟨other, kept, same.trans named⟩

/-- What was carried under an ordinal still is, if no added member has the ordinal. -/
theorem carriesUnknown_of_extends {ordinal : UInt64} {data : UnknownData}
    (grows : header.Grows grown)
    (extension : Member.Extends (FitsAlike environment Kept) Added members others)
    (fresh : ∀ member, Added member → member.ordinal ≠ ordinal)
    (carried : CarriesUnknown environment header members ordinal data) :
    CarriesUnknown environment grown others ordinal data where
  extensible := grows.isExtensible carried.extensible
  undeclared := by
    intro other listed
    rcases extension.kept_or_added listed with ⟨member, declared, same⟩ | added
    · exact same ▸ carried.undeclared member declared
    · exact fresh other added
  resource held := grows.isResource (carried.resource held)
  indices := carried.indices

/-- A struct, to which nothing can have been added, is fitted alike if its members are. -/
theorem fitStruct_of_extends (grows : header.Grows grown)
    (extension : Member.Extends (FitsAlike environment Kept) Added members others)
    (closed : ∀ member, ¬ Added member) (kept : ∀ field ∈ fields, Kept field.value)
    (fits : fitStruct header (members.map (Member.map (fit environment))) fields = .ok literal) :
    fitStruct grown (others.map (Member.map (fit environment))) fields = .ok literal := by
  obtain ⟨known, sets, name, fitted, parsed, each, rfl⟩ := (fitStruct_eq_ok_iff ..).mp fits
  rw [setsNames_map] at sets
  rw [List.forall₂_map_left_iff] at each
  refine (fitStruct_eq_ok_iff ..).mpr ⟨known, ?_, name, fitted, grows.name ▸ parsed, ?_, ?_⟩
  · exact (setsNames_map ..).mpr (setsNames_of_extends extension sets)
  · rw [List.forall₂_map_left_iff]
    refine forall₂_transfer ?_ (extension.forall₂ closed) each
    rintro member other entry ⟨same, agree⟩ ⟨named, value, set, taken⟩
    refine ⟨named.trans same.symm, value, ?_, agree value entry.2 (kept _ set) taken⟩
    exact same.symm ▸ set
  · rw [grows.nullable]

/-- A union is fitted alike if its members are, whatever was added to it under other names and
ordinals. -/
theorem fitUnion_of_extends (grows : header.Grows grown)
    (extension : Member.Extends (FitsAlike environment Kept) Added members others)
    (names : ∀ added, Added added → ∀ member ∈ members, member.name ≠ added.name)
    (ordinals : ∀ added, Added added → ∀ ordinal value, ⟨.unknown ordinal, value⟩ ∈ fields →
      added.ordinal ≠ ordinal)
    (kept : ∀ field ∈ fields, Kept field.value)
    (fits : fitUnion environment header (members.map (Member.map (fit environment))) fields =
      .ok literal) :
    fitUnion environment grown (others.map (Member.map (fit environment))) fields =
      .ok literal := by
  rcases (fitUnion_eq_ok_iff ..).mp fits with
    ⟨name, value, _, content, parsed, rfl, found, taken, read, rfl⟩ |
    ⟨ordinal, data, parsed, rfl, carried, read, rfl⟩
  · rw [Member.named?_map] at found
    obtain ⟨member, declared, rfl⟩ := Option.map_eq_some_iff.mp found
    obtain ⟨listed, rfl⟩ := Member.mem_of_named? declared
    obtain ⟨other, chosen, same, equal, agree⟩ := extension.named?
      (fun added new clash => names added new member listed clash.symm) declared
    refine (fitUnion_eq_ok_iff ..).mpr (.inl ⟨member.name, value, other.map _, content, parsed,
      rfl, ?_, agree value content (kept _ List.mem_cons_self) taken, grows.name ▸ read, ?_⟩)
    · rw [Member.named?_map, chosen]
      rfl
    · simp only [Member.map, same, equal, grows.nullable]
  · refine (fitUnion_eq_ok_iff ..).mpr (.inr ⟨ordinal, data, parsed, rfl, ?_, grows.name ▸ read, ?_⟩)
    · refine (carriesUnknown_map ..).mpr (carriesUnknown_of_extends grows extension ?_
        ((carriesUnknown_map ..).mp carried))
      exact fun added new => ordinals added new ordinal _ List.mem_cons_self
    · rw [grows.nullable]

/-- A table is fitted alike if its members are, whatever was added to it under other names and
ordinals. -/
theorem fitTable_of_extends (grows : header.Grows grown)
    (extension : Member.Extends (FitsAlike environment Kept) Added members others)
    (names : ∀ added, Added added → ∀ member ∈ members, member.name ≠ added.name)
    (ordinals : ∀ added, Added added → ∀ ordinal value, ⟨.unknown ordinal, value⟩ ∈ fields →
      added.ordinal ≠ ordinal)
    (kept : ∀ field ∈ fields, Kept field.value)
    (fits : fitTable environment header (members.map (Member.map (fit environment))) fields =
      .ok literal) :
    fitTable environment grown (others.map (Member.map (fit environment))) fields =
      .ok literal := by
  obtain ⟨sets, name, fitted, unknown, parsed, scanned, each, rfl⟩ :=
    (fitTable_eq_ok_iff ..).mp fits
  rw [setsNames_map] at sets
  obtain ⟨shape, distinct, unseen, carried⟩ := (scan_ordinals_eq_ok_iff ..).mp scanned
  rw [presentMembers_map, List.forall₂_map_left_iff] at each
  -- No name that is set belongs to an added member, as all of them were declared before.
  have unset : ∀ added, Added added → (Field.underNames fields).lookup added.name = none := by
    refine fun added new => List.lookup_eq_none_iff.mpr fun entry listed => bne_iff_ne.mpr ?_
    intro clash
    obtain ⟨member, declared, named⟩ := sets.declared entry listed
    exact names added new member declared (named.trans clash.symm)
  refine (fitTable_eq_ok_iff ..).mpr ⟨?_, name, fitted, unknown, grows.name ▸ parsed, ?_, ?_, ?_⟩
  · exact (setsNames_map ..).mpr (setsNames_of_extends extension sets)
  · refine (scan_ordinals_eq_ok_iff ..).mpr ⟨shape, distinct, unseen, fun entry listed => ?_⟩
    have present : ⟨.unknown entry.1, .unknownData entry.2⟩ ∈ fields := by
      rw [← Field.mem_underOrdinals, shape]
      exact List.mem_map_of_mem listed
    refine (carriesUnknown_map ..).mpr (carriesUnknown_of_extends grows extension ?_
      ((carriesUnknown_map ..).mp (carried entry listed)))
    exact fun added new => ordinals added new entry.1 _ present
  · rw [presentMembers_map, List.forall₂_map_left_iff]
    have held : List.Forall₂ (fun chosen (entry : String × Literal) => Kept chosen.2 ∧
        entry.1 = chosen.1.name ∧ fit environment chosen.1.content chosen.2 = .ok entry.2)
        (presentMembers members (Field.underNames fields)) fitted := by
      refine forall₂_imp_of_mem (fun chosen listed entry _ taken => ⟨?_, taken⟩) each
      exact kept _ ((mem_presentMembers sets chosen).mp listed).2.1
    refine forall₂_transfer ?_ (extension.presentMembers unset) held
    rintro chosen other entry ⟨same, equal, agree⟩ ⟨safe, named, taken⟩
    refine ⟨named.trans same.symm, ?_⟩
    have retaken : fit environment other.1.content chosen.2 = .ok entry.2 :=
      agree chosen.2 entry.2 safe taken
    rwa [← equal] at retaken
  · rw [grows.nullable]

/-- A record is fitted alike if its members are, whatever was added to it under other names and
ordinals; nothing is ever added to a struct. -/
theorem fit_record_of_extends (grows : header.Grows grown)
    (extension : Member.Extends (FitsAlike environment Kept) Added members others)
    (closed : header.kind = .struct → ∀ member, ¬ Added member)
    (names : ∀ added, Added added → ∀ member ∈ members, member.name ≠ added.name)
    {value : Value}
    (ordinals : ∀ added, Added added → added.ordinal ∉ value.unknownOrdinals)
    (kept : ∀ fields, value = .record fields → ∀ field ∈ fields, Kept field.value)
    (fits : fit environment (.record header members) value = .ok literal) :
    fit environment (.record grown others) value = .ok literal := by
  rw [fit_record_eq_ok_iff] at fits ⊢
  rcases fits with ⟨absent, nullable, null⟩ | ⟨fields, rfl, shaped⟩
  · exact .inl ⟨absent, grows.nullable.trans nullable, null⟩
  have unused : ∀ added, Added added → ∀ ordinal value, ⟨.unknown ordinal, value⟩ ∈ fields →
      added.ordinal ≠ ordinal := by
    rintro added new ordinal value listed rfl
    exact ordinals added new (Value.mem_unknownOrdinals_of_key listed)
  refine .inr ⟨fields, rfl, ?_⟩
  rw [grows.kind]
  cases kind : header.kind <;> simp only [kind] at shaped
  case struct => exact fitStruct_of_extends grows extension (closed kind) (kept fields rfl) shaped
  case union => exact fitUnion_of_extends grows extension names unused (kept fields rfl) shaped
  case table => exact fitTable_of_extends grows extension names unused (kept fields rfl) shaped

end Records

/-- The values that use no fresh ordinal as an unknown one. -/
def AvoidsFresh (Fresh : UInt64 → Prop) (value : Value) : Prop :=
  ∀ ordinal ∈ value.unknownOrdinals, ¬ Fresh ordinal

/-- The values in the fields of a record avoid what the record avoids. -/
theorem AvoidsFresh.fields {Fresh : UInt64 → Prop} {value : Value}
    (avoids : AvoidsFresh Fresh value) (fields : List (Field Value))
    (record : value = .record fields) : ∀ field ∈ fields, AvoidsFresh Fresh field.value := by
  subst record
  intro field listed ordinal used
  exact avoids ordinal (Value.unknownOrdinals_of_field listed used)

/-- The items of a list avoid what the list avoids. -/
theorem AvoidsFresh.items {Fresh : UInt64 → Prop} {items : List Value}
    (avoids : AvoidsFresh Fresh (.list items)) : ∀ item ∈ items, AvoidsFresh Fresh item := by
  intro item listed ordinal used
  exact avoids ordinal (Value.unknownOrdinals_of_item listed used)

/-- Items are fitted alike if each of them is. -/
theorem forall₂_fitsAlike {environment : Environment} {Kept : Value → Prop}
    {element changed : Declaration} (alike : FitsAlike environment Kept element changed)
    {items : List Value} {literals : List Literal} (kept : ∀ item ∈ items, Kept item)
    (each : List.Forall₂ (fun item literal => fit environment element item = .ok literal)
      items literals) :
    List.Forall₂ (fun item literal => fit environment changed item = .ok literal)
      items literals :=
  forall₂_imp_of_mem
    (fun item listed literal _ taken => alike item literal (kept item listed) taken) each

/-- One change leaves fitted literals as they are, where a value uses no fresh ordinal.

The induction is on where the change stands. At a record it is an extension of the members,
by one member, by none, or with one of them changed in itself. -/
theorem fitsAlike_of_change (environment : Environment) {Fresh : UInt64 → Prop}
    {declaration changed : Declaration} (change : Change Fresh declaration changed) :
    FitsAlike environment (AvoidsFresh Fresh) declaration changed := by
  have unchanged : ∀ content, FitsAlike environment (AvoidsFresh Fresh) content content :=
    fun _ _ _ _ fits => fits
  have nothingAdded : ∀ members, Member.Extends (FitsAlike environment (AvoidsFresh Fresh))
      (fun _ => False) members members := Member.Extends.refl unchanged
  induction change with
  | @insert header before after member kind name ordinal =>
    intro value literal avoids fits
    have extension : Member.Extends (FitsAlike environment (AvoidsFresh Fresh)) (· = member)
        (before ++ after) (before ++ member :: after) :=
      .append_left unchanged before (.add rfl (.refl unchanged after))
    refine fit_record_of_extends (.refl header) extension (fun struct => absurd struct kind) ?_ ?_
      avoids.fields fits
    · rintro added rfl other declared
      exact name other declared
    · rintro added rfl used
      exact avoids _ used ordinal
  | @flexible header members =>
    intro value literal avoids fits
    have grows : header.Grows { header with strictness := .flexible } :=
      ⟨rfl, rfl, rfl, fun _ => rfl, id⟩
    exact fit_record_of_extends grows (nothingAdded members) (fun _ _ => id) nofun nofun
      avoids.fields fits
  | @resource header members =>
    intro value literal avoids fits
    have grows : header.Grows { header with resourceness := .resource } :=
      ⟨rfl, rfl, rfl, id, fun _ => rfl⟩
    exact fit_record_of_extends grows (nothingAdded members) (fun _ _ => id) nofun nofun
      avoids.fields fits
  | rights =>
    intro value literal _ fits
    rw [fit_handle_eq_ok_iff, fitHandle_eq_ok_iff] at fits ⊢
    exact fits
  | inArray inside alike =>
    intro value literal avoids fits
    rw [fit_array_eq_ok_iff, fitArray_eq_ok_iff] at fits ⊢
    obtain ⟨items, type, literals, rfl, counted, spelled, each, built⟩ := fits
    refine ⟨items, type, literals, rfl, counted, ?_, ?_, built⟩
    · rwa [(Change.inArray inside).ofDeclaration]
    · exact forall₂_fitsAlike alike avoids.items each
  | inVector inside alike =>
    intro value literal avoids fits
    rw [fit_vector_eq_ok_iff, fitVector_eq_ok_iff] at fits ⊢
    rcases fits with absent | ⟨items, type, literals, rfl, spelled, each, built⟩
    · exact .inl absent
    · refine .inr ⟨items, type, literals, rfl, ?_, ?_, built⟩
      · rwa [(Change.inVector inside).ofDeclaration]
      · exact forall₂_fitsAlike alike avoids.items each
  | @inMember header before after name ordinal content changed inside alike =>
    intro value literal avoids fits
    have extension : Member.Extends (FitsAlike environment (AvoidsFresh Fresh)) (fun _ => False)
        (before ++ ⟨name, ordinal, content⟩ :: after)
        (before ++ ⟨name, ordinal, changed⟩ :: after) :=
      .append_left unchanged before (.keep alike (.refl unchanged after))
    exact fit_record_of_extends (.refl header) extension (fun _ _ => id) nofun nofun avoids.fields
      fits

/-- A value that was fitted before the schema evolved is fitted to the same literal afterwards,
and so it is written as the same text. -/
theorem fit_of_evolves {environment : Environment} {declaration evolved : Declaration}
    {value : Value} {literal : Literal}
    (evolves : Evolves (fun ordinal => ordinal ∉ value.unknownOrdinals) declaration evolved)
    (fits : fit environment declaration value = .ok literal) :
    fit environment evolved value = .ok literal ∧
      ∀ (writer : Writer) (handles : HandleTable), writer.environment handles = environment →
        writer.encode handles evolved value = writer.encode handles declaration value := by
  have refitted : fit environment evolved value = .ok literal := by
    induction evolves with
    | refl => exact fits
    | tail _ change inductionHypothesis =>
      exact fitsAlike_of_change environment change value literal (fun _ used fresh => fresh used)
        inductionHypothesis
  refine ⟨refitted, ?_⟩
  rintro writer handles rfl
  rw [Writer.encode, Writer.encode, Writer.fit, Writer.fit, refitted, fits]

/-- A table in a vector gets a member whose name cannot be parsed and whose handle Go cannot
spell, under an ordinal that the value does not use, and becomes a resource type. -/
theorem fit_of_evolves_table :
    let environment : Environment := ⟨.go, GoWriter.supportsHandle, 0⟩
    let declaration : Declaration := .vector (.record ⟨"lib/Sample", .table, false, .value, .strict⟩
      [⟨"count", 1, .primitive .uint8⟩]) false
    let evolved : Declaration := .vector (.record ⟨"lib/Sample", .table, false, .resource, .strict⟩
      [⟨"", 2, .handle .vmo ⟨0⟩ false⟩, ⟨"count", 1, .primitive .uint8⟩]) false
    let value : Value := .list [.record [Value.unknown 7 ⟨[1], []⟩,
      Value.named "count" (.integer (.signed 3))]]
    fit environment evolved value = fit environment declaration value ∧
      (Writer.standard .go).encode [] evolved value =
        (Writer.standard .go).encode [] declaration value := by
  intro environment declaration evolved value
  have fresh : (2 : UInt64) ∉ value.unknownOrdinals := by decide
  have inserted : Change (fun ordinal => ordinal ∉ value.unknownOrdinals)
      (.record ⟨"lib/Sample", .table, false, .value, .strict⟩
        ([] ++ [⟨"count", 1, .primitive .uint8⟩]))
      (.record ⟨"lib/Sample", .table, false, .value, .strict⟩
        ([] ++ [⟨"", 2, .handle .vmo ⟨0⟩ false⟩, ⟨"count", 1, .primitive .uint8⟩])) :=
    .insert (by decide) (by simp) fresh
  have evolves : Evolves (fun ordinal => ordinal ∉ value.unknownOrdinals) declaration evolved :=
    .tail (.single (.inVector inserted)) (.inVector .resource)
  have fits : fit environment declaration value = .ok (.list
      (.vector (.named ⟨["lib"], "Sample"⟩ false) false)
      [.table ⟨["lib"], "Sample"⟩ false [("count", .integer (.signed 3) .uint8)]
        [(7, ⟨[1], []⟩)]]) := rfl
  obtain ⟨refitted, texts⟩ := fit_of_evolves evolves fits
  exact ⟨refitted.trans fits.symm, texts (Writer.standard .go) [] rfl⟩

end Literal

end FixtureLiterals
