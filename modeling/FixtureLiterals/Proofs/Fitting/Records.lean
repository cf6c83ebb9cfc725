import FixtureLiterals.Proofs.Fitting.Success

/-!
# When a record is fitted

The three shapes of records share two scans. The names of the fields have to be declared
and must not repeat; unknown ordinals have to be ones that the record can carry, and must
not repeat either. What then distinguishes the shapes is which members have to be present.
-/

namespace FixtureLiterals

/-- The conditions under which a record carries data under an unknown ordinal. -/
structure CarriesUnknown {α : Type} (environment : Environment) (header : RecordHeader)
    (members : List (Member α)) (ordinal : UInt64) (data : UnknownData) : Prop where
  extensible : header.isExtensible = true
  undeclared : ∀ member ∈ members, member.ordinal ≠ ordinal
  resource : data.handles ≠ [] → header.isResource = true
  indices : ∀ index ∈ data.handles, index.toNat < environment.handleCount

/-- Whether a record carries unknown data does not depend on the contents of its members. -/
theorem carriesUnknown_map {α β : Type} (environment : Environment) (header : RecordHeader)
    (transform : α → β) (members : List (Member α)) (ordinal : UInt64) (data : UnknownData) :
    CarriesUnknown environment header (members.map (Member.map transform)) ordinal data ↔
      CarriesUnknown environment header members ordinal data := by
  constructor
  · rintro ⟨extensible, undeclared, resource, indices⟩
    exact ⟨extensible, by simpa [Member.map] using undeclared, resource, indices⟩
  · rintro ⟨extensible, undeclared, resource, indices⟩
    exact ⟨extensible, by simpa [Member.map] using undeclared, resource, indices⟩

/-- Named values set declared members, and none of them twice. -/
structure SetsNames {α β : Type} (members : List (Member α)) (entries : List (String × β)) :
    Prop where
  declared : ∀ entry ∈ entries, ∃ member ∈ members, member.name = entry.1
  distinct : (entries.map Prod.fst).Nodup

/-- One more named value sets one more declared member. -/
theorem setsNames_cons {α β : Type} (members : List (Member α)) (entry : String × β)
    (entries : List (String × β)) :
    SetsNames members (entry :: entries) ↔
      (∃ member ∈ members, member.name = entry.1) ∧ entry.1 ∉ entries.map Prod.fst ∧
        SetsNames members entries := by
  constructor
  · rintro ⟨declared, distinct⟩
    obtain ⟨first, others⟩ := List.forall_mem_cons.mp declared
    obtain ⟨absent, rest⟩ := List.nodup_cons.mp distinct
    exact ⟨first, absent, others, rest⟩
  · rintro ⟨first, absent, others, rest⟩
    exact ⟨List.forall_mem_cons.mpr ⟨first, others⟩, List.nodup_cons.mpr ⟨absent, rest⟩⟩

/-- Which names are set does not depend on the contents of the members. -/
theorem setsNames_map {α β γ : Type} (transform : α → β) (members : List (Member α))
    (entries : List (String × γ)) :
    SetsNames (members.map (Member.map transform)) entries ↔ SetsNames members entries := by
  constructor
  · rintro ⟨declared, distinct⟩
    exact ⟨by simpa [Member.map] using declared, distinct⟩
  · rintro ⟨declared, distinct⟩
    exact ⟨by simpa [Member.map] using declared, distinct⟩

namespace Literal

/-- A member is fitted under its own name. -/
theorem fitMember_eq_ok_iff (member : Member Fitter) (value : Value) (entry : String × Literal) :
    fitMember member value = .ok entry ↔
      entry.1 = member.name ∧ member.content value = .ok entry.2 := by
  obtain ⟨name, literal⟩ := entry
  simp only [fitMember, bind_eq_ok_iff, within_eq_ok_iff, pure_eq_ok_iff, Prod.mk.injEq]
  constructor
  · rintro ⟨content, taken, rfl, rfl⟩
    exact ⟨rfl, taken⟩
  · rintro ⟨rfl, taken⟩
    exact ⟨literal, taken, rfl, rfl⟩

/-- Unknown data is taken exactly where the record can carry it. -/
theorem fitUnknownData_eq_ok_iff {α : Type} (environment : Environment) (header : RecordHeader)
    (members : List (Member α)) (ordinal : UInt64) (value : Value) (data : UnknownData) :
    fitUnknownData environment header members ordinal value = .ok data ↔
      value = .unknownData data ∧ CarriesUnknown environment header members ordinal data := by
  by_cases extensible : header.isExtensible = true
  case neg =>
    have refused : ¬ CarriesUnknown environment header members ordinal data :=
      fun carried => extensible carried.extensible
    simp [fitUnknownData, extensible, refused]
  cases found : Member.ofOrdinal? members ordinal with
  | some member =>
    have refused : ¬ CarriesUnknown environment header members ordinal data := fun carried => by
      rw [(Member.ofOrdinal?_eq_none_iff members ordinal).mpr carried.undeclared] at found
      exact nomatch found
    simp [fitUnknownData, extensible, found, refused]
  | none =>
    have undeclared := (Member.ofOrdinal?_eq_none_iff members ordinal).mp found
    cases value with
    | unknownData content =>
      by_cases misplaced : (!content.handles.isEmpty && !header.isResource) = true
      · have refused : ¬ CarriesUnknown environment header members ordinal content := by
          intro carried
          have resource := carried.resource
          simp_all
        have failed : fitUnknownData environment header members ordinal (.unknownData content) =
            fail (.handlesOnValueType header.name) := by
          unfold fitUnknownData
          rw [if_neg (by simp [extensible]), found]
          exact if_pos misplaced
        rw [failed]
        simp only [fail_ne_ok, Value.unknownData.injEq, false_iff]
        rintro ⟨rfl, carried⟩
        exact refused carried
      · have resource : content.handles ≠ [] → header.isResource = true := by simp_all
        have checked : fitUnknownData environment header members ordinal (.unknownData content) =
            (content.handles.forM environment.checkIndex >>= fun _ => pure content) := by
          unfold fitUnknownData
          rw [if_neg (by simp [extensible]), found]
          exact if_neg misplaced
        rw [checked, bind_eq_ok_iff]
        simp only [Environment.checkIndices_eq_ok_iff, pure_eq_ok_iff, Value.unknownData.injEq]
        constructor
        · rintro ⟨-, indices, rfl⟩
          exact ⟨rfl, extensible, undeclared, resource, indices⟩
        · rintro ⟨rfl, carried⟩
          exact ⟨(), carried.indices, rfl⟩
    | _ => simp [fitUnknownData, extensible, found]

/-- The scan passes a name exactly if it is declared and was not seen before, and if it passes
the others with the name among those seen. -/
theorem knownFields_cons_eq_ok_iff {α : Type} (header : RecordHeader) (members : List (Member α))
    (earlier : List (String × Value)) (name : String) (value : Value) (fields : List (Field Value))
    (known : List (String × Value)) :
    knownFields header members earlier (⟨.declared name, value⟩ :: fields) = .ok known ↔
      (∃ member ∈ members, member.name = name) ∧ earlier.lookup name = none ∧
        knownFields header members ((name, value) :: earlier) fields = .ok known := by
  rw [← Member.named?_isSome_iff, knownFields]
  cases found : Member.named? members name with
  | none => simp
  | some member =>
    cases seen : earlier.lookup name with
    | none => simp
    | some content => simp

/-- The scan for names passes exactly if they are declared and distinct, also from those seen
before, and it puts each field in front of the earlier ones. -/
theorem scan_names_eq_ok_iff {α : Type} (header : RecordHeader) (members : List (Member α))
    (earlier : List (String × Value)) (fields : List (Field Value))
    (known : List (String × Value)) :
    knownFields header members earlier fields = .ok known ↔
      SetsNames members (Field.underNames fields) ∧
      (∀ entry ∈ Field.underNames fields, earlier.lookup entry.1 = none) ∧
      known = (Field.underNames fields).reverse ++ earlier := by
  induction fields generalizing earlier with
  | nil =>
    have nothing : SetsNames members ([] : List (String × Value)) := ⟨nofun, List.nodup_nil⟩
    simp only [knownFields, Field.underNames, nothing, Except.ok.injEq, List.reverse_nil,
      List.nil_append, List.not_mem_nil, false_implies, implies_true, true_and]
    exact eq_comm
  | cons field fields inductionHypothesis =>
    obtain ⟨key, value⟩ := field
    cases key with
    | unknown ordinal => exact inductionHypothesis earlier
    | declared name =>
      have unseen : (∀ entry ∈ Field.underNames fields,
            ((name, value) :: earlier).lookup entry.1 = none) ↔
          name ∉ (Field.underNames fields).map Prod.fst ∧
            ∀ entry ∈ Field.underNames fields, earlier.lookup entry.1 = none := by
        simp only [lookup_cons_eq_none_iff, forall_and, List.mem_map, not_exists, not_and]
      rw [knownFields_cons_eq_ok_iff, inductionHypothesis, unseen]
      simp only [Field.underNames, setsNames_cons, List.forall_mem_cons, List.reverse_cons,
        List.append_assoc, List.singleton_append]
      constructor
      · rintro ⟨declared, first, sets, ⟨fresh, others⟩, collected⟩
        exact ⟨⟨declared, fresh, sets⟩, ⟨first, others⟩, collected⟩
      · rintro ⟨⟨declared, fresh, sets⟩, ⟨first, others⟩, collected⟩
        exact ⟨declared, first, sets, ⟨fresh, others⟩, collected⟩

/-- The scan for names passes exactly if they are declared and distinct. -/
theorem knownFields_eq_ok_iff {α : Type} (header : RecordHeader) (members : List (Member α))
    (fields : List (Field Value)) (known : List (String × Value)) :
    knownFields header members [] fields = .ok known ↔
      SetsNames members (Field.underNames fields) ∧ known = (Field.underNames fields).reverse := by
  rw [scan_names_eq_ok_iff]
  simp

/-- The scan for ordinals passes exactly if they are distinct, also from those seen before,
and if the record can carry what stands under each. -/
theorem scan_ordinals_eq_ok_iff {α : Type} (environment : Environment) (header : RecordHeader)
    (members : List (Member α)) (seen : List UInt64) (fields : List (Field Value))
    (unknown : List (UInt64 × UnknownData)) :
    fitUnknownFields environment header members seen fields = .ok unknown ↔
      Field.underOrdinals fields = unknown.map (fun entry => (entry.1, .unknownData entry.2)) ∧
      (unknown.map Prod.fst).Nodup ∧ (∀ entry ∈ unknown, entry.1 ∉ seen) ∧
      ∀ entry ∈ unknown, CarriesUnknown environment header members entry.1 entry.2 := by
  induction fields generalizing seen unknown with
  | nil => cases unknown <;> simp [fitUnknownFields, Field.underOrdinals]
  | cons field fields inductionHypothesis =>
    obtain ⟨key, value⟩ := field
    cases key with
    | declared name => exact inductionHypothesis seen unknown
    | unknown ordinal =>
      simp only [fitUnknownFields, bind_eq_ok_iff, within_eq_ok_iff, pure_eq_ok_iff,
        inductionHypothesis, Field.underOrdinals]
      constructor
      · rintro ⟨data, first, others, ⟨later, distinct, unseen, carried⟩, rfl⟩
        split at first
        case isTrue repeated => exact absurd first (by simp)
        case isFalse fresh =>
          obtain ⟨rfl, carriedFirst⟩ := (fitUnknownData_eq_ok_iff ..).mp first
          have apart : ordinal ∉ others.map Prod.fst := by
            intro repeated
            obtain ⟨entry, member, rfl⟩ := List.mem_map.mp repeated
            exact unseen entry member List.mem_cons_self
          refine ⟨by simp [later], List.nodup_cons.mpr ⟨apart, distinct⟩, ?_, ?_⟩
          · exact List.forall_mem_cons.mpr ⟨fresh, fun entry member again =>
              unseen entry member (List.mem_cons_of_mem _ again)⟩
          · exact List.forall_mem_cons.mpr ⟨carriedFirst, carried⟩
      · rintro ⟨shape, distinct, unseen, carried⟩
        cases unknown with
        | nil => cases shape
        | cons entry others =>
          obtain ⟨first, data⟩ := entry
          simp only [List.map_cons, List.cons.injEq, Prod.mk.injEq] at shape
          obtain ⟨⟨rfl, rfl⟩, later⟩ := shape
          obtain ⟨apart, rest⟩ := List.nodup_cons.mp distinct
          obtain ⟨fresh, unseenLater⟩ := List.forall_mem_cons.mp unseen
          obtain ⟨carriedFirst, carriedLater⟩ := List.forall_mem_cons.mp carried
          refine ⟨data, ?_, others, ⟨later, rest, fun entry member => ?_, carriedLater⟩, rfl⟩
          · rw [if_neg fresh]
            exact (fitUnknownData_eq_ok_iff ..).mpr ⟨rfl, carriedFirst⟩
          · rintro (_ | ⟨_, again⟩)
            · exact apart (List.mem_map.mpr ⟨entry, member, rfl⟩)
            · exact unseenLater entry member again

/-- Only the absent value is null. -/
theorem isNull_iff (value : Value) : value.isNull = true ↔ value = .null := by
  cases value <;> simp [Value.isNull]

/-- A name that is set once is found to have the value of its field. -/
theorem lookup_underNames {α : Type} {members : List (Member α)} {fields : List (Field Value)}
    (sets : SetsNames members (Field.underNames fields)) (name : String) (value : Value) :
    (Field.underNames fields).lookup name = some value ↔ ⟨.declared name, value⟩ ∈ fields := by
  rw [lookup_eq_some_iff_mem _ sets.distinct, Field.mem_underNames]

/-- A member is present with the value that it is set to, unless that is the absent one. -/
theorem mem_presentMembers {α : Type} {members : List (Member α)} {fields : List (Field Value)}
    (sets : SetsNames members (Field.underNames fields)) (chosen : Member α × Value) :
    chosen ∈ presentMembers members (Field.underNames fields) ↔
      chosen.1 ∈ members ∧ ⟨.declared chosen.1.name, chosen.2⟩ ∈ fields ∧ chosen.2 ≠ .null := by
  obtain ⟨member, value⟩ := chosen
  simp only [presentMembers, List.mem_filterMap, ← lookup_underNames sets, ne_eq, ← isNull_iff]
  constructor
  · rintro ⟨candidate, declared, selected⟩
    cases found : (Field.underNames fields).lookup candidate.name with
    | none =>
      rw [found] at selected
      exact nomatch selected
    | some content =>
      rw [found] at selected
      by_cases absent : content.isNull = true
      · simp [absent] at selected
      · simp only [absent, Bool.false_eq_true, if_false, Option.some.injEq,
          Prod.mk.injEq] at selected
        obtain ⟨rfl, rfl⟩ := selected
        exact ⟨declared, found, absent⟩
  · rintro ⟨declared, found, present⟩
    exact ⟨member, declared, by simp [found, present]⟩

/-- The order in which the fields were scanned makes no difference to which members are
present. -/
theorem presentMembers_reverse {α : Type} {members : List (Member α)}
    {fields : List (Field Value)}
    (sets : SetsNames members (Field.underNames fields)) :
    presentMembers members (Field.underNames fields).reverse =
      presentMembers members (Field.underNames fields) := by
  simp only [presentMembers, lookup_reverse _ sets.distinct]

/-- Present members keep the order of declaration. -/
theorem presentMembers_sublist {α : Type} (members : List (Member α))
    (known : List (String × Value)) :
    ((presentMembers members known).map Prod.fst).Sublist members := by
  induction members with
  | nil => exact List.Sublist.refl []
  | cons member members inductionHypothesis =>
    cases found : known.lookup member.name with
    | none => simpa [presentMembers, found] using inductionHypothesis.cons member
    | some value =>
      cases null : value.isNull with
      | true => simpa [presentMembers, found, null] using inductionHypothesis.cons member
      | false => simpa [presentMembers, found, null] using inductionHypothesis.cons_cons member

/-- Which members are present does not depend on what is known of their contents. -/
theorem presentMembers_map {α β : Type} (transform : α → β) (members : List (Member α))
    (known : List (String × Value)) :
    presentMembers (members.map (Member.map transform)) known =
      (presentMembers members known).map fun chosen => (chosen.1.map transform, chosen.2) := by
  simp only [presentMembers, List.filterMap_map, List.map_filterMap]
  refine List.filterMap_congr fun member _ => ?_
  simp only [Function.comp_apply, Member.map]
  split
  · split <;> rfl
  · rfl

/-- A struct is fitted exactly if no ordinal is unknown, the names are declared and distinct,
and every member is set to a value that it takes. -/
theorem fitStruct_eq_ok_iff (header : RecordHeader) (members : List (Member Fitter))
    (fields : List (Field Value)) (literal : Literal) :
    fitStruct header members fields = .ok literal ↔
      Field.underOrdinals fields = [] ∧ SetsNames members (Field.underNames fields) ∧
      ∃ name fitted, QualifiedName.parse header.name = .ok name ∧
        List.Forall₂ (fun member entry => entry.1 = member.name ∧
          ∃ value, ⟨.declared member.name, value⟩ ∈ fields ∧ member.content value = .ok entry.2)
          members fitted ∧
        .struct name header.nullable fitted = literal := by
  cases first : firstUnknownOrdinal? fields with
  | some ordinal =>
    have unknown : Field.underOrdinals fields ≠ [] := by
      rw [ne_eq, ← Field.firstUnknownOrdinal?_eq_none_iff, first]
      exact nofun
    simp [fitStruct, first, unknown]
  | none =>
    have closed := (Field.firstUnknownOrdinal?_eq_none_iff fields).mp first
    simp only [fitStruct, first, bind_eq_ok_iff, knownFields_eq_ok_iff, mapM_eq_ok_iff,
      QualifiedName.ofDeclared_eq_ok_iff, pure_eq_ok_iff, closed, true_and]
    constructor
    · rintro ⟨known, ⟨sets, rfl⟩, fitted, each, name, parsed, rfl⟩
      refine ⟨sets, name, fitted, parsed, each.imp fun member entry fits => ?_, rfl⟩
      rw [lookup_reverse _ sets.distinct] at fits
      cases found : (Field.underNames fields).lookup member.name with
      | none => simp [found] at fits
      | some value =>
        rw [found] at fits
        obtain ⟨named, taken⟩ := (fitMember_eq_ok_iff ..).mp fits
        exact ⟨named, value, (lookup_underNames sets _ _).mp found, taken⟩
    · rintro ⟨sets, name, fitted, parsed, each, rfl⟩
      refine ⟨_, ⟨sets, rfl⟩, fitted, each.imp fun member entry fits => ?_, name, parsed, rfl⟩
      obtain ⟨named, value, set, fits⟩ := fits
      rw [lookup_reverse _ sets.distinct, (lookup_underNames sets _ _).mpr set]
      exact (fitMember_eq_ok_iff ..).mpr ⟨named, fits⟩

/-- A union is fitted exactly if it has one field, which either sets a declared member to a
value that it takes or is unknown and can be carried. -/
theorem fitUnion_eq_ok_iff (environment : Environment) (header : RecordHeader)
    (members : List (Member Fitter)) (fields : List (Field Value)) (literal : Literal) :
    fitUnion environment header members fields = .ok literal ↔
      (∃ name value member content parsed, fields = [⟨.declared name, value⟩] ∧
        Member.named? members name = some member ∧ member.content value = .ok content ∧
        QualifiedName.parse header.name = .ok parsed ∧
        .union parsed header.nullable member.name member.ordinal content = literal) ∨
      (∃ ordinal data parsed, fields = [⟨.unknown ordinal, .unknownData data⟩] ∧
        CarriesUnknown environment header members ordinal data ∧
        QualifiedName.parse header.name = .ok parsed ∧
        .unknownUnion parsed header.nullable ordinal data = literal) := by
  match fields with
  | [] | _ :: _ :: _ => simp [fitUnion]
  | [⟨.declared name, value⟩] =>
    cases found : Member.named? members name with
    | none => simp [fitUnion, found]
    | some member =>
      simp only [fitUnion, found, bind_eq_ok_iff, within_eq_ok_iff,
        QualifiedName.ofDeclared_eq_ok_iff, pure_eq_ok_iff]
      constructor
      · rintro ⟨content, taken, parsed, read, built⟩
        exact .inl ⟨name, value, member, content, parsed, rfl, found, taken, read, built⟩
      · rintro (⟨_, _, chosen, content, parsed, ⟨⟩, known, taken, read, built⟩ | ⟨_, _, _, ⟨⟩, -⟩)
        rw [found] at known
        obtain rfl := Option.some.inj known
        exact ⟨content, taken, parsed, read, built⟩
  | [⟨.unknown ordinal, value⟩] =>
    simp only [fitUnion, bind_eq_ok_iff, within_eq_ok_iff, fitUnknownData_eq_ok_iff,
      QualifiedName.ofDeclared_eq_ok_iff, pure_eq_ok_iff]
    constructor
    · rintro ⟨data, ⟨rfl, carried⟩, parsed, read, built⟩
      exact .inr ⟨ordinal, data, parsed, rfl, carried, read, built⟩
    · rintro (⟨_, _, _, _, _, ⟨⟩, -⟩ | ⟨_, data, parsed, ⟨⟩, carried, read, built⟩)
      exact ⟨data, ⟨rfl, carried⟩, parsed, read, built⟩

/-- A table is fitted exactly if the names are declared and distinct, the ordinals are distinct
and can be carried, and every present member takes its value. -/
theorem fitTable_eq_ok_iff (environment : Environment) (header : RecordHeader)
    (members : List (Member Fitter)) (fields : List (Field Value)) (literal : Literal) :
    fitTable environment header members fields = .ok literal ↔
      SetsNames members (Field.underNames fields) ∧
      ∃ name fitted unknown, QualifiedName.parse header.name = .ok name ∧
        fitUnknownFields environment header members [] fields = .ok unknown ∧
        List.Forall₂ (fun chosen entry => entry.1 = chosen.1.name ∧
          chosen.1.content chosen.2 = .ok entry.2)
          (presentMembers members (Field.underNames fields)) fitted ∧
        .table name header.nullable fitted unknown = literal := by
  simp only [fitTable, bind_eq_ok_iff, knownFields_eq_ok_iff, mapM_eq_ok_iff,
    QualifiedName.ofDeclared_eq_ok_iff, pure_eq_ok_iff, fitMember_eq_ok_iff]
  constructor
  · rintro ⟨known, ⟨sets, rfl⟩, unknown, carried, fitted, each, name, parsed, rfl⟩
    refine ⟨sets, name, fitted, unknown, parsed, carried, ?_, rfl⟩
    rwa [presentMembers_reverse sets] at each
  · rintro ⟨sets, name, fitted, unknown, parsed, carried, each, rfl⟩
    refine ⟨_, ⟨sets, rfl⟩, unknown, carried, fitted, ?_, name, parsed, rfl⟩
    rwa [presentMembers_reverse sets]

end Literal

end FixtureLiterals
