import FixtureLiterals.Fixture
import FixtureLiterals.Proofs.Fitting.Records
import FixtureLiterals.Proofs.Schema.Memberwise

/-!
# Fitting in richer surroundings

Fitting asks its surroundings two things: whether the target can spell a handle subtype, and
whether the handle table has an entry at an index. Surroundings are richer than others if
they answer yes wherever the others do. So a fit in poorer surroundings is the same fit in
richer ones, and where only the richer ones allow a fit, the poorer ones fail by exactly
what they lack.

The two runs are compared step by step. One outcome follows another in a way that sequences
of steps, lists of steps and steps into a part all keep, so each shape's rule is compared
along its own definition and no order of checks has to be considered.

What the handle table holds is never asked for, only how long it is.
-/

namespace FixtureLiterals

namespace Environment

/-- Surroundings that are no poorer than others. -/
structure Within (poorer richer : Environment) : Prop where
  entries : poorer.handleCount ≤ richer.handleCount
  subtypes : ∀ subtype, poorer.supports subtype = true → richer.supports subtype = true

/-- A fault that poorer surroundings find because they lack what richer ones have. -/
inductive Lacks (poorer richer : Environment) : Fault → Prop where
  | subtype {subtype : HandleSubtype} (unsupported : poorer.supports subtype = false)
      (supported : richer.supports subtype = true) :
      Lacks poorer richer (.unsupportedHandle subtype poorer.target)
  | entry {index : UInt64} (outside : poorer.handleCount ≤ index.toNat)
      (inside : index.toNat < richer.handleCount) :
      Lacks poorer richer (.handleOutOfRange index poorer.handleCount)

/-- What surroundings lack is the spelling of a subtype or an entry of the handle table. -/
theorem Lacks.category {poorer richer : Environment} {fault : Fault}
    (lacks : Lacks poorer richer fault) :
    fault.category = .unsupportedHandleSubtype ∨ fault.category = .handleIndexOutOfRange := by
  cases lacks with
  | subtype unsupported supported => exact .inl rfl
  | entry outside inside => exact .inr rfl

/-- With handle tables of one length, what surroundings lack is the spelling of a subtype. -/
theorem Lacks.category_of_entries {poorer richer : Environment} {fault : Fault}
    (lacks : Lacks poorer richer fault) (entries : richer.handleCount = poorer.handleCount) :
    fault.category = .unsupportedHandleSubtype := by
  cases lacks with
  | subtype unsupported supported => rfl
  | entry outside inside =>
    rw [entries] at inside
    exact absurd inside (Nat.not_lt.mpr outside)

end Environment

/-- An outcome follows a first one: it is the same success where the first one is a success,
and where only the later one succeeds, the first one fails by a lack. -/
structure Follows (Lack : Fault → Prop) {α : Type} (first later : Except Failure α) : Prop where
  success : ∀ result, first = .ok result → later = .ok result
  lack : ∀ failure result, first = .error failure → later = .ok result → Lack failure.fault

namespace Follows

variable {Lack : Fault → Prop} {α β : Type}

/-- Every outcome follows itself. -/
theorem refl (outcome : Except Failure α) : Follows Lack outcome outcome where
  success _ succeeds := succeeds
  lack failure result fails succeeds := by
    rw [fails] at succeeds
    exact nomatch succeeds

/-- A success is followed by the same success. -/
theorem of_success {later : Except Failure α} {result : α} (succeeds : later = .ok result) :
    Follows Lack (.ok result) later where
  success _ same := Except.ok.inj same ▸ succeeds
  lack _ _ fails := nomatch fails

/-- A fault that is a lack is followed by any outcome. -/
theorem of_lack {later : Except Failure α} {fault : Fault} (lacking : Lack fault) :
    Follows Lack (fail fault) later where
  success _ succeeds := nomatch succeeds
  lack failure _ fails _ := by
    obtain rfl : Failure.atRoot fault = failure := Except.error.inj fails
    exact lacking

/-- Any outcome is followed by a failure, unless it is a success. -/
theorem of_failures {first later : Failure} :
    Follows Lack (.error first : Except Failure α) (.error later) where
  success _ succeeds := nomatch succeeds
  lack _ _ _ succeeds := nomatch succeeds

/-- Two steps are followed by two steps that follow each of them. -/
theorem bind {first later : Except Failure α} {next after : α → Except Failure β}
    (steps : Follows Lack first later) (rest : ∀ middle, Follows Lack (next middle) (after middle)) :
    Follows Lack (first >>= next) (later >>= after) := by
  cases first with
  | ok middle =>
    rw [steps.success middle rfl]
    exact rest middle
  | error failure =>
    cases later with
    | error other => exact of_failures
    | ok middle =>
      constructor
      · intro result succeeds
        exact nomatch succeeds
      · intro other result same succeeds
        obtain rfl : failure = other := Except.error.inj same
        exact steps.lack failure middle rfl rfl

/-- A step into a part keeps the fault, and so whether it is a lack. -/
theorem within (segment : Segment) {first later : Except Failure α}
    (steps : Follows Lack first later) :
    Follows Lack (FixtureLiterals.within segment first)
      (FixtureLiterals.within segment later) := by
  cases first with
  | ok result =>
    rw [steps.success result rfl]
    exact refl _
  | error failure =>
    cases later with
    | error other => exact of_failures
    | ok result =>
      constructor
      · intro value succeeds
        exact nomatch succeeds
      · intro other value same succeeds
        obtain rfl := Except.error.inj same
        exact steps.lack failure result rfl rfl

/-- A list of steps is followed by steps that follow each of them. -/
theorem mapM {γ : Type} {step after : γ → Except Failure β} {members : List γ}
    (steps : ∀ member ∈ members, Follows Lack (step member) (after member)) :
    Follows Lack (members.mapM step) (members.mapM after) := by
  induction members with
  | nil => exact refl _
  | cons member members inductionHypothesis =>
    obtain ⟨first, others⟩ := List.forall_mem_cons.mp steps
    rw [List.mapM_cons, List.mapM_cons]
    refine bind first fun result => ?_
    exact bind (inductionHypothesis others) fun results => refl _

end Follows

namespace Literal

section Scans

variable {α β : Type} (transform : α → β) (header : RecordHeader) (members : List (Member α))

/-- The scan for names does not depend on what is known of the members' contents. -/
theorem knownFields_map (known : List (String × Value)) (fields : List (Field Value)) :
    knownFields header (members.map (Member.map transform)) known fields =
      knownFields header members known fields := by
  induction fields generalizing known with
  | nil => rfl
  | cons field fields inductionHypothesis =>
    obtain ⟨key, value⟩ := field
    cases key with
    | unknown ordinal => exact inductionHypothesis known
    | declared name =>
      simp only [knownFields, Member.named?_map, Option.isNone_map, inductionHypothesis]

/-- What is carried under an unknown ordinal does not depend on the members' contents. -/
theorem fitUnknownData_map (environment : Environment) (ordinal : UInt64) (value : Value) :
    fitUnknownData environment header (members.map (Member.map transform)) ordinal value =
      fitUnknownData environment header members ordinal value := by
  simp only [fitUnknownData, Member.ofOrdinal?_map]
  cases Member.ofOrdinal? members ordinal <;> rfl

/-- The scan for ordinals does not depend on the members' contents. -/
theorem fitUnknownFields_map (environment : Environment) (seen : List UInt64)
    (fields : List (Field Value)) :
    fitUnknownFields environment header (members.map (Member.map transform)) seen fields =
      fitUnknownFields environment header members seen fields := by
  induction fields generalizing seen with
  | nil => rfl
  | cons field fields inductionHypothesis =>
    obtain ⟨key, value⟩ := field
    cases key with
    | declared name => exact inductionHypothesis seen
    | unknown ordinal =>
      simp only [fitUnknownFields, fitUnknownData_map, inductionHypothesis]

end Scans

section Richer

variable {poorer richer : Environment} (environments : poorer.Within richer)
include environments

/-- A subtype that only richer surroundings can spell is what poorer ones lack. -/
theorem checkSubtype_follows (subtype : HandleSubtype) :
    Follows (poorer.Lacks richer) (poorer.checkSubtype subtype) (richer.checkSubtype subtype) := by
  by_cases supported : poorer.supports subtype = true
  · rw [(Environment.checkSubtype_eq_ok_iff poorer subtype ()).mpr supported]
    exact .of_success
      ((Environment.checkSubtype_eq_ok_iff ..).mpr (environments.subtypes subtype supported))
  · rw [Environment.checkSubtype, if_neg supported]
    by_cases spelled : richer.supports subtype = true
    · exact .of_lack (.subtype (by simpa using supported) spelled)
    · rw [Environment.checkSubtype, if_neg spelled]
      exact .of_failures

/-- An index that only the longer handle table has is what the shorter one lacks. -/
theorem checkIndex_follows (index : UInt64) :
    Follows (poorer.Lacks richer) (poorer.checkIndex index) (richer.checkIndex index) := by
  by_cases inside : index.toNat < poorer.handleCount
  · rw [(Environment.checkIndex_eq_ok_iff poorer index ()).mpr inside]
    exact .of_success ((Environment.checkIndex_eq_ok_iff ..).mpr
      (Nat.lt_of_lt_of_le inside environments.entries))
  · rw [Environment.checkIndex, if_neg inside]
    by_cases listed : index.toNat < richer.handleCount
    · exact .of_lack (.entry (Nat.not_lt.mp inside) listed)
    · rw [Environment.checkIndex, if_neg listed]
      exact .of_failures

/-- Several indices are compared one by one. -/
theorem checkIndices_follows (indices : List UInt64) :
    Follows (poorer.Lacks richer) (indices.forM poorer.checkIndex)
      (indices.forM richer.checkIndex) := by
  induction indices with
  | nil => exact .refl _
  | cons index indices inductionHypothesis =>
    exact .bind (checkIndex_follows environments index) fun _ => inductionHypothesis

/-- The type of a list is spelled alike, unless a handle in it can only be spelled in the richer
surroundings. -/
theorem ofDeclaration_follows (declaration : Declaration) :
    Follows (poorer.Lacks richer) (TypeReference.ofDeclaration poorer declaration)
      (TypeReference.ofDeclaration richer declaration) := by
  induction declaration using Declaration.memberwise with
  | primitive subtype | bits scalar | enumeration scalar | string nullable
  | record header members => exact .refl _
  | handle subtype rights nullable =>
    exact .bind (checkSubtype_follows environments subtype) fun _ => .refl _
  | array element size inductionHypothesis | vector element nullable inductionHypothesis =>
    exact .bind inductionHypothesis fun _ => .refl _

/-- An absent value is compared by the subtype that an absent handle is spelled with. -/
theorem fitNull_follows (declaration : Declaration) :
    Follows (poorer.Lacks richer) (fitNull poorer declaration) (fitNull richer declaration) := by
  unfold fitNull
  split
  · exact .refl _
  · cases declaration with
    | handle subtype rights nullable =>
      exact .bind (checkSubtype_follows environments subtype) fun _ => .refl _
    | _ => exact .refl _

/-- A handle is compared by its index and its subtype. -/
theorem fitHandle_follows (declaration : Declaration) (subtype : HandleSubtype) (value : Value) :
    Follows (poorer.Lacks richer) (fitHandle poorer declaration subtype value)
      (fitHandle richer declaration subtype value) := by
  cases value with
  | handle reference =>
    refine .bind (checkIndex_follows environments reference.index) fun _ => ?_
    exact .bind (checkSubtype_follows environments subtype) fun _ => .refl _
  | _ => exact .refl _

omit environments in
/-- Items are compared one by one. -/
theorem fitItems_follows {first later : Fitter}
    (items : ∀ item, Follows (poorer.Lacks richer) (first item) (later item)) (position : Nat)
    (values : List Value) :
    Follows (poorer.Lacks richer) (fitItems first position values)
      (fitItems later position values) := by
  induction values generalizing position with
  | nil => exact .refl _
  | cons value values inductionHypothesis =>
    refine .bind (.within _ (items value)) fun _ => ?_
    exact .bind (inductionHypothesis (position + 1)) fun _ => .refl _

/-- A list is compared by its spelled type and then by its items. -/
theorem fitList_follows (declaration : Declaration) {first later : Fitter}
    (items : ∀ item, Follows (poorer.Lacks richer) (first item) (later item))
    (values : List Value) :
    Follows (poorer.Lacks richer) (fitList poorer declaration first values)
      (fitList richer declaration later values) := by
  refine .bind (ofDeclaration_follows environments declaration) fun _ => ?_
  exact .bind (fitItems_follows items 0 values) fun _ => .refl _

/-- An array with another number of items fails alike, and all others are compared as lists. -/
theorem fitArray_follows (declaration : Declaration) (size : UInt64) {first later : Fitter}
    (items : ∀ item, Follows (poorer.Lacks richer) (first item) (later item)) (value : Value) :
    Follows (poorer.Lacks richer) (fitArray poorer declaration size first value)
      (fitArray richer declaration size later value) := by
  cases value with
  | list values =>
    by_cases counted : values.length = size.toNat
    · simp only [fitArray, if_pos counted]
      exact fitList_follows environments declaration items values
    · simp only [fitArray, if_neg counted]
      exact .refl _
  | _ => exact .refl _

/-- A vector is compared as a list. -/
theorem fitVector_follows (declaration : Declaration) {first later : Fitter}
    (items : ∀ item, Follows (poorer.Lacks richer) (first item) (later item)) (value : Value) :
    Follows (poorer.Lacks richer) (fitVector poorer declaration first value)
      (fitVector richer declaration later value) := by
  cases value with
  | list values => exact fitList_follows environments declaration items values
  | _ => exact .refl _

/-- What is carried under an unknown ordinal is compared by the indices that it refers to. -/
theorem fitUnknownData_follows {α : Type} (header : RecordHeader) (members : List (Member α))
    (ordinal : UInt64) (value : Value) :
    Follows (poorer.Lacks richer) (fitUnknownData poorer header members ordinal value)
      (fitUnknownData richer header members ordinal value) := by
  unfold fitUnknownData
  split
  · exact .refl _
  split
  · exact .refl _
  split
  · split
    · exact .refl _
    · exact .bind (checkIndices_follows environments _) fun _ => .refl _
  · exact .refl _

/-- The unknown fields of a table are compared one by one. -/
theorem fitUnknownFields_follows {α : Type} (header : RecordHeader) (members : List (Member α))
    (seen : List UInt64) (fields : List (Field Value)) :
    Follows (poorer.Lacks richer) (fitUnknownFields poorer header members seen fields)
      (fitUnknownFields richer header members seen fields) := by
  induction fields generalizing seen with
  | nil => exact .refl _
  | cons field fields inductionHypothesis =>
    obtain ⟨key, value⟩ := field
    cases key with
    | declared name => exact inductionHypothesis seen
    | unknown ordinal =>
      have first : Follows (poorer.Lacks richer)
          (if ordinal ∈ seen then fail (.repeatedOrdinal ordinal)
            else fitUnknownData poorer header members ordinal value)
          (if ordinal ∈ seen then fail (.repeatedOrdinal ordinal)
            else fitUnknownData richer header members ordinal value) := by
        split
        · exact .refl _
        · exact fitUnknownData_follows environments header members ordinal value
      refine .bind (.within _ first) fun _ => ?_
      exact .bind (inductionHypothesis (ordinal :: seen)) fun _ => .refl _

section Records

variable (header : RecordHeader) {members : List (Member Declaration)}
  (contents : ∀ member ∈ members, ∀ value,
    Follows (poorer.Lacks richer) (fit poorer member.content value)
      (fit richer member.content value))
include contents

omit environments in
/-- A member is compared by its content. -/
theorem fitMember_follows {member : Member Declaration} (declared : member ∈ members)
    (value : Value) :
    Follows (poorer.Lacks richer) (fitMember (member.map (fit poorer)) value)
      (fitMember (member.map (fit richer)) value) :=
  .bind (.within _ (contents member declared value)) fun _ => .refl _

omit environments in
/-- A struct is compared member by member, as the scan of its fields is the same. -/
theorem fitStruct_follows (fields : List (Field Value)) :
    Follows (poorer.Lacks richer)
      (fitStruct header (members.map (Member.map (fit poorer))) fields)
      (fitStruct header (members.map (Member.map (fit richer))) fields) := by
  unfold fitStruct
  split
  · exact .refl _
  simp only [knownFields_map, List.mapM_map]
  refine .bind (.refl _) fun known => ?_
  refine .bind (.mapM fun member declared => ?_) fun _ => .refl _
  simp only [Function.comp_apply, Member.map]
  cases known.lookup member.name with
  | none => exact .refl _
  | some value => exact fitMember_follows contents declared value

/-- A union is compared by its only field. -/
theorem fitUnion_follows (fields : List (Field Value)) :
    Follows (poorer.Lacks richer)
      (fitUnion poorer header (members.map (Member.map (fit poorer))) fields)
      (fitUnion richer header (members.map (Member.map (fit richer))) fields) := by
  match fields with
  | [] => exact .refl _
  | first :: second :: others =>
    simp only [fitUnion]
    exact .refl _
  | [⟨.declared name, value⟩] =>
    simp only [fitUnion, Member.named?_map]
    cases found : Member.named? members name with
    | none => exact .refl _
    | some member =>
      have declared : member ∈ members := (Member.mem_of_named? found).1
      exact .bind (.within _ (contents member declared value)) fun _ => .refl _
  | [⟨.unknown ordinal, value⟩] =>
    simp only [fitUnion, fitUnknownData_map]
    refine .bind (.within _ ?_) fun _ => .refl _
    exact fitUnknownData_follows environments header members ordinal value

/-- A table is compared by its unknown fields and then member by member. -/
theorem fitTable_follows (fields : List (Field Value)) :
    Follows (poorer.Lacks richer)
      (fitTable poorer header (members.map (Member.map (fit poorer))) fields)
      (fitTable richer header (members.map (Member.map (fit richer))) fields) := by
  simp only [fitTable, knownFields_map, fitUnknownFields_map, presentMembers_map, List.mapM_map]
  refine .bind (.refl _) fun known => ?_
  refine .bind (fitUnknownFields_follows environments header members [] fields) fun _ => ?_
  refine .bind (.mapM fun chosen present => ?_) fun _ => .refl _
  have declared : chosen.1 ∈ members :=
    (presentMembers_sublist members known).subset (List.mem_map_of_mem present)
  exact fitMember_follows contents declared chosen.2

end Records

/-- The values that every declaration treats alike are compared apart from its own rules. -/
theorem fitPresent_follows (declaration : Declaration) {first later : Fitter}
    (present : ∀ value, Follows (poorer.Lacks richer) (first value) (later value))
    (value : Value) :
    Follows (poorer.Lacks richer) (fitPresent poorer declaration first value)
      (fitPresent richer declaration later value) := by
  cases value with
  | null => exact fitNull_follows environments declaration
  | unknownData data => exact .refl _
  | _ => exact present _

/-- Fitting in richer surroundings follows fitting in poorer ones.

The induction is on the declaration, whose parts are compared before it. -/
theorem fit_follows (declaration : Declaration) (value : Value) :
    Follows (poorer.Lacks richer) (fit poorer declaration value)
      (fit richer declaration value) := by
  induction declaration using Declaration.memberwise generalizing value with
  | primitive subtype | bits scalar | enumeration scalar | string nullable =>
    rw [fit, fit]
    exact fitPresent_follows environments _ (fun _ => .refl _) value
  | handle subtype rights nullable =>
    rw [fit, fit]
    exact fitPresent_follows environments _ (fitHandle_follows environments _ subtype) value
  | array element size inductionHypothesis =>
    rw [fit, fit]
    exact fitPresent_follows environments _
      (fitArray_follows environments _ size inductionHypothesis) value
  | vector element nullable inductionHypothesis =>
    rw [fit, fit]
    exact fitPresent_follows environments _
      (fitVector_follows environments _ inductionHypothesis) value
  | record header members inductionHypothesis =>
    rw [fit, fit, fitters_eq_map, fitters_eq_map]
    refine fitPresent_follows environments _ (fun present => ?_) value
    cases present with
    | record fields =>
      simp only [fitRecord]
      cases header.kind with
      | struct => exact fitStruct_follows header inductionHypothesis fields
      | union => exact fitUnion_follows environments header inductionHypothesis fields
      | table => exact fitTable_follows environments header inductionHypothesis fields
    | _ => exact .refl _

end Richer

/-- Rust spells every handle subtype that Go spells. -/
theorem supportsHandle_rust_of_go {subtype : HandleSubtype}
    (supported : GoWriter.supportsHandle subtype = true) :
    RustWriter.supportsHandle subtype = true := by
  cases subtype <;> first | rfl | exact nomatch supported

/-- With one handle table, the surroundings of Rust are no poorer than those of Go. -/
theorem within_rust_of_go (go : GoWriter) (rust : RustWriter) (handles : HandleTable) :
    ((Writer.go go).environment handles).Within ((Writer.rust rust).environment handles) where
  entries := Nat.le_refl _
  subtypes _ supported := supportsHandle_rust_of_go supported

/-- What is fitted with a handle table for a target is fitted to the same literal with any table
that is no shorter, for any target that can spell the same subtypes; and a value that is
fitted only there fails here because a subtype cannot be spelled or an index is out of range.

So Rust takes what Go takes, with the same literal, and what only Rust takes fails in Go for a
subtype that Go cannot spell. -/
theorem fit_of_richer_surroundings (target other : Target) (supports spells : HandleSubtype → Bool)
    (subtypes : ∀ subtype, supports subtype = true → spells subtype = true)
    (handles longer : HandleTable) (entries : handles.length ≤ longer.length)
    (declaration : Declaration) (value : Value) :
    (∀ literal, fit ⟨target, supports, handles.length⟩ declaration value = .ok literal →
      fit ⟨other, spells, longer.length⟩ declaration value = .ok literal) ∧
    (∀ failure literal,
      fit ⟨target, supports, handles.length⟩ declaration value = .error failure →
      fit ⟨other, spells, longer.length⟩ declaration value = .ok literal →
        failure.fault.category = .unsupportedHandleSubtype ∨
        failure.fault.category = .handleIndexOutOfRange) ∧
    ∀ (go : GoWriter) (rust : RustWriter) (table : HandleTable),
      (∀ literal, (Writer.go go).fit table declaration value = .ok literal →
        (Writer.rust rust).fit table declaration value = .ok literal) ∧
      ∀ failure literal, (Writer.go go).fit table declaration value = .error failure →
        (Writer.rust rust).fit table declaration value = .ok literal →
          failure.fault.category = .unsupportedHandleSubtype := by
  have within : Environment.Within ⟨target, supports, handles.length⟩
      ⟨other, spells, longer.length⟩ := ⟨entries, subtypes⟩
  have follows := fit_follows within declaration value
  refine ⟨follows.success, fun failure literal fails fits => ?_, fun go rust table => ?_⟩
  · exact (follows.lack failure literal fails fits).category
  · have targets := fit_follows (within_rust_of_go go rust table) declaration value
    refine ⟨targets.success, fun failure literal fails fits => ?_⟩
    exact (targets.lack failure literal fails fits).category_of_entries rfl

/-- A channel at the first entry of a table is fitted alike for Go and, with a longer table of
other handles, for Rust. An absent socket is fitted for Rust only, and a reference to a second
entry with the longer table only. -/
theorem fit_of_richer_surroundings_handles :
    let handles : HandleTable := [⟨.channel, ⟨3⟩⟩]
    let longer : HandleTable := [⟨.vmo, ⟨0⟩⟩, ⟨.event, ⟨0⟩⟩]
    let go : Environment := ⟨.go, GoWriter.supportsHandle, handles.length⟩
    let rust : Environment := ⟨.rust, RustWriter.supportsHandle, longer.length⟩
    let channels : Declaration := .vector (.handle .channel ⟨0⟩ false) false
    let socket : Declaration := .handle .socket ⟨0⟩ true
    let first : Value := .list [.handle ⟨0, some ⟨1⟩⟩]
    let both : Value := .list [.handle ⟨0, none⟩, .handle ⟨1, none⟩]
    fit go channels first = fit rust channels first ∧
    (∃ failure literal, fit go socket .null = .error failure ∧ fit rust socket .null = .ok literal ∧
      failure.fault.category = .unsupportedHandleSubtype) ∧
    ∃ failure literal, fit go channels both = .error failure ∧ fit rust channels both = .ok literal ∧
      (failure.fault.category = .unsupportedHandleSubtype ∨
        failure.fault.category = .handleIndexOutOfRange) := by
  intro handles longer go rust channels socket first both
  have agree := fit_of_richer_surroundings .go .rust GoWriter.supportsHandle
    RustWriter.supportsHandle @supportsHandle_rust_of_go handles longer (by decide)
  have fitted : fit go channels first =
      .ok (.list (.vector (.handle .channel false) false) [.handle 0 .channel (some ⟨1⟩)]) := rfl
  refine ⟨?_, ⟨⟨.unsupportedHandle .socket .go, .root⟩, _, rfl, rfl, ?_⟩,
    ⟨⟨.handleOutOfRange 1 1, .value [.index 1]⟩, _, rfl, rfl, ?_⟩⟩
  · rw [fitted]
    exact ((agree channels first).1 _ fitted).symm
  · obtain ⟨-, -, targets⟩ := agree socket .null
    exact (targets .standard .standard handles).2 _ _ rfl rfl
  · obtain ⟨-, lacks, -⟩ := agree channels both
    exact lacks _ _ rfl rfl

end Literal

end FixtureLiterals
