import FixtureLiterals.Proofs.Fitting.Declarations
import FixtureLiterals.Proofs.Fitting.Routes

/-!
# Where a fitter fails

A fitter fails for the value as a whole, at a key of a record that may not stand there, or
inside a part; in the last case the part fails alone for the same cause, and its failure is
seen from the whole by the step in front. There is one statement for each scan and each
shape, about every failure that may come out of it, and none of them follows the order of
checks: what is said of two steps in sequence is what is said of each.

A step into an item or into a declared member that the record sets once always leads to a
part that is fitted on its own. The other steps that a route may end with are an unknown
ordinal, and a name that is undeclared or repeated.
-/

namespace FixtureLiterals

section Sequences

variable {ε α β : Type}

/-- Two steps fail exactly if the first does, or the second on the result of the first. -/
theorem bind_eq_error_iff (outcome : Except ε α) (next : α → Except ε β) (failure : ε) :
    outcome >>= next = .error failure ↔
      outcome = .error failure ∨ ∃ middle, outcome = .ok middle ∧ next middle = .error failure := by
  cases outcome <;> simp [bind, Except.bind]

/-- A list is refused exactly for the first of its members that is, behind members that are
processed. -/
theorem mapM_eq_error_iff (step : α → Except ε β) (members : List α) (failure : ε) :
    members.mapM step = .error failure ↔
      ∃ before member after, members = before ++ member :: after ∧
        (∀ earlier ∈ before, ∃ result, step earlier = .ok result) ∧
        step member = .error failure := by
  induction members with
  | nil =>
    constructor
    · intro fails
      exact nomatch fails
    · rintro ⟨before, member, after, listed, -⟩
      exact absurd listed (by simp)
  | cons first members inductionHypothesis =>
    rw [List.mapM_cons, bind_eq_error_iff]
    constructor
    · rintro (fails | ⟨result, succeeds, rest⟩)
      · exact ⟨[], first, members, rfl, nofun, fails⟩
      · rcases (bind_eq_error_iff ..).mp rest with later | ⟨_, _, impossible⟩
        · obtain ⟨before, member, after, rfl, passed, fails⟩ := inductionHypothesis.mp later
          exact ⟨first :: before, member, after, rfl,
            List.forall_mem_cons.mpr ⟨⟨result, succeeds⟩, passed⟩, fails⟩
        · exact nomatch impossible
    · rintro ⟨before, member, after, listed, passed, fails⟩
      cases before with
      | nil =>
        obtain ⟨rfl, rfl⟩ := List.cons.inj listed
        exact .inl fails
      | cons _ before =>
        obtain ⟨rfl, rfl⟩ := List.cons.inj listed
        obtain ⟨⟨result, succeeds⟩, others⟩ := List.forall_mem_cons.mp passed
        refine .inr ⟨result, succeeds, (bind_eq_error_iff ..).mpr (.inl ?_)⟩
        exact inductionHypothesis.mpr ⟨before, member, after, rfl, others, fails⟩

end Sequences

/-- The fault of a value for its declaration, as every fault is but one: that the type of a test
case is not declared is found before its value is looked at. -/
def Fault.OfValue : Fault → Prop
  | .missingDeclaration _ => False
  | _ => True

/-- A declaration that contains no other one. -/
def Declaration.IsLeaf : Declaration → Prop
  | .array _ _ | .vector _ _ | .record _ _ => False
  | _ => True

/-- Only failures of a kind come out. -/
def FailsOnly (Allowed : Failure → Prop) {α : Type} (outcome : Except Failure α) : Prop :=
  ∀ failure, outcome = .error failure → Allowed failure

namespace FailsOnly

variable {Allowed : Failure → Prop} {α β : Type}

/-- A success is no failure. -/
theorem ok (result : α) : FailsOnly Allowed (.ok result) := nofun

/-- A failure as a whole has the root for its place. -/
theorem fail {fault : Fault} (allowed : Allowed (.atRoot fault)) :
    FailsOnly Allowed (FixtureLiterals.fail fault : Except Failure α) := by
  intro failure fails
  obtain rfl : Failure.atRoot fault = failure := Except.error.inj fails
  exact allowed

/-- Two steps fail where the first does, or the second on the result of the first. -/
theorem bind {outcome : Except Failure α} {next : α → Except Failure β}
    (first : FailsOnly Allowed outcome)
    (second : ∀ middle, outcome = .ok middle → FailsOnly Allowed (next middle)) :
    FailsOnly Allowed (outcome >>= next) := by
  cases outcome with
  | error failure =>
    intro other fails
    obtain rfl : failure = other := Except.error.inj fails
    exact first failure rfl
  | ok middle => exact second middle rfl

/-- A failure in a part is seen from the whole. -/
theorem within {segment : Segment} {outcome : Except Failure α}
    (inside : FailsOnly (fun failure => Allowed ⟨failure.fault, failure.place.within segment⟩)
      outcome) :
    FailsOnly Allowed (FixtureLiterals.within segment outcome) := by
  cases outcome with
  | ok result => exact ok result
  | error failure =>
    intro other fails
    obtain rfl := Except.error.inj fails
    exact inside failure rfl

/-- A list of steps fails where one of them does. -/
theorem mapM {step : α → Except Failure β} {members : List α}
    (steps : ∀ member ∈ members, FailsOnly Allowed (step member)) :
    FailsOnly Allowed (members.mapM step) := by
  induction members with
  | nil => exact ok []
  | cons member members inductionHypothesis =>
    obtain ⟨first, others⟩ := List.forall_mem_cons.mp steps
    rw [List.mapM_cons]
    refine bind first fun result _ => ?_
    exact bind (inductionHypothesis others) fun results _ => ok _

end FailsOnly

namespace Literal

section Leaves

variable {Allowed : Failure → Prop}
  (root : ∀ fault : Fault, fault.OfValue → Allowed (.atRoot fault)) (environment : Environment)
include root

/-- A handle subtype fails as a whole. -/
theorem checkSubtype_failsOnly (subtype : HandleSubtype) :
    FailsOnly Allowed (environment.checkSubtype subtype) := by
  unfold Environment.checkSubtype
  split
  · exact .ok _
  · exact .fail (root _ trivial)

/-- An index fails as a whole. -/
theorem checkIndex_failsOnly (index : UInt64) :
    FailsOnly Allowed (environment.checkIndex index) := by
  unfold Environment.checkIndex
  split
  · exact .ok _
  · exact .fail (root _ trivial)

/-- Several indices fail as a whole. -/
theorem checkIndices_failsOnly (indices : List UInt64) :
    FailsOnly Allowed (indices.forM environment.checkIndex) := by
  induction indices with
  | nil => exact .ok _
  | cons index indices inductionHypothesis =>
    exact .bind (checkIndex_failsOnly root environment index) fun _ _ => inductionHypothesis

/-- A declared name fails as a whole. -/
theorem ofDeclared_failsOnly (name : String) :
    FailsOnly Allowed (QualifiedName.ofDeclared name) := by
  unfold QualifiedName.ofDeclared
  split
  · exact .ok _
  · exact .fail (root _ trivial)

/-- The spelling of a type fails as a whole, however deep in the type it does. -/
theorem ofDeclaration_failsOnly (declaration : Declaration) :
    FailsOnly Allowed (TypeReference.ofDeclaration environment declaration) := by
  induction declaration using Declaration.memberwise with
  | primitive subtype | string nullable => exact .ok _
  | bits scalar | enumeration scalar | record header members =>
    exact .bind (ofDeclared_failsOnly root _) fun _ _ => .ok _
  | handle subtype rights nullable =>
    exact .bind (checkSubtype_failsOnly root environment subtype) fun _ _ => .ok _
  | array element size inductionHypothesis | vector element nullable inductionHypothesis =>
    exact .bind inductionHypothesis fun _ _ => .ok _

/-- A value of another kind fails as a whole. -/
theorem mismatch_failsOnly {α : Type} (declaration : Declaration) (value : Value) :
    FailsOnly Allowed (mismatch declaration value : Except Failure α) :=
  .fail (root _ trivial)

/-- An integer fails as a whole. -/
theorem fitInteger_failsOnly (declaration : Declaration) (subtype : Primitive) (value : Value) :
    FailsOnly Allowed (fitInteger declaration subtype value) := by
  unfold fitInteger
  split
  · split
    · exact .ok _
    · exact .fail (root _ trivial)
  · exact mismatch_failsOnly root declaration value

/-- A primitive fails as a whole. -/
theorem fitPrimitive_failsOnly (subtype : Primitive) (value : Value) :
    FailsOnly Allowed (fitPrimitive subtype value) := by
  have mismatched :
      FailsOnly Allowed (mismatch (.primitive subtype) value : Except Failure Literal) :=
    mismatch_failsOnly root _ value
  cases value with
  | bool content =>
    simp only [fitPrimitive]
    split
    · exact .ok _
    · exact mismatched
  | integer number =>
    simp only [fitPrimitive]
    split
    · exact .bind (fitInteger_failsOnly root _ subtype _) fun _ _ => .ok _
    · exact mismatched
  | float number =>
    simp only [fitPrimitive]
    split
    · split
      · exact .fail (root _ trivial)
      · exact .ok _
    · exact mismatched
  | rawFloat pattern =>
    simp only [fitPrimitive]
    split
    · split
      · exact .ok _
      · exact .fail (root _ trivial)
    · exact mismatched
  | _ => exact mismatched

/-- A named scalar fails as a whole. -/
theorem fitScalar_failsOnly (declaration : Declaration) (scalar : NamedScalar)
    (build : QualifiedName → Integer → Literal) (value : Value) :
    FailsOnly Allowed (fitScalar declaration scalar build value) := by
  refine .bind (ofDeclared_failsOnly root scalar.name) fun _ _ => ?_
  exact .bind (fitInteger_failsOnly root declaration scalar.subtype value) fun _ _ => .ok _

/-- A handle fails as a whole. -/
theorem fitHandle_failsOnly (declaration : Declaration) (subtype : HandleSubtype) (value : Value) :
    FailsOnly Allowed (fitHandle environment declaration subtype value) := by
  cases value with
  | handle reference =>
    refine .bind (checkIndex_failsOnly root environment reference.index) fun _ _ => ?_
    exact .bind (checkSubtype_failsOnly root environment subtype) fun _ _ => .ok _
  | _ => exact mismatch_failsOnly root declaration _

/-- A string fails as a whole. -/
theorem fitString_failsOnly (declaration : Declaration) (nullable : Bool) (value : Value) :
    FailsOnly Allowed (fitString declaration nullable value) := by
  cases value with
  | string content => exact .ok _
  | _ => exact mismatch_failsOnly root declaration _

/-- An absent value fails as a whole. -/
theorem fitNull_failsOnly (declaration : Declaration) :
    FailsOnly Allowed (fitNull environment declaration) := by
  unfold fitNull
  split
  · exact .fail (root _ trivial)
  · cases declaration with
    | handle subtype rights nullable =>
      exact .bind (checkSubtype_failsOnly root environment subtype) fun _ _ => .ok _
    | _ => exact .ok _

/-- The content of an unknown field fails as a whole. -/
theorem fitUnknownData_failsOnly {α : Type} (header : RecordHeader) (members : List (Member α))
    (ordinal : UInt64) (value : Value) :
    FailsOnly Allowed (fitUnknownData environment header members ordinal value) := by
  unfold fitUnknownData
  split
  · exact .fail (root _ trivial)
  split
  · exact .fail (root _ trivial)
  split
  · split
    · exact .fail (root _ trivial)
    · exact .bind (checkIndices_failsOnly root environment _) fun _ _ => .ok _
  · exact .fail (root _ trivial)

/-- The absent value and stray unknown data fail as a whole, whatever the declaration is. All
other values fail as the declaration's own rules do. -/
theorem fitPresent_failsOnly {declaration : Declaration} {fitter : Fitter} {value : Value}
    (own : FailsOnly Allowed (fitter value)) :
    FailsOnly Allowed (fitPresent environment declaration fitter value) := by
  cases value with
  | null => exact fitNull_failsOnly root environment declaration
  | unknownData data => exact .fail (root _ trivial)
  | _ => exact own

/-- A declaration that contains no other one fails as a whole. -/
theorem fit_failsOnly_of_isLeaf {declaration : Declaration} (leaf : declaration.IsLeaf)
    (value : Value) : FailsOnly Allowed (fit environment declaration value) := by
  cases declaration with
  | array _ _ | vector _ _ | record _ _ => exact absurd leaf id
  | primitive subtype =>
    rw [fit]
    exact fitPresent_failsOnly root environment (fitPrimitive_failsOnly root subtype value)
  | bits scalar | enumeration scalar =>
    rw [fit]
    exact fitPresent_failsOnly root environment (fitScalar_failsOnly root _ scalar _ value)
  | handle subtype rights nullable =>
    rw [fit]
    exact fitPresent_failsOnly root environment
      (fitHandle_failsOnly root environment _ subtype value)
  | string nullable =>
    rw [fit]
    exact fitPresent_failsOnly root environment (fitString_failsOnly root _ nullable value)

end Leaves

section Scans

variable {Allowed : Failure → Prop} {α : Type} (header : RecordHeader) (members : List (Member α))

/-- Items fail where one of them does. -/
theorem fitItems_failsOnly {fitItem : Fitter} {position : Nat} {items : List Value}
    (inside : ∀ (index : Nat) item, items[index]? = some item →
      FailsOnly (fun failure =>
        Allowed ⟨failure.fault, failure.place.within (.index (position + index))⟩) (fitItem item)) :
    FailsOnly Allowed (fitItems fitItem position items) := by
  induction items generalizing position with
  | nil => exact .ok _
  | cons item items inductionHypothesis =>
    refine .bind (.within (inside 0 item rfl)) fun _ _ => ?_
    refine .bind (inductionHypothesis fun index other listed => ?_) fun _ _ => .ok _
    rw [Nat.add_assoc, Nat.add_comm 1 index]
    exact inside (index + 1) other listed

/-- The scan for names fails at a name of a field that is undeclared, was seen before, or
repeats. -/
theorem knownFields_failsOnly {known : List (String × Value)} {fields : List (Field Value)}
    (refused : ∀ name (fault : Fault), fault.OfValue → .declared name ∈ fields.map Field.key →
      (∀ member ∈ members, member.name ≠ name) ∨ name ∈ known.map Prod.fst ∨
        1 < (fields.map Field.key).count (.declared name) →
      Allowed ⟨fault, .value [.field name]⟩) :
    FailsOnly Allowed (knownFields header members known fields) := by
  induction fields generalizing known with
  | nil => exact .ok _
  | cons field fields inductionHypothesis =>
    obtain ⟨key, value⟩ := field
    cases key with
    | unknown ordinal =>
      refine inductionHypothesis fun name fault ofValue present cause => ?_
      refine refused name fault ofValue (List.mem_cons_of_mem _ present) ?_
      have apart : FieldKey.unknown ordinal ≠ .declared name := by
        intro same
        cases same
      rwa [List.map_cons, List.count_cons_of_ne apart]
    | declared name =>
      have here := fun fault ofValue => refused name fault ofValue List.mem_cons_self
      rw [knownFields]
      split
      case isTrue undeclared =>
        refine .within (.fail (here _ trivial (.inl fun member declared same => ?_)))
        have found := (Member.named?_isSome_iff members name).mpr ⟨member, declared, same⟩
        rw [Option.isNone_iff_eq_none.mp undeclared] at found
        cases found
      split
      case isTrue seen =>
        refine .within (.fail (here _ trivial (.inr (.inl ?_))))
        obtain ⟨content, found⟩ := Option.isSome_iff_exists.mp seen
        by_contra absent
        have missing : known.lookup name = none := by
          refine List.lookup_eq_none_iff.mpr fun entry listed => bne_iff_ne.mpr ?_
          rintro rfl
          exact absent (List.mem_map_of_mem listed)
        cases found.symm.trans missing
      refine inductionHypothesis fun other fault ofValue present cause => ?_
      refine refused other fault ofValue (List.mem_cons_of_mem _ present) ?_
      by_cases same : other = name
      · -- The name is in front and again behind, so it stands there twice.
        subst same
        refine .inr (.inr ?_)
        rw [List.map_cons, List.count_cons_self]
        exact Nat.lt_add_of_pos_left (List.count_pos_iff.mpr present)
      · have apart : FieldKey.declared name ≠ .declared other := fun clash =>
          same (FieldKey.declared.inj clash).symm
        rw [List.map_cons, List.count_cons_of_ne apart]
        refine cause.imp_right (Or.imp_left fun seen => ?_)
        exact (List.mem_cons.mp seen).resolve_left same

/-- The scan for ordinals fails at an unknown ordinal of a field. -/
theorem fitUnknownFields_failsOnly (environment : Environment) {seen : List UInt64}
    {fields : List (Field Value)}
    (refused : ∀ ordinal (fault : Fault), fault.OfValue → .unknown ordinal ∈ fields.map Field.key →
      Allowed ⟨fault, .value [.unknownOrdinal ordinal]⟩) :
    FailsOnly Allowed (fitUnknownFields environment header members seen fields) := by
  induction fields generalizing seen with
  | nil => exact .ok _
  | cons field fields inductionHypothesis =>
    obtain ⟨key, value⟩ := field
    have behind : ∀ {seen}, FailsOnly Allowed
        (fitUnknownFields environment header members seen fields) :=
      inductionHypothesis fun ordinal fault ofValue present =>
        refused ordinal fault ofValue (List.mem_cons_of_mem _ present)
    cases key with
    | declared name => exact behind
    | unknown ordinal =>
      have here := fun fault ofValue => refused ordinal fault ofValue List.mem_cons_self
      refine .bind (.within ?_) fun _ _ => .bind behind fun _ _ => .ok _
      split
      · exact .fail (here _ trivial)
      · exact fitUnknownData_failsOnly here environment header members ordinal value

end Scans

section Shapes

variable {Allowed : Failure → Prop}

/-- The failures of a record include those that come out of its fields. -/
structure Includes (Allowed : Failure → Prop) (members : List (Member Fitter))
    (fields : List (Field Value)) : Prop where
  /-- The record may fail as a whole. -/
  whole : ∀ fault : Fault, fault.OfValue → Allowed (.atRoot fault)
  /-- It may fail at a name that is undeclared or repeats. -/
  name : ∀ name (fault : Fault), fault.OfValue → .declared name ∈ fields.map Field.key →
    (∀ member ∈ members, member.name ≠ name) ∨ 1 < (fields.map Field.key).count (.declared name) →
    Allowed ⟨fault, .value [.field name]⟩
  /-- It may fail at an unknown ordinal. -/
  ordinal : ∀ ordinal (fault : Fault), fault.OfValue → .unknown ordinal ∈ fields.map Field.key →
    Allowed ⟨fault, .value [.unknownOrdinal ordinal]⟩
  /-- It may fail inside what a member is set to. -/
  member : ∀ member ∈ members, ∀ value, (Field.underNames fields).lookup member.name = some value →
    FailsOnly (fun failure => Allowed ⟨failure.fault, failure.place.within (.field member.name)⟩)
      (member.content value)

namespace Includes

variable {members : List (Member Fitter)} {fields : List (Field Value)}
  (includes : Includes Allowed members fields) (environment : Environment) (header : RecordHeader)
include includes

/-- The name of a record fails as a whole. -/
theorem declared_failsOnly (name : String) : FailsOnly Allowed (QualifiedName.ofDeclared name) :=
  ofDeclared_failsOnly includes.whole name

/-- The scan for names fails at one of the names. -/
theorem known_failsOnly : FailsOnly Allowed (knownFields header members [] fields) := by
  refine knownFields_failsOnly header members fun name fault ofValue present cause => ?_
  refine includes.name name fault ofValue present (cause.imp_right fun behind => ?_)
  exact behind.resolve_left nofun

/-- A member that is set fails inside what it is set to. -/
theorem fitMember_failsOnly {member : Member Fitter} (declared : member ∈ members) {value : Value}
    (set : (Field.underNames fields).lookup member.name = some value) :
    FailsOnly Allowed (fitMember member value) :=
  .bind (.within (includes.member member declared value set)) fun _ _ => .ok _

/-- A struct fails at its unknown ordinals, at its names, in its members, or as a whole. -/
theorem fitStruct_failsOnly : FailsOnly Allowed (fitStruct header members fields) := by
  unfold fitStruct
  split
  case h_1 ordinal first =>
    refine .within (.fail (includes.ordinal ordinal _ trivial ?_))
    obtain ⟨field, listed, keyed⟩ := List.exists_of_findSome?_eq_some first
    refine List.mem_map.mpr ⟨field, listed, ?_⟩
    split at keyed
    case h_1 key => exact key.trans (congrArg _ (Option.some.inj keyed))
    case h_2 => exact nomatch keyed
  case h_2 =>
    refine .bind (includes.known_failsOnly header) fun known scanned => ?_
    obtain ⟨sets, rfl⟩ := (knownFields_eq_ok_iff ..).mp scanned
    refine .bind (.mapM fun member declared => ?_) fun _ _ =>
      .bind (includes.declared_failsOnly _) fun _ _ => .ok _
    rw [lookup_reverse _ sets.distinct]
    split
    case h_1 value set => exact includes.fitMember_failsOnly declared set
    case h_2 => exact .fail (includes.whole _ trivial)

/-- A union fails at its one field, in it, or as a whole. -/
theorem fitUnion_failsOnly : FailsOnly Allowed (fitUnion environment header members fields) := by
  rcases fields with _ | ⟨⟨key, value⟩, _ | ⟨second, others⟩⟩
  case nil => exact .fail (includes.whole _ trivial)
  case cons.cons =>
    simp only [fitUnion]
    exact .fail (includes.whole _ trivial)
  case cons.nil =>
    cases key with
    | declared name =>
      simp only [fitUnion]
      cases found : Member.named? members name with
      | none =>
        refine .within (.fail (includes.name name _ trivial List.mem_cons_self (.inl ?_)))
        intro member declared named
        have known := (Member.named?_isSome_iff members name).mpr ⟨member, declared, named⟩
        rw [found] at known
        cases known
      | some member =>
        obtain ⟨declared, rfl⟩ := Member.mem_of_named? found
        refine .bind (.within (includes.member member declared value ?_)) fun _ _ =>
          .bind (includes.declared_failsOnly _) fun _ _ => .ok _
        simp [Field.underNames]
    | unknown ordinal =>
      refine .bind (.within (fitUnknownData_failsOnly ?_ environment header members ordinal value))
        fun _ _ => .bind (includes.declared_failsOnly _) fun _ _ => .ok _
      exact fun fault ofValue => includes.ordinal ordinal fault ofValue List.mem_cons_self

/-- A table fails at its names, at its unknown ordinals, in its members, or as a whole. -/
theorem fitTable_failsOnly : FailsOnly Allowed (fitTable environment header members fields) := by
  refine .bind (includes.known_failsOnly header) fun known scanned => ?_
  obtain ⟨sets, rfl⟩ := (knownFields_eq_ok_iff ..).mp scanned
  refine .bind (fitUnknownFields_failsOnly header members environment includes.ordinal)
    fun _ _ => ?_
  refine .bind (.mapM fun chosen listed => ?_) fun _ _ =>
    .bind (includes.declared_failsOnly _) fun _ _ => .ok _
  rw [presentMembers_reverse sets] at listed
  obtain ⟨declared, set, -⟩ := (mem_presentMembers sets chosen).mp listed
  exact includes.fitMember_failsOnly declared
    ((lookup_underNames sets chosen.1.name chosen.2).mpr set)

end Includes

variable (root : ∀ fault : Fault, fault.OfValue → Allowed (.atRoot fault)) (environment : Environment)
include root

/-- A list fails as a whole, or in one of its items. -/
theorem fitList_failsOnly (declaration : Declaration) {fitItem : Fitter} {items : List Value}
    (inside : ∀ (index : Nat) item, items[index]? = some item →
      FailsOnly (fun failure => Allowed ⟨failure.fault, failure.place.within (.index index)⟩)
        (fitItem item)) :
    FailsOnly Allowed (fitList environment declaration fitItem items) := by
  refine .bind (ofDeclaration_failsOnly root environment declaration) fun _ _ => ?_
  refine .bind (fitItems_failsOnly fun index item listed => ?_) fun _ _ => .ok _
  rw [Nat.zero_add]
  exact inside index item listed

/-- A value fails as a whole, in one of its items, or as its fields do. -/
theorem fit_failsOnly {declaration : Declaration} {value : Value}
    (inItem : ∀ position item element, value.part? (.index position) = some item →
      declaration.part? (.index position) = some element →
      FailsOnly (fun failure => Allowed ⟨failure.fault, failure.place.within (.index position)⟩)
        (fit environment element item))
    (inFields : ∀ header members, declaration = .record header members →
      ∀ fields, value = .record fields →
      Includes Allowed (members.map (Member.map (fit environment))) fields) :
    FailsOnly Allowed (fit environment declaration value) := by
  cases declaration with
  | primitive _ | bits _ | enumeration _ | handle _ _ _ | string _ =>
    refine fit_failsOnly_of_isLeaf root environment ?_ value
    exact trivial
  | array element size =>
    rw [fit]
    refine fitPresent_failsOnly root environment ?_
    cases value with
    | list items =>
      simp only [fitArray]
      split
      · refine fitList_failsOnly root environment _ fun index item listed => ?_
        exact inItem index item element listed rfl
      · exact .fail (root _ trivial)
    | _ => exact mismatch_failsOnly root _ _
  | vector element nullable =>
    rw [fit]
    refine fitPresent_failsOnly root environment ?_
    cases value with
    | list items =>
      refine fitList_failsOnly root environment _ fun index item listed => ?_
      exact inItem index item element listed rfl
    | _ => exact mismatch_failsOnly root _ _
  | record header members =>
    rw [fit, fitters_eq_map]
    refine fitPresent_failsOnly root environment ?_
    cases value with
    | record fields =>
      have includes := inFields header members rfl fields rfl
      simp only [fitRecord]
      cases header.kind with
      | struct => exact includes.fitStruct_failsOnly header
      | union => exact includes.fitUnion_failsOnly environment header
      | table => exact includes.fitTable_failsOnly environment header
    | _ => exact mismatch_failsOnly root _ _

end Shapes

/-- Only faults of the value come out, wherever in it they are. -/
abbrev BlamesValue {α : Type} (outcome : Except Failure α) : Prop :=
  FailsOnly (fun failure => failure.fault.OfValue) outcome

/-- Whatever a value is not fitted for, it is a fault of the value.

The induction is on the declaration, whose parts blame the parts of the value. -/
theorem fit_blamesValue (environment : Environment) (declaration : Declaration) (value : Value) :
    BlamesValue (fit environment declaration value) := by
  induction declaration using Declaration.memberwise generalizing value with
  | primitive _ | bits _ | enumeration _ | handle _ _ _ | string _ =>
    exact fit_failsOnly (fun _ ofValue => ofValue) environment nofun nofun
  | array element _ inductionHypothesis | vector element _ inductionHypothesis =>
    refine fit_failsOnly (fun _ ofValue => ofValue) environment ?_ nofun
    intro position item other _ typed
    obtain rfl : element = other := Option.some.inj typed
    exact inductionHypothesis item
  | record header members inductionHypothesis =>
    refine fit_failsOnly (fun _ ofValue => ofValue) environment nofun ?_
    rintro _ _ ⟨⟩ fields rfl
    exact {
      whole := fun _ ofValue => ofValue
      name := fun _ _ ofValue _ _ => ofValue
      ordinal := fun _ _ ofValue _ => ofValue
      member := List.forall_mem_map.mpr fun member declared part _ =>
        inductionHypothesis member declared part }

end Literal

end FixtureLiterals
