import FixtureLiterals.Proofs.Fitting.Fields
import FixtureLiterals.Proofs.Pairwise
import FixtureLiterals.Proofs.Schema.Memberwise

/-!
# Values that are fitted alike

If a part of a value is exchanged for another, fitting the whole changes no more than fitting the
part does. What is taken for no change is a parameter: a likeness of faults and of literals that
literals keep if their parts are alike. It may be equality, and it may forget what a text does not
show.

Two outcomes match if they are both successes with like results, or both failures at the same
place with like faults. Sequences of steps, lists of steps and steps into a part keep this, so
each shape's rule is followed along its own definition, in both runs at once.

The fields of a record are compared one by one. What is compared is not their values but what the
members of their names make of them: a value is seen by several scans and fitted only once, or not
at all if the record fails before.
-/

namespace FixtureLiterals

/-- Outcomes that are both successes with related results, or both failures at the same place with
related faults. -/
inductive Matches (faults : Fault → Fault → Prop) {α β : Type} (results : α → β → Prop) :
    Except Failure α → Except Failure β → Prop where
  | ok {result : α} {other : β} (related : results result other) :
      Matches faults results (.ok result) (.ok other)
  | error {fault other : Fault} {place : Place} (related : faults fault other) :
      Matches faults results (.error ⟨fault, place⟩) (.error ⟨other, place⟩)

namespace Matches

variable {faults : Fault → Fault → Prop} {α β γ δ : Type}

/-- An outcome matches itself if everything is related to itself. -/
theorem refl {results : α → α → Prop} (sameFaults : ∀ fault, faults fault fault)
    (sameResults : ∀ result, results result result) (outcome : Except Failure α) :
    Matches faults results outcome outcome := by
  cases outcome with
  | ok result => exact .ok (sameResults result)
  | error failure => exact .error (sameFaults failure.fault)

/-- What matches in two steps matches. -/
theorem trans {results : α → α → Prop}
    (throughFaults : ∀ {one two three}, faults one two → faults two three → faults one three)
    (throughResults : ∀ {one two three}, results one two → results two three → results one three)
    {first second third : Except Failure α} (left : Matches faults results first second)
    (right : Matches faults results second third) : Matches faults results first third := by
  cases left with
  | ok related =>
    cases right with
    | ok others => exact .ok (throughResults related others)
  | error related =>
    cases right with
    | error others => exact .error (throughFaults related others)

/-- Matching outcomes are both successes or both failures. -/
theorem ok_or_error {results : α → β → Prop} {first : Except Failure α} {second : Except Failure β}
    (matched : Matches faults results first second) :
    (∃ result other, first = .ok result ∧ second = .ok other ∧ results result other) ∨
      ∃ failure other, first = .error failure ∧ second = .error other ∧
        faults failure.fault other.fault ∧ failure.place = other.place := by
  cases matched with
  | ok related => exact .inl ⟨_, _, rfl, rfl, related⟩
  | error related => exact .inr ⟨_, _, rfl, rfl, related, rfl⟩

/-- Where nothing is related but equals, outcomes match exactly if they are equal. -/
theorem eq_iff {first second : Except Failure α} : Matches Eq Eq first second ↔ first = second := by
  constructor
  · intro matched
    cases matched with
    | ok related => exact congrArg Except.ok related
    | error related => rw [related]
  · rintro rfl
    exact refl (fun _ => rfl) (fun _ => rfl) first

/-- Two steps match two others if each matches. -/
theorem bind {results : α → β → Prop} {others : γ → δ → Prop} {first : Except Failure α}
    {second : Except Failure β} {next : α → Except Failure γ} {after : β → Except Failure δ}
    (steps : Matches faults results first second)
    (rest : ∀ result other, results result other →
      Matches faults others (next result) (after other)) :
    Matches faults others (first >>= next) (second >>= after) := by
  cases steps with
  | ok related => exact rest _ _ related
  | error related => exact .error related

/-- Results of matching outcomes may be transformed. -/
theorem map {results : α → β → Prop} {others : γ → δ → Prop} {first : Except Failure α}
    {second : Except Failure β} {transform : α → γ} {change : β → δ}
    (steps : Matches faults results first second)
    (keeps : ∀ result other, results result other → others (transform result) (change other)) :
    Matches faults others (first >>= fun result => pure (transform result))
      (second >>= fun other => pure (change other)) :=
  steps.bind fun result other related => .ok (keeps result other related)

/-- A step into a part keeps the faults, and puts the same step in front of both places. -/
theorem within {results : α → β → Prop} (segment : Segment) {first : Except Failure α}
    {second : Except Failure β} (steps : Matches faults results first second) :
    Matches faults results (FixtureLiterals.within segment first)
      (FixtureLiterals.within segment second) := by
  cases steps with
  | ok related => exact .ok related
  | error related => exact .error related

/-- Lists of steps match if the steps match one by one. -/
theorem mapM {sources : α → β → Prop} {results : γ → δ → Prop} {step : α → Except Failure γ}
    {after : β → Except Failure δ} {members : List α} {others : List β}
    (listed : List.Forall₂ sources members others)
    (steps : ∀ member other, sources member other →
      Matches faults results (step member) (after other)) :
    Matches faults (List.Forall₂ results) (members.mapM step) (others.mapM after) := by
  induction listed with
  | nil => exact .ok .nil
  | cons head _ inductionHypothesis =>
    rw [List.mapM_cons, List.mapM_cons]
    apply bind (steps _ _ head)
    intro result other first
    exact map inductionHypothesis fun _ _ rest => .cons first rest

end Matches

/-- Entries under the same name whose contents are related. -/
def SameName {α β : Type} (contents : α → β → Prop) (entry : String × α) (other : String × β) :
    Prop :=
  entry.1 = other.1 ∧ contents entry.2 other.2

/-- Entries of equal contents under the same name are equal. -/
theorem sameName_eq {α : Type} : SameName (Eq : α → α → Prop) = Eq := by
  funext entry other
  exact propext (Prod.ext_iff.symm)

/-- A way to take faults for the same, and literals. Literals of like parts are alike. -/
structure Likeness where
  faults : Fault → Fault → Prop
  literals : Literal → Literal → Prop
  faults_refl : ∀ fault, faults fault fault
  literals_refl : ∀ literal, literals literal literal
  list : ∀ type elements others, List.Forall₂ literals elements others →
    literals (.list type elements) (.list type others)
  struct : ∀ name nullable fields others, List.Forall₂ (SameName literals) fields others →
    literals (.struct name nullable fields) (.struct name nullable others)
  union : ∀ name nullable field ordinal value other, literals value other →
    literals (.union name nullable field ordinal value) (.union name nullable field ordinal other)
  table : ∀ name nullable fields others unknown, List.Forall₂ (SameName literals) fields others →
    literals (.table name nullable fields unknown) (.table name nullable others unknown)

namespace Likeness

/-- Nothing is alike but equals. -/
def equality : Likeness where
  faults := Eq
  literals := Eq
  faults_refl _ := rfl
  literals_refl _ := rfl
  list _ _ _ each := by
    rw [List.forall₂_eq_eq_eq] at each
    rw [each]
  struct _ _ _ _ each := by
    rw [sameName_eq, List.forall₂_eq_eq_eq] at each
    rw [each]
  union _ _ _ _ _ _ same := by rw [same]
  table _ _ _ _ _ each := by
    rw [sameName_eq, List.forall₂_eq_eq_eq] at each
    rw [each]

variable (likeness : Likeness)

/-- Outcomes of fitting that a likeness takes for the same. -/
abbrev Same : Except Failure Literal → Except Failure Literal → Prop :=
  Matches likeness.faults likeness.literals

/-- An outcome is the same as itself. -/
theorem same_refl (outcome : Except Failure Literal) : likeness.Same outcome outcome :=
  .refl likeness.faults_refl likeness.literals_refl outcome

/-- An outcome of whatever kind is the same as itself. -/
theorem outcome_refl {α : Type} (outcome : Except Failure α) :
    Matches likeness.faults Eq outcome outcome :=
  .refl likeness.faults_refl (fun _ => rfl) outcome

/-- Items of two lists that are fitted alike. -/
def Items (element : Fitter) (item other : Value) : Prop :=
  likeness.Same (element item) (element other)

/-- An item is fitted like itself. -/
theorem items_refl (element : Fitter) (item : Value) : likeness.Items element item item :=
  likeness.same_refl _

variable (members : List (Member Fitter))

/-- Values under one name that are both absent or both present, and that each member of the name
fits alike. -/
structure Values (name : String) (value other : Value) : Prop where
  absent : value.isNull = other.isNull
  contents : ∀ member ∈ members, member.name = name →
    likeness.Same (member.content value) (member.content other)

/-- Values under an unknown ordinal that are the same data, or both no data and refused alike. -/
structure Carried (value other : Value) : Prop where
  data : ∀ data, value = .unknownData data ↔ other = .unknownData data
  kinds : likeness.faults (.unknownFieldKind value.kindName) (.unknownFieldKind other.kindName)

/-- Fields of two records that are fitted alike. -/
inductive Fields : Field Value → Field Value → Prop where
  | declared {name : String} {value other : Value} (values : likeness.Values members name value other) :
      Fields ⟨.declared name, value⟩ ⟨.declared name, other⟩
  | unknown {ordinal : UInt64} {value other : Value} (carried : likeness.Carried value other) :
      Fields ⟨.unknown ordinal, value⟩ ⟨.unknown ordinal, other⟩

/-- A field is fitted like itself. -/
theorem fields_refl (field : Field Value) : likeness.Fields members field field := by
  obtain ⟨key, value⟩ := field
  cases key with
  | declared name => exact .declared ⟨rfl, fun _ _ _ => likeness.same_refl _⟩
  | unknown ordinal => exact .unknown ⟨fun _ => Iff.rfl, likeness.faults_refl _⟩

/-- Entries of a scan for names that are fitted alike. -/
def Entries (entry other : String × Value) : Prop :=
  entry.1 = other.1 ∧ likeness.Values members entry.1 entry.2 other.2

variable {likeness members} {known others : List (String × Value)}

/-- Looking up a name finds nothing on both sides, or values that are fitted alike. -/
theorem lookup_entries (listed : List.Forall₂ (likeness.Entries members) known others)
    (name : String) :
    (known.lookup name = none ∧ others.lookup name = none) ∨
      ∃ value other, known.lookup name = some value ∧ others.lookup name = some other ∧
        likeness.Values members name value other := by
  induction listed with
  | nil => exact .inl ⟨rfl, rfl⟩
  | @cons entry other _ _ head _ inductionHypothesis =>
    obtain ⟨first, value⟩ := entry
    obtain ⟨_, content⟩ := other
    obtain ⟨⟨⟩, values⟩ := head
    by_cases same : name = first
    · subst same
      exact .inr ⟨value, content, by simp, by simp, values⟩
    · have later : (name == first) = false := beq_eq_false_iff_ne.mpr same
      simpa only [List.lookup_cons, later] using inductionHypothesis

end Likeness

namespace Literal

open Likeness

variable {likeness : Likeness} {members : List (Member Fitter)} (header : RecordHeader)
  (environment : Environment) {fields changed : List (Field Value)}

section Scans

/-- The scan for names passes on both sides, with entries that are fitted alike, or fails on both
sides. -/
theorem knownFields_same (listed : List.Forall₂ (likeness.Fields members) fields changed)
    {known others : List (String × Value)}
    (before : List.Forall₂ (likeness.Entries members) known others) :
    Matches likeness.faults (List.Forall₂ (likeness.Entries members))
      (knownFields header members known fields) (knownFields header members others changed) := by
  induction listed generalizing known others with
  | nil => exact .ok before
  | cons head _ inductionHypothesis =>
    cases head with
    | unknown carried => exact inductionHypothesis before
    | @declared name value other values =>
      simp only [knownFields]
      split
      · exact .within _ (.error (likeness.faults_refl _))
      rcases lookup_entries before name with ⟨here, there⟩ | ⟨_, _, here, there, -⟩
      · simp only [here, there, Option.isSome_none, Bool.false_eq_true, if_false]
        exact inductionHypothesis (.cons ⟨rfl, values⟩ before)
      · simp only [here, there, Option.isSome_some, if_true]
        exact .within _ (.error (likeness.faults_refl _))

/-- The first unknown ordinal is the same on both sides. -/
theorem firstUnknownOrdinal?_same (listed : List.Forall₂ (likeness.Fields members) fields changed) :
    firstUnknownOrdinal? fields = firstUnknownOrdinal? changed := by
  induction listed with
  | nil => rfl
  | cons head _ inductionHypothesis =>
    cases head with
    | declared _ => exact inductionHypothesis
    | unknown _ => rfl

/-- What is carried under an unknown ordinal is the same on both sides. -/
theorem fitUnknownData_same (ordinal : UInt64) {value other : Value}
    (carried : likeness.Carried value other) :
    Matches likeness.faults Eq (fitUnknownData environment header members ordinal value)
      (fitUnknownData environment header members ordinal other) := by
  by_cases isData : ∃ data, value = .unknownData data
  · obtain ⟨data, here⟩ := isData
    rw [here, (carried.data data).mp here]
    exact likeness.outcome_refl _
  · unfold fitUnknownData
    split
    · exact .error (likeness.faults_refl _)
    split
    · exact .error (likeness.faults_refl _)
    split
    · exact absurd ⟨_, rfl⟩ isData
    split
    · exact absurd ⟨_, (carried.data _).mpr rfl⟩ isData
    · exact .error carried.kinds

/-- The unknown fields of a table are the same on both sides. -/
theorem fitUnknownFields_same (seen : List UInt64)
    (listed : List.Forall₂ (likeness.Fields members) fields changed) :
    Matches likeness.faults Eq (fitUnknownFields environment header members seen fields)
      (fitUnknownFields environment header members seen changed) := by
  induction listed generalizing seen with
  | nil => exact .ok rfl
  | cons head _ inductionHypothesis =>
    cases head with
    | declared _ => exact inductionHypothesis seen
    | @unknown ordinal value other carried =>
      have first : Matches likeness.faults Eq
          (if ordinal ∈ seen then fail (.repeatedOrdinal ordinal)
            else fitUnknownData environment header members ordinal value)
          (if ordinal ∈ seen then fail (.repeatedOrdinal ordinal)
            else fitUnknownData environment header members ordinal other) := by
        split
        · exact .error (likeness.faults_refl _)
        · exact fitUnknownData_same header environment ordinal carried
      apply Matches.bind (first.within _)
      rintro data _ rfl
      apply Matches.map (inductionHypothesis (ordinal :: seen))
      rintro rest _ rfl
      rfl

/-- The members that are present are the same on both sides, with values that are fitted alike. -/
theorem presentMembers_same {known others : List (String × Value)}
    (listed : List.Forall₂ (likeness.Entries members) known others)
    (some : List (Member Fitter)) (declared : ∀ member ∈ some, member ∈ members) :
    List.Forall₂ (fun chosen other => chosen.1 = other.1 ∧
        likeness.Same (chosen.1.content chosen.2) (other.1.content other.2))
      (presentMembers some known) (presentMembers some others) := by
  induction some with
  | nil => exact .nil
  | cons member rest inductionHypothesis =>
    obtain ⟨first, later⟩ := List.forall_mem_cons.mp declared
    have remaining := inductionHypothesis later
    rcases lookup_entries listed member.name with ⟨here, there⟩ | ⟨value, other, here, there, values⟩
    · simpa only [presentMembers, List.filterMap_cons, here, there] using remaining
    · cases absent : value.isNull with
      | true =>
        simpa only [presentMembers, List.filterMap_cons, here, there, ← values.absent, absent,
          if_true] using remaining
      | false =>
        simp only [presentMembers, List.filterMap_cons, here, there, ← values.absent, absent,
          Bool.false_eq_true, if_false]
        exact .cons ⟨rfl, values.contents member first rfl⟩ remaining

end Scans

section Records

/-- A member is fitted alike under its name. -/
theorem fitMember_same (member : Member Fitter) {value other : Value}
    (contents : likeness.Same (member.content value) (member.content other)) :
    Matches likeness.faults (SameName likeness.literals) (fitMember member value)
      (fitMember member other) :=
  .map (.within _ contents) fun _ _ same => ⟨rfl, same⟩

/-- Structs with fields that are fitted alike are fitted alike. -/
theorem fitStruct_same (listed : List.Forall₂ (likeness.Fields members) fields changed) :
    likeness.Same (fitStruct header members fields) (fitStruct header members changed) := by
  unfold fitStruct
  rw [firstUnknownOrdinal?_same listed]
  split
  · exact likeness.same_refl _
  apply Matches.bind (knownFields_same header listed .nil)
  intro known others entries
  have declared : List.Forall₂ (fun member other => member = other ∧ member ∈ members)
      members members := List.forall₂_same.mpr fun _ declared => ⟨rfl, declared⟩
  apply @Matches.bind _ _ _ _ _ (List.Forall₂ (SameName likeness.literals))
  · apply Matches.mapM declared
    rintro member _ ⟨rfl, declared⟩
    rcases lookup_entries entries member.name with ⟨here, there⟩ | ⟨_, _, here, there, values⟩
    · rw [here, there]
      exact .error (likeness.faults_refl _)
    · rw [here, there]
      exact fitMember_same member (values.contents member declared rfl)
  · intro fitted other each
    apply Matches.map (likeness.outcome_refl _)
    rintro name _ rfl
    exact likeness.struct _ _ _ _ each

/-- Unions with fields that are fitted alike are fitted alike. -/
theorem fitUnion_same (listed : List.Forall₂ (likeness.Fields members) fields changed) :
    likeness.Same (fitUnion environment header members fields)
      (fitUnion environment header members changed) := by
  cases listed with
  | nil => exact likeness.same_refl _
  | cons head rest =>
    cases rest with
    | cons second others =>
      simp only [fitUnion, List.length_cons, others.length_eq]
      exact likeness.same_refl _
    | nil =>
      cases head with
      | @declared name value other values =>
        simp only [fitUnion]
        cases found : Member.named? members name with
        | none => exact likeness.same_refl _
        | some member =>
          obtain ⟨declared, named⟩ := Member.mem_of_named? found
          apply Matches.bind ((values.contents member declared named).within _)
          intro content changed same
          apply Matches.map (likeness.outcome_refl _)
          rintro parsed _ rfl
          exact likeness.union _ _ _ _ _ _ same
      | @unknown ordinal value other carried =>
        simp only [fitUnion]
        apply Matches.bind ((fitUnknownData_same header environment ordinal carried).within _)
        rintro data _ rfl
        exact likeness.same_refl _

/-- Tables with fields that are fitted alike are fitted alike. -/
theorem fitTable_same (listed : List.Forall₂ (likeness.Fields members) fields changed) :
    likeness.Same (fitTable environment header members fields)
      (fitTable environment header members changed) := by
  apply Matches.bind (knownFields_same header listed .nil)
  intro known others entries
  apply Matches.bind (fitUnknownFields_same header environment [] listed)
  rintro unknown _ rfl
  have present := presentMembers_same entries members fun _ declared => declared
  apply @Matches.bind _ _ _ _ _ (List.Forall₂ (SameName likeness.literals))
  · apply Matches.mapM present
    rintro ⟨member, value⟩ ⟨_, other⟩ ⟨⟨⟩, same⟩
    exact fitMember_same member same
  · intro fitted other each
    apply Matches.map (likeness.outcome_refl _)
    rintro name _ rfl
    exact likeness.table _ _ _ _ _ each

end Records

section Lists

variable {element : Fitter} {items others : List Value}
  (each : List.Forall₂ (likeness.Items element) items others)
include each

/-- Items that are fitted alike are fitted alike at every position. -/
theorem fitItems_same (position : Nat) :
    Matches likeness.faults (List.Forall₂ likeness.literals) (fitItems element position items)
      (fitItems element position others) := by
  induction each generalizing position with
  | nil => exact .ok .nil
  | cons head _ inductionHypothesis =>
    apply Matches.bind (Matches.within _ head)
    intro first other same
    exact .map (inductionHypothesis (position + 1)) fun _ _ rest => .cons same rest

/-- Lists of items that are fitted alike are fitted alike. -/
theorem fitList_same (declaration : Declaration) :
    likeness.Same (fitList environment declaration element items)
      (fitList environment declaration element others) := by
  apply Matches.bind (likeness.outcome_refl _)
  rintro type _ rfl
  exact .map (fitItems_same each 0) fun _ _ same => likeness.list _ _ _ same

end Lists

section Declarations

variable {element : Declaration} {item other : Value} (before after : List Value)
  (inside : likeness.Same (fit environment element item) (fit environment element other))
include inside

/-- An array is fitted alike if one of its items is exchanged for one that is fitted alike. -/
theorem fit_array_same (size : UInt64) :
    likeness.Same (fit environment (.array element size) (.list (before ++ item :: after)))
      (fit environment (.array element size) (.list (before ++ other :: after))) := by
  have each : List.Forall₂ (likeness.Items (fit environment element)) (before ++ item :: after)
      (before ++ other :: after) :=
    forall₂_replace (likeness.items_refl _) before after inside
  simp only [fit, fitPresent, fitArray, List.length_append, List.length_cons]
  split
  · exact fitList_same environment each _
  · exact likeness.same_refl _

/-- A vector is fitted alike if one of its items is exchanged for one that is fitted alike. -/
theorem fit_vector_same (nullable : Bool) :
    likeness.Same (fit environment (.vector element nullable) (.list (before ++ item :: after)))
      (fit environment (.vector element nullable) (.list (before ++ other :: after))) := by
  have each : List.Forall₂ (likeness.Items (fit environment element)) (before ++ item :: after)
      (before ++ other :: after) :=
    forall₂_replace (likeness.items_refl _) before after inside
  simp only [fit, fitPresent, fitVector]
  exact fitList_same environment each _

end Declarations

/-- A record is fitted alike if one of its fields is exchanged for one that is fitted alike. -/
theorem fit_record_same {members : List (Member Declaration)} (before after : List (Field Value))
    {field other : Field Value}
    (inside : likeness.Fields (members.map (Member.map (fit environment))) field other) :
    likeness.Same (fit environment (.record header members) (.record (before ++ field :: after)))
      (fit environment (.record header members) (.record (before ++ other :: after))) := by
  have listed := forall₂_replace (likeness.fields_refl _) before after inside
  simp only [fit, fitPresent, fitRecord, fitters_eq_map]
  cases header.kind with
  | struct => exact fitStruct_same header listed
  | union => exact fitUnion_same header environment listed
  | table => exact fitTable_same header environment listed

end Literal

end FixtureLiterals
