import FixtureLiterals.Proofs.Fitting.Declarations
import FixtureLiterals.Proofs.Fitting.Likeness
import FixtureLiterals.Proofs.Fitting.Rearrangement

/-!
# The rights of a handle are kept by fitting

A value may expect a handle to have other rights than its definition says. Fitting does not look
at them: with other rights at one place, a value is accepted or refused as before, for the same
cause at the same place. But fitting keeps them. The two literals are alike up to rights, and they
are not the same.

The first holds of every likeness that takes handles of other rights for alike. The second is
shown along the place: the literals of the values around it would be the same only if those of
the parts were.
-/

namespace FixtureLiterals

/-- Two values that differ in the rights of one handle at one place. A handle in a record stands
under a name, as there is only raw data under unknown ordinals. -/
inductive OtherRights : Value → Value → Prop
  | handle {index : UInt64} {first second : Option Rights} (different : first ≠ second) :
      OtherRights (.handle ⟨index, first⟩) (.handle ⟨index, second⟩)
  | inItem {before after : List Value} {item changed : Value} (inside : OtherRights item changed) :
      OtherRights (.list (before ++ item :: after)) (.list (before ++ changed :: after))
  | inField {before after : List (Field Value)} {name : String} {value changed : Value}
      (inside : OtherRights value changed) :
      OtherRights (.record (before ++ Value.named name value :: after))
        (.record (before ++ Value.named name changed :: after))

/-- Neither of the values is absent. -/
theorem OtherRights.isNull {value changed : Value} (differ : OtherRights value changed) :
    value.isNull = changed.isNull := by
  cases differ <;> rfl

/-- Nothing is told apart but success and failure, and the failures. -/
def Likeness.indifferent : Likeness where
  faults := Eq
  literals _ _ := True
  faults_refl _ := rfl
  literals_refl _ := trivial
  list _ _ _ _ := trivial
  struct _ _ _ _ _ := trivial
  union _ _ _ _ _ _ _ := trivial
  table _ _ _ _ _ _ := trivial

namespace Literal

variable (environment : Environment)

/-- With other rights at one place, a value is fitted alike if handles with other rights are alike.

The induction is on the place. -/
theorem same_of_otherRights (likeness : Likeness)
    (handles : ∀ index subtype first second,
      likeness.literals (.handle index subtype first) (.handle index subtype second))
    {value changed : Value} (differ : OtherRights value changed) (declaration : Declaration) :
    likeness.Same (fit environment declaration value) (fit environment declaration changed) := by
  induction differ generalizing declaration with
  | @handle index first second different =>
    cases declaration with
    | handle subtype rights nullable =>
      simp only [fit, fitPresent, fitHandle]
      apply Matches.bind (likeness.outcome_refl _)
      rintro _ _ rfl
      apply Matches.bind (likeness.outcome_refl _)
      rintro _ _ rfl
      exact .ok (handles index subtype first second)
    | _ =>
      simp only [fit, fitPresent]
      exact likeness.same_refl _
  | inItem inside inductionHypothesis =>
    cases declaration with
    | array element size =>
      exact fit_array_same environment _ _ (inductionHypothesis element) size
    | vector element nullable =>
      exact fit_vector_same environment _ _ (inductionHypothesis element) nullable
    | _ => exact likeness.same_refl _
  | @inField before after name value changed inside inductionHypothesis =>
    cases declaration with
    | record header members =>
      apply fit_record_same header environment before after
      apply Likeness.Fields.declared
      constructor
      · exact inside.isNull
      · exact List.forall_mem_map.mpr fun member _ _ => inductionHypothesis member.content
    | _ => exact likeness.same_refl _

section Records

variable (header : RecordHeader) {members : List (Member Fitter)} (before after : List (Field Value))
  {name : String} {value changed : Value}
  (contents : ∀ member ∈ members, ∀ literal,
    member.content value = .ok literal → member.content changed ≠ .ok literal)

/-- The field at a place is the only one of its name. -/
theorem eq_of_mem_replaced {fields : List (Field Value)} {content : Value}
    (replaced : fields = before ++ Value.named name value :: after)
    (sets : SetsNames members (Field.underNames fields))
    (listed : ⟨.declared name, content⟩ ∈ fields) : content = value := by
  have member : Value.named name value ∈ fields := by simp [replaced]
  have found := (lookup_underNames sets name value).mpr member
  exact Option.some.inj (((lookup_underNames sets name content).mpr listed).symm.trans found)

/-- The name of the field at a place is declared. -/
theorem exists_member_of_replaced
    (sets : SetsNames members
      (Field.underNames (before ++ Value.named name value :: after))) :
    ∃ member ∈ members, member.name = name :=
  sets.declared (name, value) (by simp [Field.mem_underNames, Value.named])

/-- If there is one field, it is the one at the place. -/
theorem eq_of_singleton {field : Field Value}
    (single : before ++ Value.named name value :: after = [field]) :
    field = Value.named name value := by
  cases before with
  | nil => exact (List.cons.inj single).1.symm
  | cons first before => exact absurd (List.cons.inj single).2 (by simp)

/-- The fields under names that differ at one place are paired, by their names and by what fitting
makes of them. -/
theorem entries_replaced {likeness : Likeness}
    (values : likeness.Values members name value changed) :
    List.Forall₂ (likeness.Entries members)
      (Field.underNames (before ++ Value.named name value :: after))
      (Field.underNames (before ++ Value.named name changed :: after)) := by
  have split (content : Value) : Field.underNames (before ++ Value.named name content :: after) =
      Field.underNames before ++ (name, content) :: Field.underNames after := by
    simp [Field.underNames_eq_filterMap, Value.named]
  rw [split, split]
  exact forall₂_replace (fun _ => ⟨rfl, rfl, fun _ _ _ => likeness.same_refl _⟩) _ _ ⟨rfl, values⟩

include contents

/-- Structs are told apart by their fields. -/
theorem fitStruct_ne {literal : Literal}
    (fits : fitStruct header members (before ++ Value.named name value :: after) = .ok literal) :
    fitStruct header members (before ++ Value.named name changed :: after) ≠ .ok literal := by
  intro again
  obtain ⟨-, sets, _, fitted, -, each, rfl⟩ := (fitStruct_eq_ok_iff ..).mp fits
  obtain ⟨-, others, _, _, -, rest, same⟩ := (fitStruct_eq_ok_iff ..).mp again
  obtain ⟨-, -, rfl⟩ := Literal.struct.inj same
  obtain ⟨member, declared, named⟩ := exists_member_of_replaced before after sets
  have pairs : List.Forall₂ (· = ·) members members := List.forall₂_same.mpr fun _ _ => rfl
  obtain ⟨_, -, entry, rfl, ⟨-, content, listed, taken⟩, -, other, present, retaken⟩ :=
    exists_shared_of_mem pairs each rest declared
  rw [named] at listed present
  rw [eq_of_mem_replaced before after rfl sets listed] at taken
  rw [eq_of_mem_replaced before after rfl others present] at retaken
  exact contents member declared entry.2 taken retaken

/-- Unions are told apart by their members. -/
theorem fitUnion_ne {literal : Literal}
    (fits : fitUnion environment header members (before ++ Value.named name value :: after) =
      .ok literal) :
    fitUnion environment header members (before ++ Value.named name changed :: after) ≠
      .ok literal := by
  intro again
  rcases (fitUnion_eq_ok_iff ..).mp fits with
    ⟨_, _, member, content, _, single, found, taken, -, rfl⟩ | ⟨_, _, _, single, -⟩
  · rcases (fitUnion_eq_ok_iff ..).mp again with
      ⟨_, _, other, _, _, alone, present, retaken, -, same⟩ | ⟨_, _, _, alone, -⟩
    · obtain ⟨⟨⟩, rfl⟩ := Field.mk.inj (eq_of_singleton before after single)
      obtain ⟨⟨⟩, rfl⟩ := Field.mk.inj (eq_of_singleton before after alone)
      obtain rfl := Option.some.inj (found.symm.trans present)
      rw [(Literal.union.inj same).2.2.2.2] at retaken
      exact contents member (Member.mem_of_named? found).1 content taken retaken
    · exact nomatch (Field.mk.inj (eq_of_singleton before after alone)).1
  · exact nomatch (Field.mk.inj (eq_of_singleton before after single)).1

/-- Tables are told apart by their present members. -/
theorem fitTable_ne {likeness : Likeness} (values : likeness.Values members name value changed)
    (present : value ≠ .null) {literal : Literal}
    (fits : fitTable environment header members (before ++ Value.named name value :: after) =
      .ok literal) :
    fitTable environment header members (before ++ Value.named name changed :: after) ≠
      .ok literal := by
  intro again
  obtain ⟨sets, _, fitted, _, -, -, each, rfl⟩ := (fitTable_eq_ok_iff ..).mp fits
  obtain ⟨others, _, _, _, -, -, rest, same⟩ := (fitTable_eq_ok_iff ..).mp again
  obtain ⟨-, -, rfl, -⟩ := Literal.table.inj same
  obtain ⟨member, declared, named⟩ := exists_member_of_replaced before after sets
  have pairs := presentMembers_same (entries_replaced before after values) members
    fun _ declared => declared
  have chosen : (member, value) ∈
      presentMembers members (Field.underNames (before ++ Value.named name value :: after)) := by
    refine (mem_presentMembers sets _).mpr ⟨declared, ?_, present⟩
    simp [named, Value.named]
  obtain ⟨⟨_, content⟩, listed, entry, ⟨rfl, -⟩, ⟨-, taken⟩, -, retaken⟩ :=
    exists_shared_of_mem pairs each rest chosen
  have replaced := ((mem_presentMembers others _).mp listed).2.1
  rw [named] at replaced
  rw [eq_of_mem_replaced before after rfl others replaced] at retaken
  exact contents member declared entry.2 taken retaken

end Records

section Parts

variable {environment : Environment} {literal : Literal}

/-- With other rights, a handle is not fitted to the same literal. -/
theorem fit_handle_ne {index : UInt64} {first second : Option Rights} (different : first ≠ second)
    {declaration : Declaration}
    (fits : fit environment declaration (.handle ⟨index, first⟩) = .ok literal) :
    fit environment declaration (.handle ⟨index, second⟩) ≠ .ok literal := by
  intro again
  cases declaration with
  | handle subtype rights nullable =>
    simp only [fit_handle_eq_ok_iff, fitHandle_eq_ok_iff] at fits again
    rcases fits with ⟨⟨⟩, -⟩ | ⟨_, ⟨⟩, -, -, rfl⟩
    rcases again with ⟨⟨⟩, -⟩ | ⟨_, ⟨⟩, -, -, same⟩
    exact different (Literal.handle.inj same).2.2.symm
  | _ =>
    simp [fit, fitPresent, fitPrimitive_eq_ok_iff, fitScalar_eq_ok_iff, fitString_eq_ok_iff,
      fitArray_eq_ok_iff, fitVector_eq_ok_iff, fitRecord] at fits

section Lists

variable (before after : List Value) {item changed : Value}
  (contents : ∀ (element : Declaration) (literal : Literal),
    fit environment element item = .ok literal → fit environment element changed ≠ .ok literal)
include contents

/-- Elements at one place tell apart what lists are fitted to. -/
theorem elements_ne {element : Declaration} {elements : List Literal}
    (each : List.Forall₂ (fun value literal => fit environment element value = .ok literal)
      (before ++ item :: after) elements) :
    ¬ List.Forall₂ (fun value literal => fit environment element value = .ok literal)
      (before ++ changed :: after) elements := by
  intro rest
  obtain ⟨result, taken, retaken⟩ := exists_shared_at before after each rest
  exact contents element result taken retaken

/-- Lists are told apart by their elements. -/
theorem fit_list_ne {declaration : Declaration}
    (fits : fit environment declaration (.list (before ++ item :: after)) = .ok literal) :
    fit environment declaration (.list (before ++ changed :: after)) ≠ .ok literal := by
  intro again
  cases declaration with
  | array element size =>
    rw [fit_array_eq_ok_iff, fitArray_eq_ok_iff] at fits again
    obtain ⟨_, _, elements, ⟨⟩, -, -, each, rfl⟩ := fits
    obtain ⟨_, _, _, ⟨⟩, -, -, rest, same⟩ := again
    rw [(Literal.list.inj same).2] at rest
    exact elements_ne before after contents each rest
  | vector element nullable =>
    rw [fit_vector_eq_ok_iff, fitVector_eq_ok_iff] at fits again
    rcases fits with ⟨⟨⟩, -⟩ | ⟨_, _, elements, ⟨⟩, -, each, rfl⟩
    rcases again with ⟨⟨⟩, -⟩ | ⟨_, _, _, ⟨⟩, -, rest, same⟩
    rw [(Literal.list.inj same).2] at rest
    exact elements_ne before after contents each rest
  | _ =>
    simp [fit, fitPresent, fitPrimitive_eq_ok_iff, fitScalar_eq_ok_iff, fitString_eq_ok_iff,
      fitHandle_eq_ok_iff, fitRecord] at fits

end Lists

/-- Records are told apart by the value of a field. -/
theorem fit_record_ne (before after : List (Field Value)) {name : String} {value changed : Value}
    (contents : ∀ (member : Declaration) (literal : Literal),
      fit environment member value = .ok literal → fit environment member changed ≠ .ok literal)
    (inside : OtherRights value changed) {declaration : Declaration}
    (fits : fit environment declaration (.record (before ++ Value.named name value :: after)) =
      .ok literal) :
    fit environment declaration (.record (before ++ Value.named name changed :: after)) ≠
      .ok literal := by
  cases declaration with
  | record header members =>
    have apart : ∀ member ∈ members.map (Member.map (fit environment)), ∀ literal,
        member.content value = .ok literal → member.content changed ≠ .ok literal :=
      List.forall_mem_map.mpr fun member _ => contents member.content
    have present : value ≠ .null := by
      rintro rfl
      cases inside
    have values : Likeness.indifferent.Values (members.map (Member.map (fit environment))) name
        value changed := by
      constructor
      · exact inside.isNull
      · exact List.forall_mem_map.mpr fun member _ _ =>
          same_of_otherRights environment _ (fun _ _ _ _ => trivial) inside member.content
    simp only [fit, fitPresent, fitRecord, fitters_eq_map] at fits ⊢
    cases kind : header.kind with
    | struct =>
      rw [kind] at fits
      exact fitStruct_ne header before after apart fits
    | union =>
      rw [kind] at fits
      exact fitUnion_ne environment header before after apart fits
    | table =>
      rw [kind] at fits
      exact fitTable_ne environment header before after apart values present fits
  | _ =>
    simp [fit, fitPresent, fitPrimitive_eq_ok_iff, fitScalar_eq_ok_iff, fitString_eq_ok_iff,
      fitHandle_eq_ok_iff, fitArray_eq_ok_iff, fitVector_eq_ok_iff] at fits

end Parts

/-- With other rights at one place, a value is not fitted to the same literal.

The induction is on the place. -/
theorem fit_ne_of_otherRights {value changed : Value} (differ : OtherRights value changed)
    {declaration : Declaration} {literal : Literal}
    (fits : fit environment declaration value = .ok literal) :
    fit environment declaration changed ≠ .ok literal := by
  induction differ generalizing declaration literal with
  | handle different => exact fit_handle_ne different fits
  | inItem inside inductionHypothesis =>
    exact fit_list_ne _ _ (fun _ _ taken => inductionHypothesis taken) fits
  | inField inside inductionHypothesis =>
    exact fit_record_ne _ _ (fun _ _ taken => inductionHypothesis taken) inside fits

end Literal

end FixtureLiterals
