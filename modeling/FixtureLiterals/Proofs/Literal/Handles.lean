import FixtureLiterals.Proofs.Literal.WellFormed

/-!
# The handles that a literal refers to

A literal refers to the handle table by positions, in its handles and in the raw content of
the fields that the schema does not know. The text of a literal looks all of them up, without
any further check. Collecting them from the whole tree, empty lists and absent parts included,
shows that a well-formed literal refers to entries of the table only.
-/

namespace FixtureLiterals

namespace Literal

mutual

/-- The positions in the handle table that a literal refers to, at any depth. -/
def handleIndices : Literal → List UInt64
  | .handle index _ _ => [index]
  | .list _ elements => elementIndices elements
  | .struct _ _ fields => fieldIndices fields
  | .union _ _ _ _ value => handleIndices value
  | .unknownUnion _ _ _ data => data.handles
  | .table _ _ fields unknown =>
    fieldIndices fields ++ unknown.flatMap fun entry => entry.2.handles
  | .bool _ | .integer _ _ | .float _ _ | .floatBits _ _ | .bits _ _ | .enumeration _ _
  | .string _ _ | .invalidHandle _ | .null => []

/-- The positions that the elements of a list refer to. -/
def elementIndices : List Literal → List UInt64
  | [] => []
  | element :: elements => handleIndices element ++ elementIndices elements

/-- The positions that the fields of a record refer to. -/
def fieldIndices : List (String × Literal) → List UInt64
  | [] => []
  | (_, literal) :: fields => handleIndices literal ++ fieldIndices fields

end

/-- A position in a list stands in one of the elements. -/
theorem mem_elementIndices (elements : List Literal) (index : UInt64) :
    index ∈ elementIndices elements ↔ ∃ element ∈ elements, index ∈ element.handleIndices := by
  induction elements with
  | nil => simp [elementIndices]
  | cons element elements inductionHypothesis => simp [elementIndices, inductionHypothesis]

/-- A position in a record stands in one of the fields. -/
theorem mem_fieldIndices (fields : List (String × Literal)) (index : UInt64) :
    index ∈ fieldIndices fields ↔ ∃ field ∈ fields, index ∈ field.2.handleIndices := by
  induction fields with
  | nil => simp [fieldIndices]
  | cons field fields inductionHypothesis =>
    simp only [fieldIndices, List.mem_append, inductionHypothesis, List.exists_mem_cons_iff]

/-- A literal that refers to entries of the handle table only. -/
def InTable (environment : Environment) (literal : Literal) : Prop :=
  ∀ index ∈ literal.handleIndices, index.toNat < environment.handleCount

variable {environment : Environment}

/-- A list is in the table if its elements are. -/
theorem inTable_list {type : TypeReference} {elements : List Literal}
    (each : ∀ element ∈ elements, InTable environment element) :
    InTable environment (.list type elements) := by
  intro index listed
  rw [handleIndices, mem_elementIndices] at listed
  obtain ⟨element, member, referred⟩ := listed
  exact each element member index referred

/-- The fields of a record are in the table if they belong to members whose literals are. -/
theorem fields_inTable {members : List (Member Declaration)} {fields : List (String × Literal)}
    (contents : ∀ member ∈ members, ∀ literal,
      WellFormed environment member.content literal → InTable environment literal)
    (each : List.Forall₂ (fun member field => WellFormed environment member.content field.2)
      members fields) :
    ∀ index ∈ fieldIndices fields, index.toNat < environment.handleCount := by
  intro index listed
  obtain ⟨field, belongs, referred⟩ := (mem_fieldIndices fields index).mp listed
  obtain ⟨member, declared, wellFormed⟩ := exists_of_mem_right each belongs
  exact contents member declared field.2 wellFormed index referred

/-- A well-formed literal refers to entries of the handle table only, at any depth and also in
the content of unknown fields.

The induction is on the declaration, whose parts describe the parts of the literal. -/
theorem inTable_of_wellFormed {declaration : Declaration} {literal : Literal}
    (wellFormed : WellFormed environment declaration literal) : InTable environment literal := by
  induction declaration using Declaration.memberwise generalizing literal with
  | primitive subtype | bits scalar | enumeration scalar | string nullable =>
    intro index listed
    cases wellFormed <;> exact nomatch listed
  | handle subtype rights nullable =>
    intro index listed
    cases wellFormed with
    | invalidHandle supported => exact nomatch listed
    | handle supported inTable =>
      obtain rfl := List.mem_singleton.mp listed
      exact inTable
  | array element size inductionHypothesis =>
    cases wellFormed with
    | array described counted each =>
      exact inTable_list fun item member => inductionHypothesis (each item member)
  | vector element nullable inductionHypothesis =>
    cases wellFormed with
    | absentVector => exact nofun
    | vector described each =>
      exact inTable_list fun item member => inductionHypothesis (each item member)
  | record header members inductionHypothesis =>
    have contents : ∀ member ∈ members, ∀ literal,
        WellFormed environment member.content literal → InTable environment literal :=
      fun member declared literal => inductionHypothesis member declared
    cases wellFormed with
    | absentRecord => exact nofun
    | struct kind parsed named each => exact fields_inTable contents each
    | union kind parsed declared content =>
      intro index listed
      rw [handleIndices] at listed
      exact contents _ (Member.mem_of_named? declared).1 _ content index listed
    | unknownUnion kind parsed carried => exact carried.indices
    | table kind parsed declared named each held distinct carried =>
      intro index listed
      rcases List.mem_append.mp listed with known | unknown
      · exact fields_inTable (fun member present => contents member (declared.subset present))
          each index known
      · obtain ⟨entry, belongs, referred⟩ := List.mem_flatMap.mp unknown
        exact (carried entry belongs).indices index referred

end Literal

end FixtureLiterals
