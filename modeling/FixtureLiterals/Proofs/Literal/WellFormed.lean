import FixtureLiterals.Proofs.Fitting.Acceptance
import FixtureLiterals.Proofs.Pairwise

/-!
# Well-formed literals

A literal is written down without any further check, so whatever would make the text
wrong has to be impossible in a fitted literal. Well-formedness says what that is, node by
node and without reference to a value: numbers lie in their ranges, handles are entries of
the table, lists carry the type of their declaration, and the fields of a record are
declared members in the order of declaration, next to unknown ordinals that no member
has.

Fitting returns well-formed literals only.
-/

namespace FixtureLiterals

open Literal

/-- A type reference that spells a declaration, with handle subtypes that can be spelled. -/
inductive Describes (supports : HandleSubtype → Bool) : Declaration → TypeReference → Prop where
  | primitive (subtype : Primitive) : Describes supports (.primitive subtype) (.primitive subtype)
  | bits {scalar : NamedScalar} {name : QualifiedName}
      (parsed : QualifiedName.parse scalar.name = .ok name) :
      Describes supports (.bits scalar) (.named name false)
  | enumeration {scalar : NamedScalar} {name : QualifiedName}
      (parsed : QualifiedName.parse scalar.name = .ok name) :
      Describes supports (.enumeration scalar) (.named name false)
  | handle {subtype : HandleSubtype} {rights : Rights} {nullable : Bool}
      (supported : supports subtype = true) :
      Describes supports (.handle subtype rights nullable) (.handle subtype nullable)
  | string (nullable : Bool) : Describes supports (.string nullable) (.string nullable)
  | array {element : Declaration} {type : TypeReference} {size : UInt64}
      (described : Describes supports element type) :
      Describes supports (.array element size) (.array type size)
  | vector {element : Declaration} {type : TypeReference} {nullable : Bool}
      (described : Describes supports element type) :
      Describes supports (.vector element nullable) (.vector type nullable)
  | record {header : RecordHeader} {members : List (Member Declaration)} {name : QualifiedName}
      (parsed : QualifiedName.parse header.name = .ok name) :
      Describes supports (.record header members) (.named name header.nullable)

/-- The spelled type of a declaration is the one that describes it. -/
theorem ofDeclaration_eq_ok_iff (environment : Environment) (declaration : Declaration)
    (type : TypeReference) :
    TypeReference.ofDeclaration environment declaration = .ok type ↔
      Describes environment.supports declaration type := by
  induction declaration using Declaration.memberwise generalizing type with
  | primitive subtype =>
    simp only [TypeReference.ofDeclaration, pure_eq_ok_iff]
    constructor
    · rintro rfl
      exact .primitive subtype
    · rintro ⟨⟩
      rfl
  | bits scalar =>
    simp only [TypeReference.ofDeclaration, bind_eq_ok_iff, QualifiedName.ofDeclared_eq_ok_iff,
      pure_eq_ok_iff]
    constructor
    · rintro ⟨name, parsed, rfl⟩
      exact .bits parsed
    · rintro ⟨⟩
      exact ⟨_, ‹_›, rfl⟩
  | enumeration scalar =>
    simp only [TypeReference.ofDeclaration, bind_eq_ok_iff, QualifiedName.ofDeclared_eq_ok_iff,
      pure_eq_ok_iff]
    constructor
    · rintro ⟨name, parsed, rfl⟩
      exact .enumeration parsed
    · rintro ⟨⟩
      exact ⟨_, ‹_›, rfl⟩
  | handle subtype rights nullable =>
    simp only [TypeReference.ofDeclaration, bind_eq_ok_iff, Environment.checkSubtype_eq_ok_iff,
      pure_eq_ok_iff]
    constructor
    · rintro ⟨-, supported, rfl⟩
      exact .handle supported
    · rintro ⟨⟩
      exact ⟨(), ‹_›, rfl⟩
  | string nullable =>
    simp only [TypeReference.ofDeclaration, pure_eq_ok_iff]
    constructor
    · rintro rfl
      exact .string nullable
    · rintro ⟨⟩
      rfl
  | array element size inductionHypothesis =>
    simp only [TypeReference.ofDeclaration, bind_eq_ok_iff, inductionHypothesis, pure_eq_ok_iff]
    constructor
    · rintro ⟨spelled, described, rfl⟩
      exact .array described
    · rintro ⟨⟩
      exact ⟨_, ‹_›, rfl⟩
  | vector element nullable inductionHypothesis =>
    simp only [TypeReference.ofDeclaration, bind_eq_ok_iff, inductionHypothesis, pure_eq_ok_iff]
    constructor
    · rintro ⟨spelled, described, rfl⟩
      exact .vector described
    · rintro ⟨⟩
      exact ⟨_, ‹_›, rfl⟩
  | record header members =>
    simp only [TypeReference.ofDeclaration, bind_eq_ok_iff, QualifiedName.ofDeclared_eq_ok_iff,
      pure_eq_ok_iff]
    constructor
    · rintro ⟨name, parsed, rfl⟩
      exact .record parsed
    · rintro ⟨⟩
      exact ⟨_, ‹_›, rfl⟩

/-- A literal that a table never holds as a field: an absent one, of a handle or otherwise. -/
def Literal.IsAbsent : Literal → Prop
  | .null | .invalidHandle _ => True
  | _ => False

/-- A literal that can be written down for its declaration. -/
inductive WellFormed (environment : Environment) : Declaration → Literal → Prop where
  | bool (value : Bool) : WellFormed environment (.primitive .bool) (.bool value)
  | integer {subtype : Primitive} {value : Integer} (bounded : subtype.InRange value.toInt) :
      WellFormed environment (.primitive subtype) (.integer value subtype)
  | float {subtype : Primitive} {value : Binary64} (floating : subtype.isFloat = true)
      (bounded : subtype = .float32 → value.isFinite = true → value.InSingleRange) :
      WellFormed environment (.primitive subtype) (.float value subtype)
  | floatBits {subtype : Primitive} {bits : UInt64} (floating : subtype.isFloat = true)
      (bounded : subtype = .float32 → bits.toNat < Nat.pow 2 32) :
      WellFormed environment (.primitive subtype) (.floatBits bits subtype)
  | bits {scalar : NamedScalar} {name : QualifiedName} {value : Integer}
      (parsed : QualifiedName.parse scalar.name = .ok name)
      (bounded : scalar.subtype.InRange value.toInt) :
      WellFormed environment (.bits scalar) (.bits name value)
  | enumeration {scalar : NamedScalar} {name : QualifiedName} {value : Integer}
      (parsed : QualifiedName.parse scalar.name = .ok name)
      (bounded : scalar.subtype.InRange value.toInt) :
      WellFormed environment (.enumeration scalar) (.enumeration name value)
  | handle {subtype : HandleSubtype} {declared : Rights} {nullable : Bool} {index : UInt64}
      {rights : Option Rights} (supported : environment.supports subtype = true)
      (inTable : index.toNat < environment.handleCount) :
      WellFormed environment (.handle subtype declared nullable) (.handle index subtype rights)
  | invalidHandle {subtype : HandleSubtype} {declared : Rights}
      (supported : environment.supports subtype = true) :
      WellFormed environment (.handle subtype declared true) (.invalidHandle subtype)
  | string (value : String) (nullable : Bool) :
      WellFormed environment (.string nullable) (.string value nullable)
  | absentString : WellFormed environment (.string true) .null
  | array {element : Declaration} {size : UInt64} {type : TypeReference} {elements : List Literal}
      (described : Describes environment.supports (.array element size) type)
      (counted : elements.length = size.toNat)
      (each : ∀ item ∈ elements, WellFormed environment element item) :
      WellFormed environment (.array element size) (.list type elements)
  | vector {element : Declaration} {nullable : Bool} {type : TypeReference}
      {elements : List Literal}
      (described : Describes environment.supports (.vector element nullable) type)
      (each : ∀ item ∈ elements, WellFormed environment element item) :
      WellFormed environment (.vector element nullable) (.list type elements)
  | absentVector (element : Declaration) : WellFormed environment (.vector element true) .null
  /-- All declared members, in the order of declaration. -/
  | struct {header : RecordHeader} {members : List (Member Declaration)} {name : QualifiedName}
      {fields : List (String × Literal)} (kind : header.kind = .struct)
      (parsed : QualifiedName.parse header.name = .ok name)
      (named : members.map Member.name = fields.map Prod.fst)
      (each : List.Forall₂ (fun member field => WellFormed environment member.content field.2)
        members fields) :
      WellFormed environment (.record header members) (.struct name header.nullable fields)
  /-- One declared member, under its own name and ordinal. -/
  | union {header : RecordHeader} {members : List (Member Declaration)} {name : QualifiedName}
      {member : Member Declaration} {value : Literal} (kind : header.kind = .union)
      (parsed : QualifiedName.parse header.name = .ok name)
      (declared : Member.named? members member.name = some member)
      (content : WellFormed environment member.content value) :
      WellFormed environment (.record header members)
        (.union name header.nullable member.name member.ordinal value)
  /-- One unknown member, where the union can carry it. -/
  | unknownUnion {header : RecordHeader} {members : List (Member Declaration)}
      {name : QualifiedName} {ordinal : UInt64} {data : UnknownData} (kind : header.kind = .union)
      (parsed : QualifiedName.parse header.name = .ok name)
      (carried : CarriesUnknown environment header members ordinal data) :
      WellFormed environment (.record header members)
        (.unknownUnion name header.nullable ordinal data)
  /-- Some of the declared members, in the order of declaration and none of them absent, and
  distinct unknown ordinals, where the table can carry them. -/
  | table {header : RecordHeader} {members : List (Member Declaration)} {name : QualifiedName}
      {present : List (Member Declaration)} {fields : List (String × Literal)}
      {unknown : List (UInt64 × UnknownData)} (kind : header.kind = .table)
      (parsed : QualifiedName.parse header.name = .ok name)
      (declared : present.Sublist members)
      (named : present.map Member.name = fields.map Prod.fst)
      (each : List.Forall₂ (fun member field => WellFormed environment member.content field.2)
        present fields)
      (held : ∀ field ∈ fields, ¬ field.2.IsAbsent)
      (distinct : (unknown.map Prod.fst).Nodup)
      (carried : ∀ entry ∈ unknown, CarriesUnknown environment header members entry.1 entry.2) :
      WellFormed environment (.record header members)
        (.table name header.nullable fields unknown)
  | absentRecord {header : RecordHeader} (members : List (Member Declaration))
      (nullable : header.nullable = true) : WellFormed environment (.record header members) .null

/-- Lists agree member by member, names included, exactly if their names agree and what goes
with them does. -/
theorem forall₂_named_iff {α β γ : Type} (nameOf : α → γ) (named : β → γ)
    (relation : α → β → Prop) (left : List α) (right : List β) :
    List.Forall₂ (fun first second => named second = nameOf first ∧ relation first second)
        left right ↔
      left.map nameOf = right.map named ∧ List.Forall₂ relation left right := by
  induction left generalizing right with
  | nil => cases right <;> simp
  | cons first left inductionHypothesis =>
    cases right with
    | nil => simp
    | cons second right =>
      simp only [List.forall₂_cons, inductionHypothesis, List.map_cons, List.cons.injEq]
      constructor
      · rintro ⟨⟨same, related⟩, names, others⟩
        exact ⟨⟨same.symm, names⟩, related, others⟩
      · rintro ⟨⟨same, names⟩, related, others⟩
        exact ⟨⟨same.symm, related⟩, names, others⟩

namespace Literal

/-- Only the absent value is fitted to an absent literal. -/
theorem eq_null_of_isAbsent {environment : Environment} {declaration : Declaration}
    {value : Value} {literal : Literal}
    (fits : fit environment declaration value = .ok literal) (absent : literal.IsAbsent) :
    value = .null := by
  cases declaration with
  | primitive subtype =>
    rw [fit_primitive_eq_ok_iff, fitPrimitive_eq_ok_iff] at fits
    rcases fits with ⟨_, _, _, rfl⟩ | ⟨_, _, _, rfl⟩ | ⟨_, _, _, _, rfl⟩ | ⟨_, _, _, rfl⟩ <;>
      exact absurd absent id
  | bits scalar =>
    rw [fit_bits_eq_ok_iff, fitScalar_eq_ok_iff] at fits
    obtain ⟨_, _, _, _, _, rfl⟩ := fits
    exact absurd absent id
  | enumeration scalar =>
    rw [fit_enumeration_eq_ok_iff, fitScalar_eq_ok_iff] at fits
    obtain ⟨_, _, _, _, _, rfl⟩ := fits
    exact absurd absent id
  | handle subtype rights nullable =>
    rw [fit_handle_eq_ok_iff, fitHandle_eq_ok_iff] at fits
    rcases fits with ⟨null, _⟩ | ⟨_, _, _, _, rfl⟩
    · exact null
    · exact absurd absent id
  | string nullable =>
    rw [fit_string_eq_ok_iff, fitString_eq_ok_iff] at fits
    rcases fits with ⟨null, _⟩ | ⟨_, _, rfl⟩
    · exact null
    · exact absurd absent id
  | array element size =>
    rw [fit_array_eq_ok_iff, fitArray_eq_ok_iff] at fits
    obtain ⟨_, _, _, _, _, _, _, rfl⟩ := fits
    exact absurd absent id
  | vector element nullable =>
    rw [fit_vector_eq_ok_iff, fitVector_eq_ok_iff] at fits
    rcases fits with ⟨null, _⟩ | ⟨_, _, _, _, _, _, rfl⟩
    · exact null
    · exact absurd absent id
  | record header members =>
    rw [fit_record_eq_ok_iff] at fits
    rcases fits with ⟨null, _⟩ | ⟨fields, _, shaped⟩
    · exact null
    · cases kind : header.kind <;> simp only [kind] at shaped
      case struct =>
        obtain ⟨_, _, _, _, _, _, rfl⟩ := (fitStruct_eq_ok_iff ..).mp shaped
        exact absurd absent id
      case union =>
        rcases (fitUnion_eq_ok_iff ..).mp shaped with
          ⟨_, _, _, _, _, _, _, _, _, rfl⟩ | ⟨_, _, _, _, _, _, rfl⟩ <;>
          exact absurd absent id
      case table =>
        obtain ⟨_, _, _, _, _, _, _, rfl⟩ := (fitTable_eq_ok_iff ..).mp shaped
        exact absurd absent id

section Records

variable {environment : Environment} {header : RecordHeader} {members : List (Member Declaration)}
  {fields : List (Field Value)} {literal : Literal}
  (wellFormed : ∀ member ∈ members, ∀ value literal,
    fit environment member.content value = .ok literal →
      WellFormed environment member.content literal)
include wellFormed

/-- A struct is fitted to a well-formed literal if its members are. -/
theorem wellFormed_of_fitStruct (kind : header.kind = .struct)
    (fits : fitStruct header (members.map (Member.map (fit environment))) fields = .ok literal) :
    WellFormed environment (.record header members) literal := by
  obtain ⟨-, -, name, fitted, parsed, each, rfl⟩ := (fitStruct_eq_ok_iff ..).mp fits
  rw [List.forall₂_map_left_iff] at each
  obtain ⟨named, contents⟩ := (forall₂_named_iff Member.name Prod.fst _ _ _).mp each
  refine .struct kind parsed named ?_
  refine forall₂_imp_of_mem (fun member declared entry _ set => ?_) contents
  obtain ⟨value, -, taken⟩ := set
  exact wellFormed member declared value entry.2 taken

/-- A union is fitted to a well-formed literal if its members are. -/
theorem wellFormed_of_fitUnion (kind : header.kind = .union)
    (fits : fitUnion environment header (members.map (Member.map (fit environment))) fields =
      .ok literal) :
    WellFormed environment (.record header members) literal := by
  rcases (fitUnion_eq_ok_iff ..).mp fits with
    ⟨key, value, member, content, name, -, found, taken, parsed, rfl⟩ |
    ⟨ordinal, data, name, -, carried, parsed, rfl⟩
  · rw [Member.named?_map] at found
    obtain ⟨original, chosen, rfl⟩ := Option.map_eq_some_iff.mp found
    obtain ⟨declared, rfl⟩ := Member.mem_of_named? chosen
    exact .union kind parsed chosen (wellFormed original declared value content taken)
  · exact .unknownUnion kind parsed ((carriesUnknown_map ..).mp carried)

/-- A table is fitted to a well-formed literal if its members are. -/
theorem wellFormed_of_fitTable (kind : header.kind = .table)
    (fits : fitTable environment header (members.map (Member.map (fit environment))) fields =
      .ok literal) :
    WellFormed environment (.record header members) literal := by
  obtain ⟨sets, name, fitted, unknown, parsed, scanned, each, rfl⟩ :=
    (fitTable_eq_ok_iff ..).mp fits
  obtain ⟨-, distinct, -, carried⟩ := (scan_ordinals_eq_ok_iff ..).mp scanned
  rw [presentMembers_map, List.forall₂_map_left_iff] at each
  obtain ⟨named, contents⟩ :=
    (forall₂_named_iff (fun chosen : Member Declaration × Value => chosen.1.name) Prod.fst
      _ _ _).mp each
  have apart := (setsNames_map ..).mp sets
  have ordered := presentMembers_sublist members (Field.underNames fields)
  refine .table kind parsed ordered (by rw [List.map_map]; exact named) ?_ ?_ distinct ?_
  · rw [List.forall₂_map_left_iff]
    refine forall₂_imp_of_mem (fun chosen listed entry _ taken => ?_) contents
    have declared := ((mem_presentMembers apart chosen).mp listed).1
    exact wellFormed chosen.1 declared chosen.2 entry.2 taken
  · intro entry listed absent
    obtain ⟨chosen, present, taken⟩ := exists_of_mem_right contents listed
    exact ((mem_presentMembers apart chosen).mp present).2.2 (eq_null_of_isAbsent taken absent)
  · intro entry listed
    exact (carriesUnknown_map ..).mp (carried entry listed)

end Records

/-- Fitting returns well-formed literals only.

The induction is on the declaration, and each of its cases lists the checks that the value
has passed. -/
theorem wellFormed_of_fit {environment : Environment} {declaration : Declaration}
    {value : Value} {literal : Literal}
    (fits : fit environment declaration value = .ok literal) :
    WellFormed environment declaration literal := by
  induction declaration using Declaration.memberwise generalizing value literal with
  | primitive subtype =>
    rw [fit_primitive_eq_ok_iff, fitPrimitive_eq_ok_iff] at fits
    rcases fits with ⟨content, -, rfl, rfl⟩ | ⟨number, -, held, rfl⟩ |
      ⟨number, -, floating, bounded, rfl⟩ | ⟨pattern, -, fitting, rfl⟩
    · exact .bool content
    · exact .integer ((holds_iff_inRange _ _).mp held)
    · exact .float floating fun single =>
        (Binary64.exceedsFloat32_eq_false_iff number).mp (bounded single)
    · obtain ⟨width, bits⟩ := pattern
      refine .floatBits ?_ ?_
      · cases width <;> cases subtype <;> first | rfl | exact nomatch fitting
      · rintro rfl
        cases width
        · exact of_decide_eq_true fitting
        · exact nomatch fitting
  | bits scalar =>
    rw [fit_bits_eq_ok_iff, fitScalar_eq_ok_iff] at fits
    obtain ⟨name, number, parsed, -, held, rfl⟩ := fits
    exact .bits parsed ((holds_iff_inRange _ _).mp held)
  | enumeration scalar =>
    rw [fit_enumeration_eq_ok_iff, fitScalar_eq_ok_iff] at fits
    obtain ⟨name, number, parsed, -, held, rfl⟩ := fits
    exact .enumeration parsed ((holds_iff_inRange _ _).mp held)
  | handle subtype rights nullable =>
    rw [fit_handle_eq_ok_iff, fitHandle_eq_ok_iff] at fits
    rcases fits with ⟨-, rfl, supported, rfl⟩ | ⟨reference, -, inTable, supported, rfl⟩
    · exact .invalidHandle supported
    · exact .handle supported inTable
  | string nullable =>
    rw [fit_string_eq_ok_iff, fitString_eq_ok_iff] at fits
    rcases fits with ⟨-, rfl, rfl⟩ | ⟨content, -, rfl⟩
    · exact .absentString
    · exact .string content nullable
  | array element size inductionHypothesis =>
    rw [fit_array_eq_ok_iff, fitArray_eq_ok_iff] at fits
    obtain ⟨items, type, literals, -, counted, spelled, each, rfl⟩ := fits
    refine .array ((ofDeclaration_eq_ok_iff ..).mp spelled) ?_ fun item listed => ?_
    · rw [← each.length_eq, counted]
    · obtain ⟨source, -, taken⟩ := exists_of_mem_right each listed
      exact inductionHypothesis taken
  | vector element nullable inductionHypothesis =>
    rw [fit_vector_eq_ok_iff, fitVector_eq_ok_iff] at fits
    rcases fits with ⟨-, rfl, rfl⟩ | ⟨items, type, literals, -, spelled, each, rfl⟩
    · exact .absentVector element
    · refine .vector ((ofDeclaration_eq_ok_iff ..).mp spelled) fun item listed => ?_
      obtain ⟨source, -, taken⟩ := exists_of_mem_right each listed
      exact inductionHypothesis taken
  | record header members inductionHypothesis =>
    rw [fit_record_eq_ok_iff] at fits
    rcases fits with ⟨-, nullable, rfl⟩ | ⟨fields, -, shaped⟩
    · exact .absentRecord members nullable
    · have contents : ∀ member ∈ members, ∀ value literal,
          fit environment member.content value = .ok literal →
            WellFormed environment member.content literal :=
        fun member declared value literal taken => inductionHypothesis member declared taken
      cases kind : header.kind <;> simp only [kind] at shaped
      case struct => exact wellFormed_of_fitStruct contents kind shaped
      case union => exact wellFormed_of_fitUnion contents kind shaped
      case table => exact wellFormed_of_fitTable contents kind shaped

end Literal

end FixtureLiterals
