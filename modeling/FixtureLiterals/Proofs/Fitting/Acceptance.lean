import FixtureLiterals.Proofs.Binary64.Range
import FixtureLiterals.Proofs.Fitting.Declarations
import FixtureLiterals.Proofs.Pairwise
import FixtureLiterals.Proofs.Schema.Memberwise

/-!
# Which values a declaration accepts

Acceptance is a judgement on a value and a declaration. It depends on the surroundings in
two ways only: on the number of entries in the handle table and on the set of handle
subtypes that can be spelled. It is stated by recursion on the declaration, without any
order of checks, any route and any literal; ranges of numbers are the mathematical ones,
and the fields of a record are a set of keys with values.

Fitting decides it: a value is fitted exactly if it is accepted. Since a fitter either
fails or returns a literal, it fails exactly on all other values.
-/

namespace FixtureLiterals

/-- A name that can be parsed. -/
def Parseable (name : String) : Prop := ∃ parsed, QualifiedName.parse name = .ok parsed

/-- The integers of a two's complement type with a number of bits. -/
def InSigned (width : Nat) (number : Int) : Prop :=
  -(Nat.pow 2 (width - 1) : Int) ≤ number ∧ number < Nat.pow 2 (width - 1)

/-- The integers of a type with a number of bits and no sign. -/
def InUnsigned (width : Nat) (number : Int) : Prop := 0 ≤ number ∧ number < Nat.pow 2 width

/-- The integers in the range of a primitive type. A type that is no integer has none. -/
def Primitive.InRange : Primitive → Int → Prop
  | .int8 => InSigned 8
  | .int16 => InSigned 16
  | .int32 => InSigned 32
  | .int64 => InSigned 64
  | .uint8 => InUnsigned 8
  | .uint16 => InUnsigned 16
  | .uint32 => InUnsigned 32
  | .uint64 => InUnsigned 64
  | .bool | .float32 | .float64 => fun _ => False

/-- The bounds of each integer type are those of its width. -/
theorem holds_iff_inRange (subtype : Primitive) (number : Int) :
    subtype.holds number = true ↔ subtype.InRange number := by
  cases subtype <;>
    simp only [Primitive.holds, Primitive.range?, Primitive.InRange, InSigned, InUnsigned,
      decide_eq_true_eq, Bool.false_eq_true] <;>
    norm_num <;> omega

/-- A value that may be absent: where it is, the declaration has to be nullable. -/
def AbsentOr (nullable : Bool) (present : Value → Prop) (value : Value) : Prop :=
  (value = .null ∧ nullable = true) ∨ present value

/-- Booleans for the boolean type, integers in the range of an integer type, floats for a
float type, as long as a finite one for the 32-bit type is in its range, and bit patterns of
the width of a float type. -/
def AcceptsPrimitive (subtype : Primitive) : Value → Prop
  | .bool _ => subtype = .bool
  | .integer number => subtype.InRange number.toInt
  | .float number =>
    subtype = .float64 ∨ (subtype = .float32 ∧ (number.isFinite = true → number.InSingleRange))
  | .rawFloat ⟨.f32, bits⟩ => subtype = .float32 ∧ bits.toNat < Nat.pow 2 32
  | .rawFloat ⟨.f64, _⟩ => subtype = .float64
  | _ => False

/-- Integers in the range of the type behind a named scalar. -/
def AcceptsScalar (scalar : NamedScalar) (value : Value) : Prop :=
  Parseable scalar.name ∧ ∃ number, value = .integer number ∧ scalar.subtype.InRange number.toInt

/-- A declaration whose type can be spelled: every name in it can be parsed, and so can every
handle subtype be spelled. Records are spelled by their names, whatever their members are. -/
def Spellable (supports : HandleSubtype → Bool) : Declaration → Prop
  | .primitive _ | .string _ => True
  | .bits scalar | .enumeration scalar => Parseable scalar.name
  | .handle subtype _ _ => supports subtype = true
  | .array element _ | .vector element _ => Spellable supports element
  | .record header _ => Parseable header.name

/-- Unknown data under an ordinal that no member has, with handles on a resource type only,
and only such as the handle table has. -/
def AcceptsUnknown {α : Type} (entries : Nat) (header : RecordHeader) (members : List (Member α))
    (ordinal : UInt64) (value : Value) : Prop :=
  (∀ member ∈ members, member.ordinal ≠ ordinal) ∧
  ∃ data, value = .unknownData data ∧ (data.handles ≠ [] → header.resourceness = .resource) ∧
    ∀ index ∈ data.handles, index.toNat < entries

/-- A struct has its declared members as keys, each one once, with values that they accept. -/
def AcceptsStruct (members : List (Member (Value → Prop))) (fields : List (Field Value)) : Prop :=
  (fields.map Field.key).Nodup ∧
  (∀ field ∈ fields, ∃ member ∈ members, field.key = .declared member.name) ∧
  ∀ member ∈ members, ∃ value, ⟨.declared member.name, value⟩ ∈ fields ∧ member.content value

/-- A union has one field: a declared member with a value that it accepts, or, if the union
is flexible, an unknown one. -/
def AcceptsUnion (entries : Nat) (header : RecordHeader) (members : List (Member (Value → Prop)))
    (fields : List (Field Value)) : Prop :=
  ∃ key value, fields = [⟨key, value⟩] ∧
    match key with
    | .declared name => ∃ member, Member.named? members name = some member ∧ member.content value
    | .unknown ordinal =>
      header.strictness = .flexible ∧ AcceptsUnknown entries header members ordinal value

/-- A table has each key at most once. The declared ones are members with values that they
accept or with the absent value, which any member of a table may have. -/
def AcceptsTable (entries : Nat) (header : RecordHeader) (members : List (Member (Value → Prop)))
    (fields : List (Field Value)) : Prop :=
  (fields.map Field.key).Nodup ∧
  ∀ field ∈ fields,
    match field.key with
    | .declared name =>
      (∃ member ∈ members, member.name = name) ∧
      ∀ member ∈ members, member.name = name → field.value = .null ∨ member.content field.value
    | .unknown ordinal => AcceptsUnknown entries header members ordinal field.value

/-- A record with a name that can be parsed and with fields that suit its shape. -/
def AcceptsRecord (entries : Nat) (header : RecordHeader)
    (members : List (Member (Value → Prop))) (value : Value) : Prop :=
  Parseable header.name ∧
  ∃ fields, value = .record fields ∧
    match header.kind with
    | .struct => AcceptsStruct members fields
    | .union => AcceptsUnion entries header members fields
    | .table => AcceptsTable entries header members fields

mutual

/-- The values that a declaration accepts, with a handle table of so many entries and with
the handle subtypes that can be spelled. -/
def Accepts (entries : Nat) (supports : HandleSubtype → Bool) : Declaration → Value → Prop
  | .primitive subtype => AcceptsPrimitive subtype
  | .bits scalar | .enumeration scalar => AcceptsScalar scalar
  | .handle subtype _ nullable => fun value =>
    supports subtype = true ∧
      AbsentOr nullable
        (fun present => ∃ reference, present = .handle reference ∧
          reference.index.toNat < entries) value
  | .string nullable => AbsentOr nullable fun value => ∃ content, value = .string content
  | .array element size => fun value =>
    Spellable supports element ∧
      ∃ items, value = .list items ∧ items.length = size.toNat ∧
        ∀ item ∈ items, Accepts entries supports element item
  | .vector element nullable =>
    AbsentOr nullable fun value =>
      Spellable supports element ∧
        ∃ items, value = .list items ∧ ∀ item ∈ items, Accepts entries supports element item
  | .record header members =>
    AbsentOr header.nullable (AcceptsRecord entries header (acceptors entries supports members))

/-- The members of a record, each with the values that its declaration accepts. -/
def acceptors (entries : Nat) (supports : HandleSubtype → Bool) :
    List (Member Declaration) → List (Member (Value → Prop))
  | [] => []
  | ⟨name, ordinal, declaration⟩ :: members =>
    ⟨name, ordinal, fun value => Accepts entries supports declaration value⟩ ::
      acceptors entries supports members

end

/-- Each member accepts what its own declaration accepts. -/
theorem acceptors_eq_map (entries : Nat) (supports : HandleSubtype → Bool)
    (members : List (Member Declaration)) :
    acceptors entries supports members = members.map (Member.map (Accepts entries supports)) := by
  induction members with
  | nil => simp [acceptors]
  | cons member members inductionHypothesis =>
    obtain ⟨name, ordinal, declaration⟩ := member
    simp [acceptors, inductionHypothesis, Member.map]

/-- The type of a declaration is spelled exactly if the declaration is spellable. -/
theorem exists_ofDeclaration_iff (environment : Environment) (declaration : Declaration) :
    (∃ type, TypeReference.ofDeclaration environment declaration = .ok type) ↔
      Spellable environment.supports declaration := by
  induction declaration using Declaration.memberwise with
  | primitive subtype | string nullable => simp [TypeReference.ofDeclaration, Spellable]
  | bits scalar | enumeration scalar | record header members =>
    simp [TypeReference.ofDeclaration, Spellable, Parseable]
  | handle subtype rights nullable => simp [TypeReference.ofDeclaration, Spellable]
  | array element size inductionHypothesis | vector element nullable inductionHypothesis =>
    simp [TypeReference.ofDeclaration, Spellable, ← inductionHypothesis]

namespace Literal

/-- The own rules of a primitive take exactly what the primitive accepts. -/
theorem exists_fitPrimitive_iff (subtype : Primitive) (value : Value) :
    (∃ literal, fitPrimitive subtype value = .ok literal) ↔ AcceptsPrimitive subtype value := by
  simp only [fitPrimitive_eq_ok_iff, holds_iff_inRange, Binary64.exceedsFloat32_eq_false_iff]
  cases value with
  | float number => cases subtype <;> simp [AcceptsPrimitive, Primitive.isFloat]
  | rawFloat pattern =>
    obtain ⟨width, bits⟩ := pattern
    cases width <;> cases subtype <;> simp [AcceptsPrimitive, fitsWidth, UInt32.size]
  | _ => simp [AcceptsPrimitive]

/-- The own rules of a named scalar take exactly what the scalar accepts. -/
theorem exists_fitScalar_iff (declaration : Declaration) (scalar : NamedScalar)
    (build : QualifiedName → Integer → Literal) (value : Value) :
    (∃ literal, fitScalar declaration scalar build value = .ok literal) ↔
      AcceptsScalar scalar value := by
  simp only [fitScalar_eq_ok_iff, holds_iff_inRange, AcceptsScalar, Parseable]
  constructor
  · rintro ⟨literal, name, number, parsed, written, held, built⟩
    exact ⟨⟨name, parsed⟩, number, written, held⟩
  · rintro ⟨⟨name, parsed⟩, number, written, held⟩
    exact ⟨build name number, name, number, parsed, written, held, rfl⟩

/-- The own rules of an array take exactly the lists of its size whose items are taken. -/
theorem exists_fitArray_iff (environment : Environment) (element : Declaration) (size : UInt64)
    (value : Value) :
    (∃ literal, fitArray environment (.array element size) size (fit environment element) value =
        .ok literal) ↔
      Spellable environment.supports element ∧
        ∃ items, value = .list items ∧ items.length = size.toNat ∧
          ∀ item ∈ items, ∃ literal, fit environment element item = .ok literal := by
  have spelled := exists_ofDeclaration_iff environment (.array element size)
  simp only [fitArray_eq_ok_iff, ← exists_forall₂_iff]
  simp only [Spellable] at spelled
  rw [← spelled]
  constructor
  · rintro ⟨literal, items, type, literals, written, counted, found, each, built⟩
    exact ⟨⟨type, found⟩, items, written, counted, literals, each⟩
  · rintro ⟨⟨type, found⟩, items, written, counted, literals, each⟩
    exact ⟨.list type literals, items, type, literals, written, counted, found, each, rfl⟩

/-- The own rules of a vector take exactly the lists whose items are taken. -/
theorem exists_fitVector_iff (environment : Environment) (element : Declaration) (nullable : Bool)
    (value : Value) :
    (∃ literal, fitVector environment (.vector element nullable) (fit environment element) value =
        .ok literal) ↔
      Spellable environment.supports element ∧
        ∃ items, value = .list items ∧
          ∀ item ∈ items, ∃ literal, fit environment element item = .ok literal := by
  have spelled := exists_ofDeclaration_iff environment (.vector element nullable)
  simp only [fitVector_eq_ok_iff, ← exists_forall₂_iff]
  simp only [Spellable] at spelled
  rw [← spelled]
  constructor
  · rintro ⟨literal, items, type, literals, written, found, each, built⟩
    exact ⟨⟨type, found⟩, items, written, literals, each⟩
  · rintro ⟨⟨type, found⟩, items, written, literals, each⟩
    exact ⟨.list type literals, items, type, literals, written, found, each, rfl⟩

/-- Unknown data is carried exactly where it is accepted and the record is extensible. -/
theorem carriesUnknown_iff {α : Type} (environment : Environment) (header : RecordHeader)
    (members : List (Member α)) (ordinal : UInt64) (data : UnknownData) :
    CarriesUnknown environment header members ordinal data ↔
      header.isExtensible = true ∧
        AcceptsUnknown environment.handleCount header members ordinal (.unknownData data) := by
  simp only [AcceptsUnknown, Value.unknownData.injEq, exists_eq_left']
  constructor
  · rintro ⟨extensible, undeclared, resource, indices⟩
    refine ⟨extensible, undeclared, fun held => ?_, indices⟩
    simpa [RecordHeader.isResource] using resource held
  · rintro ⟨extensible, undeclared, resource, indices⟩
    refine ⟨extensible, undeclared, fun held => ?_, indices⟩
    simpa [RecordHeader.isResource] using resource held

/-- Whether unknown data is accepted does not depend on the contents of the members. -/
theorem acceptsUnknown_map {α β : Type} (entries : Nat) (header : RecordHeader)
    (transform : α → β) (members : List (Member α)) (ordinal : UInt64) (value : Value) :
    AcceptsUnknown entries header (members.map (Member.map transform)) ordinal value ↔
      AcceptsUnknown entries header members ordinal value := by
  rw [AcceptsUnknown, AcceptsUnknown, List.forall_mem_map]
  rfl

/-- On an extensible record, the scan for ordinals passes exactly if they are distinct and what
stands under each is accepted. -/
theorem exists_fitUnknownFields_iff {α : Type} (environment : Environment)
    (header : RecordHeader) (extensible : header.isExtensible = true)
    (members : List (Member α)) (fields : List (Field Value)) :
    (∃ unknown, fitUnknownFields environment header members [] fields = .ok unknown) ↔
      ((Field.underOrdinals fields).map Prod.fst).Nodup ∧
        ∀ entry ∈ Field.underOrdinals fields,
          AcceptsUnknown environment.handleCount header members entry.1 entry.2 := by
  simp only [scan_ordinals_eq_ok_iff, carriesUnknown_iff, extensible, true_and]
  constructor
  · rintro ⟨unknown, shape, distinct, -, accepted⟩
    rw [shape, List.map_map, List.forall_mem_map]
    exact ⟨distinct, accepted⟩
  · rintro ⟨distinct, accepted⟩
    have split : ∀ entry ∈ Field.underOrdinals fields, ∃ carried : UInt64 × UnknownData,
        entry = (carried.1, .unknownData carried.2) ∧
          AcceptsUnknown environment.handleCount header members carried.1
            (.unknownData carried.2) := by
      rintro ⟨ordinal, value⟩ listed
      obtain ⟨undeclared, data, rfl, placed⟩ := accepted _ listed
      exact ⟨(ordinal, data), rfl, undeclared, data, rfl, placed⟩
    obtain ⟨unknown, each⟩ := (exists_forall₂_iff _ _).mpr split
    have shape : Field.underOrdinals fields =
        unknown.map (fun entry => (entry.1, .unknownData entry.2)) := by
      rw [← List.forall₂_eq_eq_eq, List.forall₂_map_right_iff]
      exact each.imp fun _ _ fits => fits.1
    rw [shape, List.map_map] at distinct
    refine ⟨unknown, shape, distinct, fun _ _ => List.not_mem_nil, ?_⟩
    rw [shape, List.forall_mem_map] at accepted
    exact accepted

/-- No ordinal is unknown and the names are declared and distinct exactly if the keys are
declared names without repetition. -/
theorem closed_iff {α : Type} (members : List (Member α)) (fields : List (Field Value)) :
    (Field.underOrdinals fields = [] ∧ SetsNames members (Field.underNames fields)) ↔
      (fields.map Field.key).Nodup ∧
        ∀ field ∈ fields, ∃ member ∈ members, field.key = .declared member.name := by
  rw [Field.nodup_keys_iff]
  constructor
  · rintro ⟨closed, declared, distinct⟩
    refine ⟨⟨distinct, by simp [closed]⟩, fun field present => ?_⟩
    obtain ⟨key, value⟩ := field
    cases key with
    | declared name =>
      obtain ⟨member, belongs, same⟩ :=
        declared (name, value) ((Field.mem_underNames fields name value).mpr present)
      exact ⟨member, belongs, same ▸ rfl⟩
    | unknown ordinal =>
      have listed := (Field.mem_underOrdinals fields ordinal value).mpr present
      exact absurd (closed ▸ listed) List.not_mem_nil
  · rintro ⟨⟨distinct, -⟩, declared⟩
    refine ⟨List.eq_nil_iff_forall_not_mem.mpr fun entry listed => ?_, fun entry listed => ?_,
      distinct⟩
    · obtain ⟨member, -, named⟩ :=
        declared _ ((Field.mem_underOrdinals fields entry.1 entry.2).mp listed)
      exact nomatch named
    · obtain ⟨member, belongs, named⟩ :=
        declared _ ((Field.mem_underNames fields entry.1 entry.2).mp listed)
      exact ⟨member, belongs, (FieldKey.declared.inj named).symm⟩

section Records

variable (environment : Environment) (header : RecordHeader) (members : List (Member Declaration))

/-- In every member, fitting takes exactly what is accepted. -/
def Agree : Prop :=
  ∀ member ∈ members, ∀ value, (∃ literal, fit environment member.content value = .ok literal) ↔
    Accepts environment.handleCount environment.supports member.content value

/-- A struct is fitted exactly if it is accepted and its name can be parsed. -/
theorem exists_fitStruct_iff (agree : Agree environment members) (fields : List (Field Value)) :
    (∃ literal, fitStruct header (members.map (Member.map (fit environment))) fields =
        .ok literal) ↔
      Parseable header.name ∧
        AcceptsStruct
          (members.map (Member.map (Accepts environment.handleCount environment.supports)))
          fields := by
  have each : (∃ fitted, List.Forall₂ (fun member (entry : String × Literal) =>
        entry.1 = member.name ∧
        ∃ value, ⟨.declared member.name, value⟩ ∈ fields ∧ member.content value = .ok entry.2)
        (members.map (Member.map (fit environment))) fitted) ↔
      ∀ member ∈ members, ∃ value, ⟨.declared member.name, value⟩ ∈ fields ∧
        Accepts environment.handleCount environment.supports member.content value := by
    rw [exists_forall₂_iff, List.forall_mem_map]
    refine forall₂_congr fun member belongs => ?_
    constructor
    · rintro ⟨entry, -, value, set, fits⟩
      exact ⟨value, set, (agree member belongs value).mp ⟨entry.2, fits⟩⟩
    · rintro ⟨value, set, accepted⟩
      obtain ⟨literal, fits⟩ := (agree member belongs value).mpr accepted
      exact ⟨(member.name, literal), rfl, value, set, fits⟩
  have keys : (∀ field ∈ fields, ∃ member ∈ members.map
        (Member.map (Accepts environment.handleCount environment.supports)),
        field.key = .declared member.name) ↔
      ∀ field ∈ fields, ∃ member ∈ members, field.key = .declared member.name := by
    simp [Member.map]
  rw [AcceptsStruct, keys, ← and_assoc (a := (fields.map Field.key).Nodup),
    ← closed_iff members fields, List.forall_mem_map]
  simp only [fitStruct_eq_ok_iff, setsNames_map, Parseable, Member.map]
  rw [← each]
  constructor
  · rintro ⟨-, closed, sets, name, fitted, parsed, fits, -⟩
    exact ⟨⟨name, parsed⟩, ⟨closed, sets⟩, fitted, fits⟩
  · rintro ⟨⟨name, parsed⟩, ⟨closed, sets⟩, fitted, fits⟩
    exact ⟨_, closed, sets, name, fitted, parsed, fits, rfl⟩

/-- A union is fitted exactly if it is accepted and its name can be parsed. -/
theorem exists_fitUnion_iff (union : header.kind = .union) (agree : Agree environment members)
    (fields : List (Field Value)) :
    (∃ literal, fitUnion environment header (members.map (Member.map (fit environment))) fields =
        .ok literal) ↔
      Parseable header.name ∧
        AcceptsUnion environment.handleCount header
          (members.map (Member.map (Accepts environment.handleCount environment.supports)))
          fields := by
  have extensible : header.isExtensible = true ↔ header.strictness = .flexible := by
    simp [RecordHeader.isExtensible, union]
  simp only [fitUnion_eq_ok_iff, Member.named?_map, carriesUnknown_iff, acceptsUnknown_map,
    extensible]
  constructor
  · rintro ⟨_, ⟨name, value, _, content, parsed, rfl, found, fits, named, -⟩ |
      ⟨ordinal, data, parsed, rfl, ⟨flexible, accepted⟩, named, -⟩⟩
    · obtain ⟨member, declared, rfl⟩ := Option.map_eq_some_iff.mp found
      have belongs := (Member.mem_of_named? declared).1
      refine ⟨⟨parsed, named⟩, .declared name, value, rfl, member.map _, ?_,
        (agree member belongs value).mp ⟨content, fits⟩⟩
      rw [Member.named?_map, declared]
      rfl
    · exact ⟨⟨parsed, named⟩, .unknown ordinal, _, rfl, flexible,
        (acceptsUnknown_map ..).mpr accepted⟩
  · rintro ⟨⟨parsed, named⟩, key, value, rfl, accepted⟩
    cases key with
    | declared name =>
      obtain ⟨_, found, accepted⟩ := accepted
      rw [Member.named?_map] at found
      obtain ⟨member, declared, rfl⟩ := Option.map_eq_some_iff.mp found
      have belongs := (Member.mem_of_named? declared).1
      obtain ⟨literal, fits⟩ := (agree member belongs value).mpr accepted
      exact ⟨_, .inl ⟨name, value, _, literal, parsed, rfl,
        by rw [declared]; rfl, fits, named, rfl⟩⟩
    | unknown ordinal =>
      obtain ⟨flexible, accepted⟩ := accepted
      have placed := (acceptsUnknown_map ..).mp accepted
      obtain ⟨-, data, rfl, -⟩ := accepted
      exact ⟨_, .inr ⟨ordinal, data, parsed, rfl, ⟨flexible, placed⟩, named, rfl⟩⟩

/-- The present members of a table are fitted exactly if each of them is accepted. -/
theorem exists_present_iff (agree : Agree environment members) {fields : List (Field Value)}
    (sets : SetsNames members (Field.underNames fields)) :
    (∃ fitted : List (String × Literal), List.Forall₂
        (fun chosen entry => entry.1 = chosen.1.name ∧ chosen.1.content chosen.2 = .ok entry.2)
        (presentMembers (members.map (Member.map (fit environment))) (Field.underNames fields))
        fitted) ↔
      ∀ member ∈ members, ∀ value, ⟨.declared member.name, value⟩ ∈ fields → value ≠ .null →
        Accepts environment.handleCount environment.supports member.content value := by
  have chosen_iff := mem_presentMembers ((setsNames_map (fit environment) ..).mpr sets)
  rw [exists_forall₂_iff]
  constructor
  · intro each member declared value present some
    obtain ⟨entry, -, fits⟩ := each (member.map (fit environment), value)
      ((chosen_iff _).mpr ⟨List.mem_map_of_mem declared, present, some⟩)
    exact (agree member declared value).mp ⟨entry.2, fits⟩
  · rintro accepted ⟨_, value⟩ listed
    obtain ⟨belongs, present, some⟩ := (chosen_iff _).mp listed
    obtain ⟨member, declared, rfl⟩ := List.mem_map.mp belongs
    obtain ⟨literal, fits⟩ :=
      (agree member declared value).mpr (accepted member declared value present some)
    exact ⟨(member.name, literal), rfl, fits⟩

/-- A table is fitted exactly if it is accepted and its name can be parsed. -/
theorem exists_fitTable_iff (table : header.kind = .table) (agree : Agree environment members)
    (fields : List (Field Value)) :
    (∃ literal, fitTable environment header (members.map (Member.map (fit environment))) fields =
        .ok literal) ↔
      Parseable header.name ∧
        AcceptsTable environment.handleCount header
          (members.map (Member.map (Accepts environment.handleCount environment.supports)))
          fields := by
  have extensible : header.isExtensible = true := by simp [RecordHeader.isExtensible, table]
  have unknown := exists_fitUnknownFields_iff environment header extensible
    (members.map (Member.map (fit environment))) fields
  simp only [fitTable_eq_ok_iff, setsNames_map]
  constructor
  · rintro ⟨_, sets, name, fitted, carried, named, scanned, each, -⟩
    obtain ⟨distinct, accepted⟩ := unknown.mp ⟨carried, scanned⟩
    have taken := (exists_present_iff environment members agree sets).mp ⟨fitted, each⟩
    refine ⟨⟨name, named⟩, (Field.nodup_keys_iff fields).mpr ⟨sets.distinct, distinct⟩, ?_⟩
    rintro ⟨key, value⟩ present
    cases key with
    | unknown ordinal =>
      exact (acceptsUnknown_map ..).mpr ((acceptsUnknown_map ..).mp
        (accepted _ ((Field.mem_underOrdinals fields ordinal value).mpr present)))
    | declared name =>
      obtain ⟨member, belongs, same⟩ :=
        sets.declared _ ((Field.mem_underNames fields name value).mpr present)
      refine ⟨⟨_, List.mem_map_of_mem belongs, same⟩, List.forall_mem_map.mpr ?_⟩
      rintro other declared rfl
      by_cases absent : value = .null
      · exact .inl absent
      · exact .inr (taken other declared value present absent)
  · rintro ⟨⟨name, named⟩, distinct, accepted⟩
    obtain ⟨names, ordinals⟩ := (Field.nodup_keys_iff fields).mp distinct
    have sets : SetsNames members (Field.underNames fields) := by
      refine ⟨fun entry listed => ?_, names⟩
      obtain ⟨⟨_, belongs, same⟩, -⟩ :=
        accepted _ ((Field.mem_underNames fields entry.1 entry.2).mp listed)
      obtain ⟨member, declared, rfl⟩ := List.mem_map.mp belongs
      exact ⟨member, declared, same⟩
    obtain ⟨carried, scanned⟩ := unknown.mpr ⟨ordinals, fun entry listed =>
      (acceptsUnknown_map ..).mpr ((acceptsUnknown_map ..).mp
        (accepted _ ((Field.mem_underOrdinals fields entry.1 entry.2).mp listed)))⟩
    obtain ⟨fitted, each⟩ := (exists_present_iff environment members agree sets).mpr
      fun member declared value present some => by
        obtain ⟨-, taken⟩ := accepted _ present
        exact (taken _ (List.mem_map_of_mem declared) rfl).resolve_left some
    exact ⟨_, sets, name, fitted, carried, named, scanned, each, rfl⟩

end Records

/-- What decides about the fields of a record decides about the record. -/
theorem exists_record_iff {fitted : List (Field Value) → Literal → Prop} {parseable : Prop}
    {accepted : List (Field Value) → Prop}
    (decided : ∀ fields, (∃ literal, fitted fields literal) ↔ parseable ∧ accepted fields)
    (value : Value) :
    (∃ literal fields, value = .record fields ∧ fitted fields literal) ↔
      parseable ∧ ∃ fields, value = .record fields ∧ accepted fields := by
  constructor
  · rintro ⟨literal, fields, given, fits⟩
    obtain ⟨parsed, suits⟩ := (decided fields).mp ⟨literal, fits⟩
    exact ⟨parsed, fields, given, suits⟩
  · rintro ⟨parsed, fields, given, suits⟩
    obtain ⟨literal, fits⟩ := (decided fields).mpr ⟨parsed, suits⟩
    exact ⟨literal, fields, given, fits⟩

/-- A value is fitted to a declaration exactly if the declaration accepts it.

The induction is on the declaration, whose parts decide about the parts of the value. -/
theorem exists_fit_iff_accepts (environment : Environment) (declaration : Declaration)
    (value : Value) :
    (∃ literal, fit environment declaration value = .ok literal) ↔
      Accepts environment.handleCount environment.supports declaration value := by
  induction declaration using Declaration.memberwise generalizing value with
  | primitive subtype =>
    simp only [fit_primitive_eq_ok_iff, exists_fitPrimitive_iff, Accepts]
  | bits scalar => simp only [fit_bits_eq_ok_iff, exists_fitScalar_iff, Accepts]
  | enumeration scalar => simp only [fit_enumeration_eq_ok_iff, exists_fitScalar_iff, Accepts]
  | handle subtype rights nullable =>
    simp only [fit_handle_eq_ok_iff, fitHandle_eq_ok_iff, Accepts, AbsentOr]
    constructor
    · rintro ⟨_, ⟨absent, permitted, supported, -⟩ | ⟨reference, given, bounded, supported, -⟩⟩
      · exact ⟨supported, .inl ⟨absent, permitted⟩⟩
      · exact ⟨supported, .inr ⟨reference, given, bounded⟩⟩
    · rintro ⟨supported, ⟨absent, permitted⟩ | ⟨reference, given, bounded⟩⟩
      · exact ⟨_, .inl ⟨absent, permitted, supported, rfl⟩⟩
      · exact ⟨_, .inr ⟨reference, given, bounded, supported, rfl⟩⟩
  | string nullable =>
    simp only [fit_string_eq_ok_iff, fitString_eq_ok_iff, Accepts, AbsentOr]
    constructor
    · rintro ⟨_, ⟨absent, permitted, -⟩ | ⟨content, given, -⟩⟩
      · exact .inl ⟨absent, permitted⟩
      · exact .inr ⟨content, given⟩
    · rintro (⟨absent, permitted⟩ | ⟨content, given⟩)
      · exact ⟨_, .inl ⟨absent, permitted, rfl⟩⟩
      · exact ⟨_, .inr ⟨content, given, rfl⟩⟩
  | array element size inductionHypothesis =>
    simp only [fit_array_eq_ok_iff, exists_fitArray_iff, inductionHypothesis, Accepts]
  | vector element nullable inductionHypothesis =>
    simp only [fit_vector_eq_ok_iff, exists_or, exists_fitVector_iff, inductionHypothesis, Accepts,
      AbsentOr, exists_and_left, exists_eq', and_true]
  | record header members inductionHypothesis =>
    simp only [fit_record_eq_ok_iff, exists_or, Accepts, AbsentOr, acceptors_eq_map, AcceptsRecord,
      exists_and_left, exists_eq', and_true]
    refine or_congr_right ?_
    cases kind : header.kind with
    | struct => exact exists_record_iff (exists_fitStruct_iff _ header _ inductionHypothesis) value
    | union => exact exists_record_iff (exists_fitUnion_iff _ header _ kind inductionHypothesis) value
    | table => exact exists_record_iff (exists_fitTable_iff _ header _ kind inductionHypothesis) value

end Literal

end FixtureLiterals
