import FixtureLiterals.Proofs.Literal.WellFormed

/-!
# Reading literals back as values

A literal holds all that its value said. Reading it back forgets what the declaration added:
the subtypes, the names of types, whether something is optional, and the ordinals of declared
members. What is read back from a well-formed literal fits its declaration again, and
gives the same literal.

So well-formed literals are exactly those that fitting returns. That takes one property of
the declaration: the members of each record have distinct names, as otherwise a struct would
read back as a record that repeats one.
-/

namespace FixtureLiterals

namespace Literal

mutual

/-- The value that a literal holds. -/
def raise : Literal → Value
  | .bool value => .bool value
  | .integer value _ | .bits _ value | .enumeration _ value => .integer value
  | .float value _ => .float value
  | .floatBits pattern subtype =>
    .rawFloat ⟨if subtype = .float32 then .f32 else .f64, pattern⟩
  | .string value _ => .string value
  | .handle index _ rights => .handle ⟨index, rights⟩
  | .invalidHandle _ | .null => .null
  | .list _ elements => .list (raises elements)
  | .struct _ _ fields => .record (raiseFields fields)
  | .union _ _ field _ value => .record [Value.named field (raise value)]
  | .unknownUnion _ _ ordinal data => .record [Value.unknown ordinal data]
  | .table _ _ fields unknown =>
    .record (raiseFields fields ++ unknown.map fun entry => Value.unknown entry.1 entry.2)

/-- The values that literals hold. -/
def raises : List Literal → List Value
  | [] => []
  | literal :: literals => raise literal :: raises literals

/-- The fields that named literals hold. -/
def raiseFields : List (String × Literal) → List (Field Value)
  | [] => []
  | (name, literal) :: fields => Value.named name (raise literal) :: raiseFields fields

end

/-- Each literal of a list is read back on its own. -/
theorem raises_eq_map (literals : List Literal) : raises literals = literals.map raise := by
  induction literals with
  | nil => simp [raises]
  | cons literal literals inductionHypothesis => simp [raises, inductionHypothesis]

/-- Each named literal is read back on its own, under its name. -/
theorem raiseFields_eq_map (fields : List (String × Literal)) :
    raiseFields fields = fields.map fun field => Value.named field.1 (raise field.2) := by
  induction fields with
  | nil => simp [raiseFields]
  | cons field fields inductionHypothesis =>
    obtain ⟨name, literal⟩ := field
    simp [raiseFields, inductionHypothesis]

/-- Only an absent literal is read back as the absent value. -/
theorem raise_eq_null_iff (literal : Literal) : raise literal = .null ↔ literal.IsAbsent := by
  cases literal <;> simp [raise, IsAbsent]

end Literal

namespace Field

variable {α : Type}

/-- Named entries as fields, then entries under unknown ordinals. -/
def ofEntries (names : List (String × α)) (ordinals : List (UInt64 × α)) : List (Field α) :=
  names.map (fun entry => ⟨.declared entry.1, entry.2⟩) ++
    ordinals.map fun entry => ⟨.unknown entry.1, entry.2⟩

/-- The named entries are the fields under declared names. -/
theorem underNames_ofEntries (names : List (String × α)) (ordinals : List (UInt64 × α)) :
    underNames (ofEntries names ordinals) = names := by
  induction names with
  | nil =>
    induction ordinals with
    | nil => rfl
    | cons entry ordinals inductionHypothesis => exact inductionHypothesis
  | cons entry names inductionHypothesis => exact congrArg (entry :: ·) inductionHypothesis

/-- The other entries are the fields under unknown ordinals. -/
theorem underOrdinals_ofEntries (names : List (String × α)) (ordinals : List (UInt64 × α)) :
    underOrdinals (ofEntries names ordinals) = ordinals := by
  induction names with
  | nil =>
    induction ordinals with
    | nil => rfl
    | cons entry ordinals inductionHypothesis => exact congrArg (entry :: ·) inductionHypothesis
  | cons entry names inductionHypothesis => exact inductionHypothesis

end Field

namespace Literal

/-- The fields of a table's literal are named entries and entries under unknown ordinals. -/
theorem raise_table (name : QualifiedName) (nullable : Bool) (fields : List (String × Literal))
    (unknown : List (UInt64 × UnknownData)) :
    raise (.table name nullable fields unknown) =
      .record (Field.ofEntries (fields.map fun field => (field.1, raise field.2))
        (unknown.map fun entry => (entry.1, .unknownData entry.2))) := by
  simp only [raise, raiseFields_eq_map, Field.ofEntries, List.map_map]
  rfl

/-- The fields of a struct's literal are named entries only. -/
theorem raise_struct (name : QualifiedName) (nullable : Bool) (fields : List (String × Literal)) :
    raise (.struct name nullable fields) =
      .record (Field.ofEntries (fields.map fun field => (field.1, raise field.2)) []) := by
  simp only [raise, raiseFields_eq_map, Field.ofEntries, List.map_map, List.map_nil,
    List.append_nil]
  rfl

/-- Some of the members, given values that are not absent, are exactly those present. -/
theorem presentMembers_of_sublist {α : Type} {present members : List (Member α)}
    {entries : List (String × Value)} (declared : present.Sublist members)
    (distinct : (members.map Member.name).Nodup)
    (named : present.map Member.name = entries.map Prod.fst)
    (held : ∀ entry ∈ entries, entry.2 ≠ .null) :
    presentMembers members entries = present.zip (entries.map Prod.snd) := by
  induction declared generalizing entries with
  | slnil => rfl
  | @cons present members member ordered inductionHypothesis =>
    obtain ⟨apart, rest⟩ := List.nodup_cons.mp distinct
    have unset : entries.lookup member.name = none := by
      refine List.lookup_eq_none_iff.mpr fun entry listed => ?_
      have used : entry.1 ∈ present.map Member.name := named ▸ List.mem_map_of_mem listed
      have known : entry.1 ∈ members.map Member.name := (ordered.map Member.name).subset used
      exact bne_iff_ne.mpr fun same : member.name = entry.1 => apart (same ▸ known)
    have skipped : presentMembers (member :: members) entries = presentMembers members entries := by
      simp [presentMembers, unset]
    rw [skipped, inductionHypothesis rest named held]
  | @cons_cons present members member ordered inductionHypothesis =>
    obtain ⟨apart, rest⟩ := List.nodup_cons.mp distinct
    cases entries with
    | nil => cases named
    | cons entry entries =>
      obtain ⟨name, value⟩ := entry
      obtain ⟨rfl, names⟩ := List.cons.inj named
      obtain ⟨holds, others⟩ := List.forall_mem_cons.mp held
      have kept : value.isNull = false := by
        rw [← Bool.not_eq_true, isNull_iff]
        exact holds
      -- No later member has the name, so its entry makes no difference to them.
      have later : presentMembers members ((member.name, value) :: entries) =
          presentMembers members entries := by
        refine List.filterMap_congr fun other listed => ?_
        have different : (other.name == member.name) = false :=
          beq_false_of_ne fun same : other.name = member.name =>
            apart (same ▸ List.mem_map_of_mem listed)
        rw [List.lookup_cons, different]
      have first : presentMembers (member :: members) ((member.name, value) :: entries) =
          (member, value) :: presentMembers members ((member.name, value) :: entries) := by
        simp [presentMembers, kept]
      rw [first, later, inductionHypothesis rest names others]
      rfl

/-- What is related to the members of one list is related to them paired with the other. -/
theorem forall₂_zip_map {α β γ : Type} {relation : α → β → Prop} (transform : β → γ)
    {left : List α} {right : List β} (related : List.Forall₂ relation left right) :
    List.Forall₂ (fun paired second => relation paired.1 second ∧ paired.2 = transform second)
      (left.zip (right.map transform)) right := by
  induction related with
  | nil => exact .nil
  | cons head _ inductionHypothesis => exact .cons ⟨head, rfl⟩ inductionHypothesis

section Records

variable {environment : Environment} {header : RecordHeader} {members : List (Member Declaration)}
  (apart : (members.map Member.name).Nodup)
  (contents : ∀ member ∈ members, ∀ literal, WellFormed environment member.content literal →
    fit environment member.content (raise literal) = .ok literal)
include apart contents

/-- What is read back from a struct fits it again if that is so for its members. -/
theorem fit_raise_struct {name : QualifiedName} {fields : List (String × Literal)}
    (kind : header.kind = .struct) (parsed : QualifiedName.parse header.name = .ok name)
    (named : members.map Member.name = fields.map Prod.fst)
    (each : List.Forall₂ (fun member field => WellFormed environment member.content field.2)
      members fields) :
    fit environment (.record header members) (raise (.struct name header.nullable fields)) =
      .ok (.struct name header.nullable fields) := by
  rw [fit_record_eq_ok_iff]
  refine .inr ⟨_, raise_struct .., ?_⟩
  simp only [kind]
  rw [fitStruct_eq_ok_iff, Field.underOrdinals_ofEntries, Field.underNames_ofEntries]
  have keys : (fields.map fun field => (field.1, raise field.2)).map Prod.fst =
      members.map Member.name := by
    rw [named, List.map_map]
    rfl
  refine ⟨rfl, (setsNames_map ..).mpr ⟨fun entry listed => ?_, keys ▸ apart⟩, name, fields, parsed,
    ?_, rfl⟩
  · have used : entry.1 ∈ members.map Member.name := keys ▸ List.mem_map_of_mem listed
    exact List.mem_map.mp used
  · rw [List.forall₂_map_left_iff]
    have both := (forall₂_named_iff Member.name Prod.fst _ _ _).mpr ⟨named, each⟩
    refine forall₂_imp_of_mem (fun member declared field listed fitting => ?_) both
    obtain ⟨same, wellFormed⟩ := fitting
    refine ⟨same, raise field.2, ?_, contents member declared field.2 wellFormed⟩
    rw [← Field.mem_underNames, Field.underNames_ofEntries]
    exact List.mem_map.mpr ⟨field, listed, by rw [same]; rfl⟩

omit apart in
/-- What is read back from a union fits it again if that is so for its members. -/
theorem fit_raise_union {name : QualifiedName} {member : Member Declaration} {value : Literal}
    (kind : header.kind = .union) (parsed : QualifiedName.parse header.name = .ok name)
    (declared : Member.named? members member.name = some member)
    (content : WellFormed environment member.content value) :
    fit environment (.record header members)
        (raise (.union name header.nullable member.name member.ordinal value)) =
      .ok (.union name header.nullable member.name member.ordinal value) := by
  rw [fit_record_eq_ok_iff]
  refine .inr ⟨_, by rw [raise], ?_⟩
  simp only [kind]
  rw [fitUnion_eq_ok_iff]
  refine .inl ⟨member.name, raise value, member.map (fit environment), value, name, rfl, ?_, ?_,
    parsed, rfl⟩
  · rw [Member.named?_map, declared, Option.map_some]
  · exact contents member (Member.mem_of_named? declared).1 value content

/-- What is read back from a table fits it again if that is so for its members. -/
theorem fit_raise_table {name : QualifiedName} {present : List (Member Declaration)}
    {fields : List (String × Literal)} {unknown : List (UInt64 × UnknownData)}
    (kind : header.kind = .table) (parsed : QualifiedName.parse header.name = .ok name)
    (declared : present.Sublist members)
    (named : present.map Member.name = fields.map Prod.fst)
    (each : List.Forall₂ (fun member field => WellFormed environment member.content field.2)
      present fields)
    (held : ∀ field ∈ fields, ¬ field.2.IsAbsent)
    (distinct : (unknown.map Prod.fst).Nodup)
    (carried : ∀ entry ∈ unknown, CarriesUnknown environment header members entry.1 entry.2) :
    fit environment (.record header members) (raise (.table name header.nullable fields unknown)) =
      .ok (.table name header.nullable fields unknown) := by
  rw [fit_record_eq_ok_iff]
  refine .inr ⟨_, raise_table .., ?_⟩
  simp only [kind]
  rw [fitTable_eq_ok_iff, Field.underNames_ofEntries]
  have keys : present.map Member.name =
      (fields.map fun field => (field.1, raise field.2)).map Prod.fst := by
    rw [named, List.map_map]
    rfl
  have ordered : (present.map Member.name).Sublist (members.map Member.name) :=
    declared.map Member.name
  refine ⟨(setsNames_map ..).mpr ⟨fun entry listed => ?_, keys ▸ apart.sublist ordered⟩, name, fields,
    unknown, parsed, ?_, ?_, rfl⟩
  · have used : entry.1 ∈ present.map Member.name := keys ▸ List.mem_map_of_mem listed
    exact List.mem_map.mp (ordered.subset used)
  · refine (scan_ordinals_eq_ok_iff ..).mpr
      ⟨Field.underOrdinals_ofEntries .., distinct, fun _ _ => List.not_mem_nil, ?_⟩
    exact fun entry listed => (carriesUnknown_map ..).mpr (carried entry listed)
  · have values : ∀ entry ∈ fields.map fun field => (field.1, raise field.2), entry.2 ≠ .null := by
      rw [List.forall_mem_map]
      exact fun field listed null => held field listed ((raise_eq_null_iff _).mp null)
    rw [presentMembers_map, presentMembers_of_sublist declared apart keys values,
      List.forall₂_map_left_iff, List.map_map]
    have both := (forall₂_named_iff Member.name Prod.fst _ _ _).mpr ⟨named, each⟩
    have paired := forall₂_zip_map (fun field => raise field.2) both
    refine forall₂_imp_of_mem (fun chosen listed field _ fitting => ?_) paired
    obtain ⟨⟨same, wellFormed⟩, read⟩ := fitting
    refine ⟨same, ?_⟩
    have member : chosen.1 ∈ members := declared.subset (List.of_mem_zip listed).1
    rw [read]
    exact contents chosen.1 member field.2 wellFormed

end Records

/-- What is read back from a well-formed literal fits its declaration again and gives the same
literal. -/
theorem fit_raise_of_wellFormed {environment : Environment} {declaration : Declaration}
    {literal : Literal} (distinct : declaration.Distinct)
    (wellFormed : WellFormed environment declaration literal) :
    fit environment declaration (raise literal) = .ok literal := by
  induction declaration using Declaration.memberwise generalizing literal with
  | primitive subtype =>
    rw [fit_primitive_eq_ok_iff, fitPrimitive_eq_ok_iff]
    cases wellFormed with
    | bool value => exact .inl ⟨value, rfl, rfl, rfl⟩
    | integer bounded =>
      exact .inr (.inl ⟨_, rfl, (holds_iff_inRange _ _).mpr bounded, rfl⟩)
    | @float _ number floating bounded =>
      exact .inr (.inr (.inl ⟨number, rfl, floating, fun single =>
        (Binary64.exceedsFloat32_eq_false_iff number).mpr (bounded single), rfl⟩))
    | @floatBits _ pattern floating bounded =>
      refine .inr (.inr (.inr ⟨_, rfl, ?_, rfl⟩))
      cases subtype
      case float32 => exact decide_eq_true (bounded rfl)
      case float64 => rfl
      all_goals exact nomatch floating
  | bits scalar =>
    rw [fit_bits_eq_ok_iff, fitScalar_eq_ok_iff]
    cases wellFormed with
    | bits parsed bounded => exact ⟨_, _, parsed, rfl, (holds_iff_inRange _ _).mpr bounded, rfl⟩
  | enumeration scalar =>
    rw [fit_enumeration_eq_ok_iff, fitScalar_eq_ok_iff]
    cases wellFormed with
    | enumeration parsed bounded =>
      exact ⟨_, _, parsed, rfl, (holds_iff_inRange _ _).mpr bounded, rfl⟩
  | handle subtype rights nullable =>
    rw [fit_handle_eq_ok_iff, fitHandle_eq_ok_iff]
    cases wellFormed with
    | handle supported inTable => exact .inr ⟨_, rfl, inTable, supported, rfl⟩
    | invalidHandle supported => exact .inl ⟨rfl, rfl, supported, rfl⟩
  | string nullable =>
    rw [fit_string_eq_ok_iff, fitString_eq_ok_iff]
    cases wellFormed with
    | string value => exact .inr ⟨value, rfl, rfl⟩
    | absentString => exact .inl ⟨rfl, rfl, rfl⟩
  | array element size inductionHypothesis =>
    rw [fit_array_eq_ok_iff, fitArray_eq_ok_iff]
    cases wellFormed with
    | @array _ _ type elements described counted each =>
      refine ⟨elements.map raise, type, elements, by rw [raise, raises_eq_map],
        by rw [List.length_map, counted], (ofDeclaration_eq_ok_iff ..).mpr described, ?_, rfl⟩
      rw [List.forall₂_map_left_iff, List.forall₂_same]
      exact fun item listed => inductionHypothesis distinct.element_of_array (each item listed)
  | vector element nullable inductionHypothesis =>
    rw [fit_vector_eq_ok_iff, fitVector_eq_ok_iff]
    cases wellFormed with
    | @vector _ _ type elements described each =>
      refine .inr ⟨elements.map raise, type, elements, by rw [raise, raises_eq_map],
        (ofDeclaration_eq_ok_iff ..).mpr described, ?_, rfl⟩
      rw [List.forall₂_map_left_iff, List.forall₂_same]
      exact fun item listed => inductionHypothesis distinct.element_of_vector (each item listed)
    | absentVector => exact .inl ⟨rfl, rfl, rfl⟩
  | record header members inductionHypothesis =>
    have apart : (members.map Member.name).Nodup := distinct.self
    have contents : ∀ member ∈ members, ∀ literal,
        WellFormed environment member.content literal →
          fit environment member.content (raise literal) = .ok literal :=
      fun member declared literal fitting =>
        inductionHypothesis member declared (distinct.member member declared) fitting
    cases wellFormed with
    | struct kind parsed named each => exact fit_raise_struct apart contents kind parsed named each
    | union kind parsed declared content =>
      exact fit_raise_union contents kind parsed declared content
    | unknownUnion kind parsed carried =>
      rw [fit_record_eq_ok_iff]
      refine .inr ⟨_, by rw [raise], ?_⟩
      simp only [kind]
      rw [fitUnion_eq_ok_iff]
      exact .inr ⟨_, _, _, rfl, (carriesUnknown_map ..).mpr carried, parsed, rfl⟩
    | table kind parsed declared named each held distinct carried =>
      exact fit_raise_table apart contents kind parsed declared named each held distinct carried
    | absentRecord _ nullable =>
      rw [fit_record_eq_ok_iff]
      exact .inl ⟨rfl, nullable, rfl⟩

/-- Well-formedness is exactly what fitting guarantees: it returns well-formed literals only,
and, where members are told apart by their names, each of them. -/
theorem fitted_exactly_wellFormed (environment : Environment) (declaration : Declaration)
    (literal : Literal) :
    ((∃ value, fit environment declaration value = .ok literal) →
      WellFormed environment declaration literal) ∧
    (declaration.Distinct → WellFormed environment declaration literal →
      ∃ value, fit environment declaration value = .ok literal) := by
  constructor
  · rintro ⟨value, fits⟩
    exact wellFormed_of_fit fits
  · intro distinct wellFormed
    exact ⟨raise literal, fit_raise_of_wellFormed distinct wellFormed⟩

/-- A table with a present member, an absent one and an unknown ordinal is well-formed, since
it comes from a value, and so it comes from one. -/
theorem fitted_exactly_wellFormed_table :
    let environment : Environment := ⟨.go, fun subtype => subtype == .channel, 1⟩
    let declaration : Declaration := .record ⟨"lib/Sample", .table, false, .resource, .flexible⟩
      [⟨"first", 1, .handle .channel ⟨0⟩ true⟩, ⟨"second", 2, .string true⟩]
    let literal : Literal := .table ⟨["lib"], "Sample"⟩ false
      [("first", .handle 0 .channel none)] [(5, ⟨[7], [0]⟩)]
    WellFormed environment declaration literal ∧
      ∃ value, fit environment declaration value = .ok literal := by
  intro environment declaration literal
  have fits : fit environment declaration (.record [Value.unknown 5 ⟨[7], [0]⟩,
      Value.named "second" .null, Value.named "first" (.handle ⟨0, none⟩)]) = .ok literal := rfl
  have distinct : declaration.Distinct :=
    ⟨by simp [Declaration.NamesApart], trivial, trivial, trivial⟩
  have exactly := fitted_exactly_wellFormed environment declaration literal
  have wellFormed : WellFormed environment declaration literal := exactly.1 ⟨_, fits⟩
  exact ⟨wellFormed, exactly.2 distinct wellFormed⟩

end Literal

end FixtureLiterals
