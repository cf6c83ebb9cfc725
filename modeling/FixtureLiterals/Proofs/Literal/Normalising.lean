import FixtureLiterals.Proofs.Literal.Raising

/-!
# What fitting keeps of a value

Fitting orders the fields of a record, leaves out the absent fields of a table, and keeps
everything else. A value in normal form is one that already is as fitting would have it. So
what is read back from a fitted literal is the normal form of its value: no number, handle,
field or byte is lost, added, or moved to another key, at any depth. And since what is read
back fits again, to the same literal, the normal form is as good as the value.

The fields of a record stand for members by their names. That no two members have the same
name is assumed here, and is true of all declarations that documents give.
-/

namespace FixtureLiterals

namespace Value

/-- The fields of a record in normal form: the known ones in the order of declaration, then
the unknown ones in the order of the value. A table leaves absent known fields out. -/
def normaliseFields (kind : RecordKind) (members : List (Member (Value → Value)))
    (fields : List (Field Value)) : List (Field Value) :=
  Field.ofEntries
    (members.filterMap fun member =>
      match (Field.underNames fields).lookup member.name with
      | some value =>
        if kind = .table ∧ value.isNull then none else some (member.name, member.content value)
      | none => none)
    (Field.underOrdinals fields)

/-- A record in normal form. Other values are in normal form already. -/
def normaliseRecord (kind : RecordKind) (members : List (Member (Value → Value))) :
    Value → Value
  | .record fields => .record (normaliseFields kind members fields)
  | value => value

/-- A list in normal form. Other values are in normal form already. -/
def normaliseList (normaliseItem : Value → Value) : Value → Value
  | .list items => .list (items.map normaliseItem)
  | value => value

mutual

/-- The normal form of a value of some declaration. -/
def normalise : Declaration → Value → Value
  | .primitive _ | .bits _ | .enumeration _ | .handle _ _ _ | .string _ => id
  | .array element _ | .vector element _ => normaliseList fun item => normalise element item
  | .record header members => normaliseRecord header.kind (normalisers members)

/-- The members of a record, each with the normal form for its declaration. -/
def normalisers : List (Member Declaration) → List (Member (Value → Value))
  | [] => []
  | ⟨name, ordinal, declaration⟩ :: members =>
    ⟨name, ordinal, fun value => normalise declaration value⟩ :: normalisers members

end

/-- Each member brings its values to the normal form for its own declaration. -/
theorem normalisers_eq_map (members : List (Member Declaration)) :
    normalisers members = members.map (Member.map normalise) := by
  induction members with
  | nil => simp [normalisers]
  | cons member members inductionHypothesis =>
    obtain ⟨name, ordinal, declaration⟩ := member
    simp [normalisers, inductionHypothesis, Member.map]

/-- The absent value is in normal form. -/
theorem normalise_null (declaration : Declaration) : normalise declaration .null = .null := by
  cases declaration <;> simp [normalise, normaliseList, normaliseRecord]

end Value

/-- Two lists that are related member by member select the same results if related members
do. -/
theorem filterMap_eq_map_of_forall₂ {α β γ : Type} {relation : α → β → Prop}
    {select : α → Option γ} {transform : β → γ} {left : List α} {right : List β}
    (agree : ∀ first ∈ left, ∀ second ∈ right, relation first second →
      select first = some (transform second))
    (related : List.Forall₂ relation left right) :
    left.filterMap select = right.map transform := by
  induction related with
  | nil => rfl
  | @cons first second left right head _ inductionHypothesis =>
    have later := inductionHypothesis fun first member second listed =>
      agree first (List.mem_cons_of_mem _ member) second (List.mem_cons_of_mem _ listed)
    have selected := agree first List.mem_cons_self second List.mem_cons_self head
    rw [List.filterMap_cons_some selected, List.map_cons, later]

/-- Of the members of distinct names, only the one of a name is selected by it. -/
theorem filterMap_named {α β : Type} {members : List (Member α)}
    (distinct : (members.map Member.name).Nodup) {member : Member α} (declared : member ∈ members)
    (select : Member α → Option β)
    (others : ∀ other ∈ members, other.name ≠ member.name → select other = none) :
    members.filterMap select = (select member).toList := by
  induction members with
  | nil => exact nomatch declared
  | cons first members inductionHypothesis =>
    obtain ⟨absent, rest⟩ := List.nodup_cons.mp distinct
    obtain ⟨othersFirst, othersLater⟩ := List.forall_mem_cons.mp others
    rcases List.mem_cons.mp declared with rfl | later
    · have nothing : members.filterMap select = [] := by
        refine List.filterMap_eq_nil_iff.mpr fun other listed => othersLater other listed ?_
        exact fun same => absent (same ▸ List.mem_map_of_mem listed)
      rw [List.filterMap_cons, nothing]
      cases select member <;> rfl
    · have different : first.name ≠ member.name := fun same =>
        absent (same ▸ List.mem_map_of_mem later)
      rw [List.filterMap_cons, othersFirst different]
      exact inductionHypothesis rest later othersLater

namespace Literal

section Records

variable {environment : Environment} {header : RecordHeader} {members : List (Member Declaration)}
  {fields : List (Field Value)} {literal : Literal}
  (contents : ∀ member ∈ members, ∀ value literal,
    fit environment member.content value = .ok literal →
      raise literal = Value.normalise member.content value)
include contents

/-- A struct is read back in normal form if its members are. -/
theorem raise_of_fitStruct (kind : header.kind = .struct)
    (fits : fitStruct header (members.map (Member.map (fit environment))) fields = .ok literal) :
    raise literal = .record (Value.normaliseFields header.kind
      (members.map (Member.map Value.normalise)) fields) := by
  obtain ⟨closed, sets, name, fitted, -, each, rfl⟩ := (fitStruct_eq_ok_iff ..).mp fits
  rw [List.forall₂_map_left_iff] at each
  rw [raise_struct, Value.normaliseFields, closed, List.filterMap_map]
  congr 2
  refine (filterMap_eq_map_of_forall₂ (fun member declared entry _ taken => ?_) each).symm
  obtain ⟨named, value, set, fitting⟩ := taken
  have found : (Field.underNames fields).lookup member.name = some value :=
    (lookup_underNames sets member.name value).mpr set
  simp only [Function.comp_apply, Member.map, found, kind]
  rw [if_neg (by simp), named, contents member declared value entry.2 fitting]
  rfl

/-- A union is read back in normal form if its members are. -/
theorem raise_of_fitUnion (apart : (members.map Member.name).Nodup) (kind : header.kind = .union)
    (fits : fitUnion environment header (members.map (Member.map (fit environment))) fields =
      .ok literal) :
    raise literal = .record (Value.normaliseFields header.kind
      (members.map (Member.map Value.normalise)) fields) := by
  rcases (fitUnion_eq_ok_iff ..).mp fits with
    ⟨key, value, chosen, content, name, rfl, found, taken, -, rfl⟩ |
    ⟨ordinal, data, name, rfl, -, -, rfl⟩
  · rw [Member.named?_map] at found
    obtain ⟨member, selected, rfl⟩ := Option.map_eq_some_iff.mp found
    obtain ⟨declared, rfl⟩ := Member.mem_of_named? selected
    have others : ∀ other ∈ members, other.name ≠ member.name →
        [(member.name, value)].lookup other.name = none := fun other _ different =>
      List.lookup_eq_none_iff.mpr (by simpa using different)
    rw [raise, Value.normaliseFields, List.filterMap_map, Field.underNames, Field.underNames,
      filterMap_named apart declared]
    · simp [Member.map, kind, Field.ofEntries, Field.underOrdinals, Value.named,
        contents member declared value content taken]
    · intro other listed different
      simp [Member.map, others other listed different]
  · simp [raise, Value.normaliseFields, Field.underNames, Field.underOrdinals, Field.ofEntries,
      Value.unknown]

/-- A table is read back in normal form if its members are. -/
theorem raise_of_fitTable (kind : header.kind = .table)
    (fits : fitTable environment header (members.map (Member.map (fit environment))) fields =
      .ok literal) :
    raise literal = .record (Value.normaliseFields header.kind
      (members.map (Member.map Value.normalise)) fields) := by
  obtain ⟨sets, name, fitted, unknown, -, scanned, each, rfl⟩ := (fitTable_eq_ok_iff ..).mp fits
  obtain ⟨ordinals, -⟩ := (scan_ordinals_eq_ok_iff ..).mp scanned
  rw [presentMembers_map, List.forall₂_map_left_iff] at each
  have apart := (setsNames_map ..).mp sets
  have known : (members.map (Member.map Value.normalise)).filterMap (fun member =>
        match (Field.underNames fields).lookup member.name with
        | some value =>
          if header.kind = .table ∧ value.isNull then none
          else some (member.name, member.content value)
        | none => none) =
      (presentMembers members (Field.underNames fields)).filterMap fun chosen =>
        some (chosen.1.name, Value.normalise chosen.1.content chosen.2) := by
    rw [presentMembers, List.filterMap_map, List.filterMap_filterMap]
    refine List.filterMap_congr fun member _ => ?_
    simp only [Function.comp_apply, Member.map, kind, true_and]
    cases (Field.underNames fields).lookup member.name with
    | none => rfl
    | some value => cases absent : value.isNull <;> simp [absent]
  rw [raise_table, Value.normaliseFields, known, ordinals]
  congr 2
  refine (filterMap_eq_map_of_forall₂ (fun chosen listed entry _ taken => ?_) each).symm
  obtain ⟨named, fitting⟩ := taken
  have declared := ((mem_presentMembers apart chosen).mp listed).1
  rw [named, contents chosen.1 declared chosen.2 entry.2 fitting]
  rfl

end Records

/-- Items are read back in normal form if each of them is. -/
theorem raise_of_items {environment : Environment} {element : Declaration}
    (contents : ∀ value literal, fit environment element value = .ok literal →
      raise literal = Value.normalise element value)
    {items : List Value} {literals : List Literal}
    (each : List.Forall₂ (fun item literal => fit environment element item = .ok literal)
      items literals) :
    literals.map raise = items.map (Value.normalise element) := by
  induction each with
  | nil => rfl
  | cons head _ inductionHypothesis =>
    rw [List.map_cons, List.map_cons, contents _ _ head, inductionHypothesis]

/-- What is read back from a fitted literal is the normal form of its value. -/
theorem raise_eq_normalise {environment : Environment} {declaration : Declaration}
    {value : Value} {literal : Literal} (distinct : declaration.Distinct)
    (fits : fit environment declaration value = .ok literal) :
    raise literal = Value.normalise declaration value := by
  induction declaration using Declaration.memberwise generalizing value literal with
  | primitive subtype =>
    rw [fit_primitive_eq_ok_iff, fitPrimitive_eq_ok_iff] at fits
    rw [Value.normalise]
    rcases fits with ⟨content, rfl, -, rfl⟩ | ⟨number, rfl, -, rfl⟩ | ⟨number, rfl, -, -, rfl⟩ |
      ⟨pattern, rfl, fitting, rfl⟩
    · rfl
    · rfl
    · rfl
    · obtain ⟨width, bits⟩ := pattern
      cases width <;> cases subtype <;> first | rfl | exact absurd fitting (by simp [fitsWidth])
  | bits scalar =>
    rw [fit_bits_eq_ok_iff, fitScalar_eq_ok_iff] at fits
    obtain ⟨name, number, -, rfl, -, rfl⟩ := fits
    rw [Value.normalise]
    rfl
  | enumeration scalar =>
    rw [fit_enumeration_eq_ok_iff, fitScalar_eq_ok_iff] at fits
    obtain ⟨name, number, -, rfl, -, rfl⟩ := fits
    rw [Value.normalise]
    rfl
  | handle subtype rights nullable =>
    rw [fit_handle_eq_ok_iff, fitHandle_eq_ok_iff] at fits
    rw [Value.normalise]
    rcases fits with ⟨rfl, -, -, rfl⟩ | ⟨reference, rfl, -, -, rfl⟩
    · rfl
    · rfl
  | string nullable =>
    rw [fit_string_eq_ok_iff, fitString_eq_ok_iff] at fits
    rw [Value.normalise]
    rcases fits with ⟨rfl, -, rfl⟩ | ⟨content, rfl, rfl⟩
    · rfl
    · rfl
  | array element size inductionHypothesis =>
    rw [fit_array_eq_ok_iff, fitArray_eq_ok_iff] at fits
    obtain ⟨items, type, literals, rfl, -, -, each, rfl⟩ := fits
    rw [raise, raises_eq_map, Value.normalise, Value.normaliseList]
    exact congrArg Value.list (raise_of_items
      (fun _ _ taken => inductionHypothesis distinct.element_of_array taken) each)
  | vector element nullable inductionHypothesis =>
    rw [fit_vector_eq_ok_iff, fitVector_eq_ok_iff] at fits
    rcases fits with ⟨rfl, -, rfl⟩ | ⟨items, type, literals, rfl, -, each, rfl⟩
    · rw [raise, Value.normalise_null]
    · rw [raise, raises_eq_map, Value.normalise, Value.normaliseList]
      exact congrArg Value.list (raise_of_items
        (fun _ _ taken => inductionHypothesis distinct.element_of_vector taken) each)
  | record header members inductionHypothesis =>
    rw [fit_record_eq_ok_iff] at fits
    rcases fits with ⟨rfl, -, rfl⟩ | ⟨fields, rfl, shaped⟩
    · rw [raise, Value.normalise_null]
    · have contents : ∀ member ∈ members, ∀ value literal,
          fit environment member.content value = .ok literal →
            raise literal = Value.normalise member.content value :=
        fun member declared value literal taken =>
          inductionHypothesis member declared (distinct.member member declared) taken
      have apart : (members.map Member.name).Nodup := distinct.self
      rw [Value.normalise, Value.normaliseRecord, Value.normalisers_eq_map]
      cases kind : header.kind <;> simp only [kind] at shaped <;> rw [← kind]
      case struct => exact raise_of_fitStruct contents kind shaped
      case union => exact raise_of_fitUnion contents apart kind shaped
      case table => exact raise_of_fitTable contents kind shaped

/-- Fitting neither loses nor invents anything: a fitted literal holds the normal form of its
value, which fits again and gives the same literal. -/
theorem fitted_holds_normal_form {environment : Environment} {declaration : Declaration}
    {value : Value} {literal : Literal} (distinct : declaration.Distinct)
    (fits : fit environment declaration value = .ok literal) :
    raise literal = Value.normalise declaration value ∧
      fit environment declaration (raise literal) = .ok literal := by
  constructor
  · exact raise_eq_normalise distinct fits
  · exact fit_raise_of_wellFormed distinct (wellFormed_of_fit fits)

/-- A struct with fields out of order that holds a table with an absent field. -/
theorem fitted_holds_normal_form_struct :
    let environment : Environment := ⟨.rust, fun _ => true, 1⟩
    let table : Declaration := .record ⟨"lib/Inner", .table, false, .resource, .flexible⟩
      [⟨"one", 1, .primitive .float32⟩, ⟨"two", 2, .string true⟩]
    let declaration : Declaration := .record ⟨"lib/Outer", .struct, false, .resource, .flexible⟩
      [⟨"first", 0, table⟩, ⟨"second", 0, .vector (.primitive .int8) true⟩]
    let value : Value := .record [Value.named "second" (.list [.integer (.signed (-3))]),
      Value.named "first" (.record [Value.unknown 9 ⟨[1, 2], [0]⟩, Value.named "two" .null,
        Value.named "one" (.rawFloat ⟨.f32, 0x7FC00001⟩)])]
    ∃ literal, raise literal = Value.normalise declaration value ∧
      fit environment declaration (raise literal) = .ok literal := by
  intro environment table declaration value
  have distinct : declaration.Distinct := by
    refine ⟨by simp [Declaration.NamesApart], ⟨?_, trivial, trivial, trivial⟩, ⟨trivial, trivial⟩,
      trivial⟩
    simp [Declaration.NamesApart]
  have fits : fit environment declaration value = .ok (.struct ⟨["lib"], "Outer"⟩ false
      [("first", .table ⟨["lib"], "Inner"⟩ false [("one", .floatBits 0x7FC00001 .float32)]
        [(9, ⟨[1, 2], [0]⟩)]),
      ("second", .list (.vector (.primitive .int8) true) [.integer (.signed (-3)) .int8])]) := rfl
  exact ⟨_, fitted_holds_normal_form distinct fits⟩

end Literal

end FixtureLiterals
