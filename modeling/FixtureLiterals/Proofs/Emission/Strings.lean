import FixtureLiterals.Proofs.Emission.ListHeaders
import FixtureLiterals.Proofs.Literal.WellFormed

/-!
# The strings of a value

A value and the literal that it is fitted to have the same strings in them, at whatever depth they
are. Fitting changes the order of a record's fields and leaves out absent ones, but no present
one, and there are no strings under unknown ordinals.
-/

namespace FixtureLiterals

/-- A value is part of another one, or is that value itself. -/
inductive Value.Within (part : Value) : Value → Prop where
  | whole : Within part part
  | item {item : Value} {items : List Value} (listed : item ∈ items)
      (inside : Within part item) : Within part (.list items)
  | field {field : Field Value} {fields : List (Field Value)} (listed : field ∈ fields)
      (inside : Within part field.value) : Within part (.record fields)

/-- A string is part of a value. -/
def Value.Holds (value : Value) (content : String) : Prop := (Value.string content).Within value

/-- A string is part of a literal, be it nullable or not. -/
def Literal.Holds (literal : Literal) (content : String) : Prop :=
  ∃ nullable, (Literal.string content nullable).Within literal

namespace Value

variable {content : String}

/-- A list has the strings of its items. -/
theorem holds_list (items : List Value) :
    (Value.list items).Holds content ↔ ∃ item ∈ items, item.Holds content := by
  constructor
  · rintro (_ | ⟨listed, inside⟩)
    exact ⟨_, listed, inside⟩
  · rintro ⟨item, listed, inside⟩
    exact .item listed inside

/-- A record has the strings of its fields. -/
theorem holds_record (fields : List (Field Value)) :
    (Value.record fields).Holds content ↔ ∃ field ∈ fields, field.value.Holds content := by
  constructor
  · rintro (_ | _ | ⟨listed, inside⟩)
    exact ⟨_, listed, inside⟩
  · rintro ⟨field, listed, inside⟩
    exact .field listed inside

/-- A string has itself in it. -/
theorem holds_string (value : String) : (Value.string value).Holds content ↔ content = value := by
  constructor
  · rintro ⟨⟩
    rfl
  · rintro rfl
    exact .whole

end Value

namespace Literal

variable {content : String}

/-- A list has the strings of its elements. -/
theorem holds_list (type : TypeReference) (elements : List Literal) :
    (Literal.list type elements).Holds content ↔ ∃ element ∈ elements, element.Holds content := by
  constructor
  · rintro ⟨nullable, _ | ⟨listed, inside⟩⟩
    exact ⟨_, listed, nullable, inside⟩
  · rintro ⟨element, listed, nullable, inside⟩
    exact ⟨nullable, .element listed inside⟩

/-- A struct has the strings of its fields. -/
theorem holds_struct (name : QualifiedName) (nullable : Bool) (fields : List (String × Literal)) :
    (Literal.struct name nullable fields).Holds content ↔
      ∃ field ∈ fields, field.2.Holds content := by
  constructor
  · rintro ⟨optional, _ | _ | ⟨listed, inside⟩⟩
    exact ⟨_, listed, optional, inside⟩
  · rintro ⟨field, listed, optional, inside⟩
    exact ⟨optional, .structField listed inside⟩

/-- A union has the strings of its member. -/
theorem holds_union (name : QualifiedName) (nullable : Bool) (field : String) (ordinal : UInt64)
    (value : Literal) :
    (Literal.union name nullable field ordinal value).Holds content ↔ value.Holds content := by
  constructor
  · rintro ⟨optional, _ | _ | _ | inside⟩
    exact ⟨optional, inside⟩
  · rintro ⟨optional, inside⟩
    exact ⟨optional, .unionField inside⟩

/-- A table has the strings of its fields. -/
theorem holds_table (name : QualifiedName) (nullable : Bool) (fields : List (String × Literal))
    (unknown : List (UInt64 × UnknownData)) :
    (Literal.table name nullable fields unknown).Holds content ↔
      ∃ field ∈ fields, field.2.Holds content := by
  constructor
  · rintro ⟨optional, _ | _ | _ | _ | ⟨listed, inside⟩⟩
    exact ⟨_, listed, optional, inside⟩
  · rintro ⟨field, listed, optional, inside⟩
    exact ⟨optional, .tableField listed inside⟩

/-- A string has itself in it. -/
theorem holds_string (value : String) (nullable : Bool) :
    (Literal.string value nullable).Holds content ↔ content = value := by
  constructor
  · rintro ⟨optional, ⟨⟩⟩
    rfl
  · rintro rfl
    exact ⟨nullable, .whole _⟩

section Records

variable {environment : Environment} {header : RecordHeader} {members : List (Member Fitter)}
  {fields : List (Field Value)} {literal : Literal}
  (contents : ∀ member ∈ members, ∀ value literal, member.content value = .ok literal →
    (literal.Holds content ↔ value.Holds content))
include contents

/-- A struct has the strings of the value that it is fitted from. -/
theorem holds_of_fitStruct (fits : fitStruct header members fields = .ok literal) :
    literal.Holds content ↔ (Value.record fields).Holds content := by
  obtain ⟨closed, sets, name, fitted, -, each, rfl⟩ := (fitStruct_eq_ok_iff ..).mp fits
  rw [holds_struct, Value.holds_record]
  constructor
  · rintro ⟨entry, listed, inside⟩
    obtain ⟨member, declared, -, value, present, taken⟩ := exists_of_mem_right each listed
    exact ⟨_, present, (contents member declared value entry.2 taken).mp inside⟩
  · rintro ⟨⟨key, value⟩, listed, inside⟩
    cases key with
    | unknown ordinal =>
      have unknown := (Field.mem_underOrdinals fields ordinal value).mpr listed
      rw [closed] at unknown
      exact nomatch unknown
    | declared key =>
      have found := (lookup_underNames sets key value).mpr listed
      obtain ⟨member, declared, rfl⟩ :=
        sets.declared (key, value) ((Field.mem_underNames fields key value).mpr listed)
      obtain ⟨entry, written, -, other, set, taken⟩ := exists_of_mem_left each declared
      obtain rfl : value = other :=
        Option.some.inj (found.symm.trans ((lookup_underNames sets _ other).mpr set))
      exact ⟨entry, written, (contents member declared value entry.2 taken).mpr inside⟩

/-- A union has the strings of the value that it is fitted from. -/
theorem holds_of_fitUnion (fits : fitUnion environment header members fields = .ok literal) :
    literal.Holds content ↔ (Value.record fields).Holds content := by
  rw [Value.holds_record]
  rcases (fitUnion_eq_ok_iff ..).mp fits with
    ⟨key, value, member, part, name, rfl, found, taken, -, rfl⟩ |
    ⟨ordinal, data, name, rfl, -, -, rfl⟩
  · rw [holds_union, contents member (Member.mem_of_named? found).1 value part taken]
    simp only [List.mem_singleton, exists_eq_left]
  · constructor
    · rintro ⟨nullable, inside⟩
      exact nomatch inside
    · rintro ⟨field, listed, inside⟩
      obtain rfl := List.mem_singleton.mp listed
      exact nomatch inside

/-- A table has the strings of the value that it is fitted from. -/
theorem holds_of_fitTable (fits : fitTable environment header members fields = .ok literal) :
    literal.Holds content ↔ (Value.record fields).Holds content := by
  obtain ⟨sets, name, fitted, unknown, -, scanned, each, rfl⟩ := (fitTable_eq_ok_iff ..).mp fits
  rw [holds_table, Value.holds_record]
  constructor
  · rintro ⟨entry, listed, inside⟩
    obtain ⟨chosen, present, -, taken⟩ := exists_of_mem_right each listed
    obtain ⟨declared, set, -⟩ := (mem_presentMembers sets chosen).mp present
    exact ⟨_, set, (contents chosen.1 declared chosen.2 entry.2 taken).mp inside⟩
  · rintro ⟨⟨key, value⟩, listed, inside⟩
    cases key with
    | unknown ordinal =>
      have carried := (Field.mem_underOrdinals fields ordinal value).mpr listed
      rw [((scan_ordinals_eq_ok_iff ..).mp scanned).1] at carried
      obtain ⟨entry, -, same⟩ := List.mem_map.mp carried
      obtain ⟨rfl, rfl⟩ := Prod.mk.inj same
      exact nomatch inside
    | declared key =>
      have held : value ≠ .null := by
        rintro rfl
        exact nomatch inside
      obtain ⟨member, declared, rfl⟩ :=
        sets.declared (key, value) ((Field.mem_underNames fields key value).mpr listed)
      have present := (mem_presentMembers sets (member, value)).mpr ⟨declared, listed, held⟩
      obtain ⟨entry, written, -, taken⟩ := exists_of_mem_left each present
      exact ⟨entry, written, (contents member declared value entry.2 taken).mpr inside⟩

end Records

/-- A list of literals has the strings of the values that they are fitted from. -/
theorem holds_elements {items : List Value} {elements : List Literal} {environment : Environment}
    {element : Declaration}
    (contents : ∀ value literal, fit environment element value = .ok literal →
      (literal.Holds content ↔ value.Holds content))
    (each : List.Forall₂ (fun item literal => fit environment element item = .ok literal)
      items elements) :
    (∃ element ∈ elements, element.Holds content) ↔ ∃ item ∈ items, item.Holds content := by
  constructor
  · rintro ⟨literal, listed, inside⟩
    obtain ⟨item, present, taken⟩ := exists_of_mem_right each listed
    exact ⟨item, present, (contents item literal taken).mp inside⟩
  · rintro ⟨item, listed, inside⟩
    obtain ⟨literal, written, taken⟩ := exists_of_mem_left each listed
    exact ⟨literal, written, (contents item literal taken).mpr inside⟩

/-- What is fitted has the strings of the value that it is fitted from, and no others.

The induction is on the declaration, since a value has parts only where its declaration has. -/
theorem holds_iff_of_fit {environment : Environment} {declaration : Declaration} {value : Value}
    {literal : Literal} (fits : fit environment declaration value = .ok literal)
    (content : String) : literal.Holds content ↔ value.Holds content := by
  induction declaration using Declaration.memberwise generalizing value literal with
  | primitive subtype =>
    rw [fit_primitive_eq_ok_iff, fitPrimitive_eq_ok_iff] at fits
    rcases fits with ⟨_, rfl, _, rfl⟩ | ⟨_, rfl, _, rfl⟩ | ⟨_, rfl, _, _, rfl⟩ |
      ⟨_, rfl, _, rfl⟩ <;>
      exact iff_of_false nofun nofun
  | bits scalar =>
    rw [fit_bits_eq_ok_iff, fitScalar_eq_ok_iff] at fits
    obtain ⟨_, _, _, rfl, _, rfl⟩ := fits
    exact iff_of_false nofun nofun
  | enumeration scalar =>
    rw [fit_enumeration_eq_ok_iff, fitScalar_eq_ok_iff] at fits
    obtain ⟨_, _, _, rfl, _, rfl⟩ := fits
    exact iff_of_false nofun nofun
  | handle subtype rights nullable =>
    rw [fit_handle_eq_ok_iff, fitHandle_eq_ok_iff] at fits
    rcases fits with ⟨rfl, _, _, rfl⟩ | ⟨_, rfl, _, _, rfl⟩ <;> exact iff_of_false nofun nofun
  | string nullable =>
    rw [fit_string_eq_ok_iff, fitString_eq_ok_iff] at fits
    rcases fits with ⟨rfl, _, rfl⟩ | ⟨text, rfl, rfl⟩
    · exact iff_of_false nofun nofun
    · rw [holds_string, Value.holds_string]
  | array element size inductionHypothesis =>
    rw [fit_array_eq_ok_iff, fitArray_eq_ok_iff] at fits
    obtain ⟨items, type, elements, rfl, _, _, each, rfl⟩ := fits
    rw [holds_list, Value.holds_list]
    exact holds_elements (fun _ _ taken => inductionHypothesis taken) each
  | vector element nullable inductionHypothesis =>
    rw [fit_vector_eq_ok_iff, fitVector_eq_ok_iff] at fits
    rcases fits with ⟨rfl, _, rfl⟩ | ⟨items, type, elements, rfl, _, each, rfl⟩
    · exact iff_of_false nofun nofun
    · rw [holds_list, Value.holds_list]
      exact holds_elements (fun _ _ taken => inductionHypothesis taken) each
  | record header members inductionHypothesis =>
    rw [fit_record_eq_ok_iff] at fits
    rcases fits with ⟨rfl, _, rfl⟩ | ⟨fields, rfl, shaped⟩
    · exact iff_of_false nofun nofun
    · have contents : ∀ member ∈ members.map (Member.map (fit environment)), ∀ value literal,
          member.content value = .ok literal → (literal.Holds content ↔ value.Holds content) :=
        List.forall_mem_map.mpr fun member declared _ _ taken =>
          inductionHypothesis member declared taken
      cases kind : header.kind <;> simp only [kind] at shaped
      case struct => exact holds_of_fitStruct contents shaped
      case union => exact holds_of_fitUnion contents shaped
      case table => exact holds_of_fitTable contents shaped

end Literal

end FixtureLiterals
