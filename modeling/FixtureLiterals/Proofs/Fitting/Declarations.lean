import FixtureLiterals.Proofs.Fitting.Records

/-!
# When a declaration fits a value

The absent value and stray unknown data are settled before a declaration's own rules
apply, and none of those rules takes either. So a value is fitted in one of two ways: it is
the absent one and the declaration is nullable, or it passes the declaration's own rules.
There is one statement for each kind of declaration; all further reasoning about successful
fitting starts from them.
-/

namespace FixtureLiterals.Literal

/-- A fitter that takes neither the absent value nor stray unknown data. -/
structure Reserved (fitter : Fitter) : Prop where
  absent : ∀ literal, fitter .null ≠ .ok literal
  stray : ∀ data literal, fitter (.unknownData data) ≠ .ok literal

/-- Where the own rules leave the absent value alone, it is taken apart from them. -/
theorem fitPresent_eq_ok_iff_of_reserved (environment : Environment) (declaration : Declaration)
    {fitter : Fitter} (reserved : Reserved fitter) (value : Value) (literal : Literal) :
    fitPresent environment declaration fitter value = .ok literal ↔
      (value = .null ∧ fitNull environment declaration = .ok literal) ∨
        fitter value = .ok literal := by
  rw [fitPresent_eq_ok_iff]
  cases value <;> simp [reserved.absent, reserved.stray]

/-- The own rules of a primitive are reserved. -/
theorem fitPrimitive_reserved (subtype : Primitive) : Reserved (fitPrimitive subtype) where
  absent := by simp [fitPrimitive]
  stray := by simp [fitPrimitive]

/-- The own rules of a named scalar are reserved. -/
theorem fitScalar_reserved (declaration : Declaration) (scalar : NamedScalar)
    (build : QualifiedName → Integer → Literal) :
    Reserved (fitScalar declaration scalar build) where
  absent := by simp [fitScalar_eq_ok_iff]
  stray := by simp [fitScalar_eq_ok_iff]

/-- The own rules of a handle are reserved. -/
theorem fitHandle_reserved (environment : Environment) (declaration : Declaration)
    (subtype : HandleSubtype) : Reserved (fitHandle environment declaration subtype) where
  absent := by simp [fitHandle_eq_ok_iff]
  stray := by simp [fitHandle_eq_ok_iff]

/-- The own rules of a string are reserved. -/
theorem fitString_reserved (declaration : Declaration) (nullable : Bool) :
    Reserved (fitString declaration nullable) where
  absent := by simp [fitString]
  stray := by simp [fitString]

/-- The own rules of an array are reserved. -/
theorem fitArray_reserved (environment : Environment) (declaration : Declaration) (size : UInt64)
    (fitItem : Fitter) : Reserved (fitArray environment declaration size fitItem) where
  absent := by simp [fitArray]
  stray := by simp [fitArray]

/-- The own rules of a vector are reserved. -/
theorem fitVector_reserved (environment : Environment) (declaration : Declaration)
    (fitItem : Fitter) : Reserved (fitVector environment declaration fitItem) where
  absent := by simp [fitVector]
  stray := by simp [fitVector]

/-- The own rules of a record are reserved. -/
theorem fitRecord_reserved (environment : Environment) (declaration : Declaration)
    (header : RecordHeader) (members : List (Member Fitter)) :
    Reserved (fitRecord environment declaration header members) where
  absent := by simp [fitRecord]
  stray := by simp [fitRecord]

section Declarations

variable (environment : Environment) (value : Value) (literal : Literal)

/-- A primitive is never absent. -/
theorem fit_primitive_eq_ok_iff (subtype : Primitive) :
    fit environment (.primitive subtype) value = .ok literal ↔
      fitPrimitive subtype value = .ok literal := by
  rw [fit, fitPresent_eq_ok_iff_of_reserved _ _ (fitPrimitive_reserved subtype)]
  simp [fitNull_eq_ok_iff, Declaration.isNullable]

/-- Bits are never absent. -/
theorem fit_bits_eq_ok_iff (scalar : NamedScalar) :
    fit environment (.bits scalar) value = .ok literal ↔
      fitScalar (.bits scalar) scalar .bits value = .ok literal := by
  rw [fit, fitPresent_eq_ok_iff_of_reserved _ _ (fitScalar_reserved _ _ _)]
  simp [fitNull_eq_ok_iff, Declaration.isNullable]

/-- An enum is never absent. -/
theorem fit_enumeration_eq_ok_iff (scalar : NamedScalar) :
    fit environment (.enumeration scalar) value = .ok literal ↔
      fitScalar (.enumeration scalar) scalar .enumeration value = .ok literal := by
  rw [fit, fitPresent_eq_ok_iff_of_reserved _ _ (fitScalar_reserved _ _ _)]
  simp [fitNull_eq_ok_iff, Declaration.isNullable]

/-- A nullable handle may be absent, if its subtype can be spelled. -/
theorem fit_handle_eq_ok_iff (subtype : HandleSubtype) (rights : Rights) (nullable : Bool) :
    fit environment (.handle subtype rights nullable) value = .ok literal ↔
      (value = .null ∧ nullable = true ∧ environment.supports subtype = true ∧
        .invalidHandle subtype = literal) ∨
      fitHandle environment (.handle subtype rights nullable) subtype value = .ok literal := by
  rw [fit, fitPresent_eq_ok_iff_of_reserved _ _ (fitHandle_reserved _ _ _)]
  simp [fitNull_eq_ok_iff, Declaration.isNullable]

/-- A nullable string may be absent. -/
theorem fit_string_eq_ok_iff (nullable : Bool) :
    fit environment (.string nullable) value = .ok literal ↔
      (value = .null ∧ nullable = true ∧ .null = literal) ∨
      fitString (.string nullable) nullable value = .ok literal := by
  rw [fit, fitPresent_eq_ok_iff_of_reserved _ _ (fitString_reserved _ _)]
  simp [fitNull_eq_ok_iff, Declaration.isNullable]

/-- An array is never absent. -/
theorem fit_array_eq_ok_iff (element : Declaration) (size : UInt64) :
    fit environment (.array element size) value = .ok literal ↔
      fitArray environment (.array element size) size (fit environment element) value =
        .ok literal := by
  rw [fit, fitPresent_eq_ok_iff_of_reserved _ _ (fitArray_reserved _ _ _ _)]
  simp [fitNull_eq_ok_iff, Declaration.isNullable]

/-- A nullable vector may be absent. -/
theorem fit_vector_eq_ok_iff (element : Declaration) (nullable : Bool) :
    fit environment (.vector element nullable) value = .ok literal ↔
      (value = .null ∧ nullable = true ∧ .null = literal) ∨
      fitVector environment (.vector element nullable) (fit environment element) value =
        .ok literal := by
  rw [fit, fitPresent_eq_ok_iff_of_reserved _ _ (fitVector_reserved _ _ _)]
  simp [fitNull_eq_ok_iff, Declaration.isNullable]

/-- A nullable record may be absent. A present one is fitted by the rules of its shape, each
member by the fitter of its declaration. -/
theorem fit_record_eq_ok_iff (header : RecordHeader) (members : List (Member Declaration)) :
    fit environment (.record header members) value = .ok literal ↔
      (value = .null ∧ header.nullable = true ∧ .null = literal) ∨
      ∃ fields, value = .record fields ∧
        match header.kind with
        | .struct =>
          fitStruct header (members.map (Member.map (fit environment))) fields = .ok literal
        | .union =>
          fitUnion environment header (members.map (Member.map (fit environment))) fields =
            .ok literal
        | .table =>
          fitTable environment header (members.map (Member.map (fit environment))) fields =
            .ok literal := by
  rw [fit, fitPresent_eq_ok_iff_of_reserved _ _ (fitRecord_reserved _ _ _ _), fitters_eq_map]
  simp only [fitNull_eq_ok_iff, Declaration.isNullable]
  refine or_congr_right ?_
  cases value with
  | record fields => cases kind : header.kind <;> simp [fitRecord, kind]
  | _ => simp [fitRecord]

end Declarations

end FixtureLiterals.Literal
