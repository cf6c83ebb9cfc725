import FixtureLiterals.Proofs.Fitting.Fields
import FixtureLiterals.Proofs.Schema.Ranges

/-!
# When a fitter succeeds

A fitter either fails or returns a literal. For each shape of declaration this module
says exactly which values its fitter takes and which literal it returns for them, in
terms of what the fitters of the parts do. Each statement goes both ways: it lists the
checks that a success has passed, and nothing else stands in the way of one.

Routes do not appear here. The step that a failure inside a part is given has no bearing
on whether the part succeeds.
-/

namespace FixtureLiterals

/-- What fails does not succeed. -/
@[simp] theorem fail_ne_ok {α : Type} (fault : Fault) (result : α) :
    fail fault = .ok result ↔ False := by
  simp [fail]

/-- A part succeeds as a part exactly if it succeeds alone. -/
@[simp] theorem within_eq_ok_iff {α : Type} (segment : Segment) (outcome : Except Failure α)
    (result : α) : within segment outcome = .ok result ↔ outcome = .ok result := by
  cases outcome <;> simp [within]

section Sequences

variable {ε α β : Type}

/-- Two steps succeed exactly if the first does and the second succeeds on its result. -/
theorem bind_eq_ok_iff (outcome : Except ε α) (next : α → Except ε β) (result : β) :
    outcome >>= next = .ok result ↔ ∃ middle, outcome = .ok middle ∧ next middle = .ok result := by
  cases outcome <;> simp [bind, Except.bind]

/-- A result is transformed exactly if there is one. -/
@[simp] theorem map_eq_ok_iff (transform : α → β) (outcome : Except ε α) (result : β) :
    transform <$> outcome = .ok result ↔
      ∃ middle, outcome = .ok middle ∧ transform middle = result := by
  cases outcome <;> simp [Functor.map, Except.map]

/-- A computation without failure returns its value. -/
@[simp] theorem pure_eq_ok_iff (value result : α) :
    (pure value : Except ε α) = .ok result ↔ value = result := by
  simp [pure, Except.pure]

/-- A list is processed exactly if each of its members is. -/
theorem mapM_eq_ok_iff (step : α → Except ε β) (members : List α) (results : List β) :
    members.mapM step = .ok results ↔
      List.Forall₂ (fun member result => step member = .ok result) members results := by
  induction members generalizing results with
  | nil => cases results <;> simp
  | cons member members inductionHypothesis =>
    simp only [List.mapM_cons, bind_eq_ok_iff, pure_eq_ok_iff, inductionHypothesis]
    cases results with
    | nil => simp
    | cons result results => simp

end Sequences

namespace Environment

/-- A subtype passes exactly if it is supported. -/
@[simp] theorem checkSubtype_eq_ok_iff (environment : Environment) (subtype : HandleSubtype)
    (passed : Unit) :
    environment.checkSubtype subtype = .ok passed ↔ environment.supports subtype = true := by
  unfold checkSubtype
  split <;> simp_all

/-- An index passes exactly if the handle table has an entry at it. -/
@[simp] theorem checkIndex_eq_ok_iff (environment : Environment) (index : UInt64)
    (passed : Unit) :
    environment.checkIndex index = .ok passed ↔ index.toNat < environment.handleCount := by
  unfold checkIndex
  split <;> simp_all

/-- Several indices pass exactly if each does. -/
theorem checkIndices_eq_ok_iff (environment : Environment) (indices : List UInt64)
    (passed : Unit) :
    indices.forM environment.checkIndex = .ok passed ↔
      ∀ index ∈ indices, index.toNat < environment.handleCount := by
  induction indices with
  | nil => simp
  | cons index indices inductionHypothesis =>
    simp only [List.forM, bind_eq_ok_iff, inductionHypothesis, List.forall_mem_cons,
      checkIndex_eq_ok_iff, exists_const]

end Environment

/-- A declared name passes exactly if it can be parsed. -/
@[simp] theorem QualifiedName.ofDeclared_eq_ok_iff (name : String) (parsed : QualifiedName) :
    QualifiedName.ofDeclared name = .ok parsed ↔ QualifiedName.parse name = .ok parsed := by
  unfold QualifiedName.ofDeclared
  split <;> simp_all

namespace Literal

/-- No value is the result of a mismatch. -/
@[simp] theorem mismatch_ne_ok {α : Type} (declaration : Declaration) (value : Value)
    (result : α) : mismatch declaration value = .ok result ↔ False := by
  simp [mismatch]

/-- The check for either sign decides whether the integer is in the range of its subtype. -/
theorem holdsInteger_eq (subtype : Primitive) (number : Integer) :
    holdsInteger subtype number = subtype.holds number.toInt := by
  cases number with
  | signed number => exact subtype.holdsSigned_eq number
  | unsigned number => exact subtype.holdsUnsigned_eq number

/-- An integer is taken exactly if its subtype holds it. -/
theorem fitInteger_eq_ok_iff (declaration : Declaration) (subtype : Primitive) (value : Value)
    (number : Integer) :
    fitInteger declaration subtype value = .ok number ↔
      value = .integer number ∧ subtype.holds number.toInt = true := by
  cases value <;> simp only [fitInteger, mismatch_ne_ok, reduceCtorEq, false_and]
  case integer written =>
    rw [holdsInteger_eq]
    split
    case isTrue held =>
      simp only [Except.ok.injEq, Value.integer.injEq]
      constructor
      · rintro rfl
        exact ⟨rfl, held⟩
      · rintro ⟨same, -⟩
        exact same
    case isFalse refused =>
      simp only [fail_ne_ok, false_iff]
      rintro ⟨same, held⟩
      obtain rfl := Value.integer.inj same
      exact refused held

/-- A named scalar is an integer of the backing subtype under a name that can be parsed. -/
theorem fitScalar_eq_ok_iff (declaration : Declaration) (scalar : NamedScalar)
    (build : QualifiedName → Integer → Literal) (value : Value) (literal : Literal) :
    fitScalar declaration scalar build value = .ok literal ↔
      ∃ name number, QualifiedName.parse scalar.name = .ok name ∧ value = .integer number ∧
        scalar.subtype.holds number.toInt = true ∧ build name number = literal := by
  simp only [fitScalar, bind_eq_ok_iff, QualifiedName.ofDeclared_eq_ok_iff, fitInteger_eq_ok_iff,
    pure_eq_ok_iff]
  constructor
  · rintro ⟨name, parsed, number, ⟨written, held⟩, built⟩
    exact ⟨name, number, parsed, written, held, built⟩
  · rintro ⟨name, number, parsed, written, held, built⟩
    exact ⟨name, parsed, number, ⟨written, held⟩, built⟩

/-- A subtype that holds an integer is one of the integer subtypes. -/
theorem isInteger_of_holds {subtype : Primitive} {number : Int}
    (held : subtype.holds number = true) : subtype.isInteger = true := by
  cases subtype <;> first | rfl | simp [Primitive.holds, Primitive.range?] at held

/-- A primitive is a boolean for the boolean type, an integer that its type holds, a float
in the range of its type, or a bit pattern of its type's width. -/
theorem fitPrimitive_eq_ok_iff (subtype : Primitive) (value : Value) (literal : Literal) :
    fitPrimitive subtype value = .ok literal ↔
      (∃ content, value = .bool content ∧ subtype = .bool ∧ .bool content = literal) ∨
      (∃ number, value = .integer number ∧ subtype.holds number.toInt = true ∧
        .integer number subtype = literal) ∨
      (∃ number, value = .float number ∧ subtype.isFloat = true ∧
        (subtype = .float32 → number.exceedsFloat32 = false) ∧ .float number subtype = literal) ∨
      (∃ pattern, value = .rawFloat pattern ∧ fitsWidth pattern subtype = true ∧
        .floatBits pattern.bits subtype = literal) := by
  cases value with
  | bool content => by_cases boolean : subtype = .bool <;> simp [fitPrimitive, boolean]
  | integer number =>
    by_cases integral : subtype.isInteger = true
    · simp [fitPrimitive, integral, fitInteger_eq_ok_iff]
    · have refused : subtype.holds number.toInt = false := by
        by_contra held
        exact integral (isInteger_of_holds (by simpa using held))
      simp [fitPrimitive, integral, refused]
  | float number =>
    by_cases floating : subtype.isFloat = true
    · by_cases exceeding : subtype = .float32 ∧ number.exceedsFloat32 = true
      · simp [fitPrimitive, exceeding, Primitive.isFloat]
      · have ranged : subtype = .float32 → number.exceedsFloat32 = false := fun single => by
          by_contra excess
          exact exceeding ⟨single, by simpa using excess⟩
        have taken : fitPrimitive subtype (.float number) = .ok (.float number subtype) := by
          have inside : ¬ (decide (subtype = .float32) && number.exceedsFloat32) = true := by
            simpa using exceeding
          simp only [fitPrimitive, if_pos floating, if_neg inside]
        rw [taken]
        constructor
        · intro built
          exact .inr (.inr (.inl ⟨number, rfl, floating, ranged, Except.ok.inj built⟩))
        · rintro (⟨_, ⟨⟩, _⟩ | ⟨_, ⟨⟩, _⟩ | ⟨_, ⟨⟩, -, -, rfl⟩ | ⟨_, ⟨⟩, _⟩)
          rfl
    · simp [fitPrimitive, floating]
  | rawFloat pattern =>
    by_cases fitting : fitsWidth pattern subtype = true
    · have floating : subtype.isFloat = true := by
        cases subtype <;> simp_all [fitsWidth, Primitive.isFloat]
      simp [fitPrimitive, floating, fitting]
    · have refused : fitsWidth pattern subtype = false := by simpa using fitting
      by_cases floating : subtype.isFloat = true <;> simp [fitPrimitive, floating, refused]
  | _ => simp [fitPrimitive]

/-- A handle is a reference to an entry of the table, of a subtype that can be spelled. -/
theorem fitHandle_eq_ok_iff (environment : Environment) (declaration : Declaration)
    (subtype : HandleSubtype) (value : Value) (literal : Literal) :
    fitHandle environment declaration subtype value = .ok literal ↔
      ∃ reference, value = .handle reference ∧
        reference.index.toNat < environment.handleCount ∧ environment.supports subtype = true ∧
        .handle reference.index subtype reference.rights = literal := by
  cases value <;>
    simp only [fitHandle, mismatch_ne_ok, reduceCtorEq, false_and, exists_false]
  case handle reference =>
    simp only [bind_eq_ok_iff, Environment.checkIndex_eq_ok_iff,
      Environment.checkSubtype_eq_ok_iff, pure_eq_ok_iff, Value.handle.injEq, exists_eq_left']
    constructor
    · rintro ⟨-, inTable, -, supported, built⟩
      exact ⟨inTable, supported, built⟩
    · rintro ⟨inTable, supported, built⟩
      exact ⟨(), inTable, (), supported, built⟩

/-- A string is a string. -/
theorem fitString_eq_ok_iff (declaration : Declaration) (nullable : Bool) (value : Value)
    (literal : Literal) :
    fitString declaration nullable value = .ok literal ↔
      ∃ content, value = .string content ∧ .string content nullable = literal := by
  cases value <;> simp [fitString]

/-- Items are taken exactly if each of them is, wherever they stand. -/
theorem fitItems_eq_ok_iff (fitItem : Fitter) (position : Nat) (items : List Value)
    (literals : List Literal) :
    fitItems fitItem position items = .ok literals ↔
      List.Forall₂ (fun item literal => fitItem item = .ok literal) items literals := by
  induction items generalizing position literals with
  | nil => cases literals <;> simp [fitItems]
  | cons item items inductionHypothesis =>
    simp only [fitItems, bind_eq_ok_iff, within_eq_ok_iff, pure_eq_ok_iff, inductionHypothesis]
    cases literals with
    | nil => simp
    | cons literal literals => simp

/-- An array is a list of its size with a type that can be spelled. -/
theorem fitArray_eq_ok_iff (environment : Environment) (declaration : Declaration) (size : UInt64)
    (fitItem : Fitter) (value : Value) (literal : Literal) :
    fitArray environment declaration size fitItem value = .ok literal ↔
      ∃ items type literals, value = .list items ∧ items.length = size.toNat ∧
        TypeReference.ofDeclaration environment declaration = .ok type ∧
        List.Forall₂ (fun item literal => fitItem item = .ok literal) items literals ∧
        .list type literals = literal := by
  cases value <;> simp only [fitArray, mismatch_ne_ok, reduceCtorEq, false_and, exists_false]
  case list items =>
    split
    case isTrue counted =>
      simp only [fitList, bind_eq_ok_iff, fitItems_eq_ok_iff, pure_eq_ok_iff]
      constructor
      · rintro ⟨type, spelled, literals, each, built⟩
        exact ⟨items, type, literals, rfl, counted, spelled, each, built⟩
      · rintro ⟨_, type, literals, ⟨⟩, -, spelled, each, built⟩
        exact ⟨type, spelled, literals, each, built⟩
    case isFalse miscounted =>
      simp only [fail_ne_ok, false_iff]
      rintro ⟨_, type, literals, ⟨⟩, counted, -⟩
      exact miscounted counted

/-- A vector is a list with a type that can be spelled. -/
theorem fitVector_eq_ok_iff (environment : Environment) (declaration : Declaration)
    (fitItem : Fitter) (value : Value) (literal : Literal) :
    fitVector environment declaration fitItem value = .ok literal ↔
      ∃ items type literals, value = .list items ∧
        TypeReference.ofDeclaration environment declaration = .ok type ∧
        List.Forall₂ (fun item literal => fitItem item = .ok literal) items literals ∧
        .list type literals = literal := by
  cases value <;> simp only [fitVector, mismatch_ne_ok, reduceCtorEq, false_and, exists_false]
  case list items =>
    simp only [fitList, bind_eq_ok_iff, fitItems_eq_ok_iff, pure_eq_ok_iff]
    constructor
    · rintro ⟨type, spelled, literals, each, built⟩
      exact ⟨items, type, literals, rfl, spelled, each, built⟩
    · rintro ⟨_, type, literals, ⟨⟩, spelled, each, built⟩
      exact ⟨type, spelled, literals, each, built⟩

/-- An absent value is taken exactly by a nullable declaration, and where it stands for a
handle only if the subtype can be spelled. -/
theorem fitNull_eq_ok_iff (environment : Environment) (declaration : Declaration)
    (literal : Literal) :
    fitNull environment declaration = .ok literal ↔
      declaration.isNullable = true ∧
        match declaration with
        | .handle subtype _ _ =>
          environment.supports subtype = true ∧ .invalidHandle subtype = literal
        | _ => .null = literal := by
  by_cases nullable : declaration.isNullable = true
  · cases declaration <;> simp [fitNull, nullable]
  · simp [fitNull, nullable]

/-- A fitter sees every value but the absent one and stray unknown data. -/
theorem fitPresent_eq_ok_iff (environment : Environment) (declaration : Declaration)
    (fitter : Fitter) (value : Value) (literal : Literal) :
    fitPresent environment declaration fitter value = .ok literal ↔
      (value = .null ∧ fitNull environment declaration = .ok literal) ∨
      (value ≠ .null ∧ (∀ data, value ≠ .unknownData data) ∧ fitter value = .ok literal) := by
  cases value <;> simp [fitPresent]

end Literal

end FixtureLiterals
