import FixtureLiterals.Proofs.Emission.Parts

/-!
# Parts of Rust expressions

The parts of a Rust literal that have no literals in them: numbers with their types, optional
and boxed expressions, strings, handles with their rights, and the contents of unknown
fields. Each of them reveals what it was written from, under any settings.
-/

namespace FixtureLiterals.RustWriter

open Emission Text

section Numbers

/-- The type behind a number starts with a letter that no number goes on with. -/
theorem exists_primitiveType_eq (subtype : Primitive) :
    ∃ letter others, (primitiveType subtype).toList = letter :: others ∧
      letter.isDigit = false ∧ letter ≠ '-' ∧ Numeral.continues letter = false := by
  cases subtype <;> exact ⟨_, _, rfl, by decide, by decide, by decide⟩

/-- The type behind an integer is no part of the number. -/
theorem leaves_primitiveType (subtype : Primitive) (rest : List Char) :
    Leaves Char.isDigit ((primitiveType subtype).toList ++ rest) := by
  obtain ⟨letter, others, spelled, noDigit, -, -⟩ := exists_primitiveType_eq subtype
  rw [spelled]
  exact leaves_append others rest noDigit

/-- The type behind a float is no part of the number. -/
theorem leaves_floatType (subtype : Primitive) (rest : List Char) :
    Leaves Numeral.continues ((primitiveType subtype).toList ++ rest) := by
  obtain ⟨letter, others, spelled, -, -, stops⟩ := exists_primitiveType_eq subtype
  rw [spelled]
  exact leaves_append others rest stops

/-- A float that is not finite is a constant of its type. -/
theorem float_of_not_finite (subtype : Primitive) {value : Binary64}
    (infinite : value.isFinite = false) : float subtype value =
      primitiveType subtype ++ special "::NAN" "::NEG_INFINITY" "::INFINITY" value := by
  rw [float, if_neg (by rw [infinite]; exact Bool.false_ne_true), special]
  split
  case isTrue => rfl
  case isFalse =>
    split
    case isTrue => rfl
    case isFalse => rfl

/-- A finite float is not mistaken for what starts with the type. -/
theorem apart_finite (subtype : Primitive) {value : Binary64} (finite : value.isFinite = true)
    (text : String) : Apart (float subtype value).toList (primitiveType subtype ++ text).toList := by
  obtain ⟨letter, others, spelled, noDigit, noSign, -⟩ := exists_primitiveType_eq subtype
  rw [float, if_pos finite, String.toList_append, String.toList_append, spelled, List.cons_append]
  exact (apart_floatText _ _ noDigit noSign _).longer _

/-- A float reveals its value, but not which pattern without a number it is. -/
theorem reveals_float (subtype : Primitive) (first second : Binary64) :
    Reveals Anything (float subtype first).toList (float subtype second).toList
      (first = second ∨ (first.isNaN = true ∧ second.isNaN = true)) := by
  cases finite : first.isFinite <;> cases number : second.isFinite
  case true.true =>
    rw [float, if_pos finite, float, if_pos number]
    have text := Binary64.reveals_text Binary64.sourceLayout first second
    exact (text.ended _ (leaves_floatType subtype)).imp .inl
  case true.false =>
    rw [float_of_not_finite subtype number]
    exact .of_apart (apart_finite subtype finite _)
  case false.true =>
    rw [float_of_not_finite subtype finite]
    exact .of_apart (apart_finite subtype number _).symm
  case false.false =>
    have reveals := @reveals_special "::NAN" "::NEG_INFINITY" "::INFINITY"
      (.of_differ (by decide)) (.of_differ (by decide)) (.of_differ (by decide)) _ _ finite number
    rw [float_of_not_finite subtype finite, float_of_not_finite subtype number]
    exact reveals.opened _

/-- A float by its bit pattern. -/
def floatBits (subtype : Primitive) (bits : UInt64) : String :=
  primitiveType subtype ++ "::from_bits(0x" ++ hexadecimal bits.toNat ++ ")"

/-- No float is mistaken for one that is given by its pattern. -/
theorem apart_floatBits (subtype : Primitive) (value : Binary64) (bits : UInt64) :
    Apart (float subtype value).toList (floatBits subtype bits).toList := by
  rw [floatBits, String.append_assoc, String.append_assoc]
  cases finite : value.isFinite with
  | true => exact apart_finite subtype finite _
  | false =>
    have differing : Apart (special "::NAN" "::NEG_INFINITY" "::INFINITY" value).toList
        "::from_bits(0x".toList := by
      rw [special]
      cases value.isNaN <;> cases value.isNegative <;> exact .of_differ (by decide)
    rw [float_of_not_finite subtype finite, String.toList_append, String.toList_append,
      String.toList_append]
    exact ((differing.symm.longer _).symm).prefixed _

/-- A float by its pattern reveals the pattern. -/
theorem reveals_floatBits (subtype : Primitive) (first second : UInt64) :
    Reveals Anything (floatBits subtype first).toList (floatBits subtype second).toList
      (first = second) := by
  have digits := (reveals_hexadecimal first.toNat second.toNat).imp UInt64.toNat_inj.mp
  exact (digits.opened _).ended _ fun rest => leaves_append [] rest (by decide)

end Numbers

section Wrappers

variable {first second : String} {conclusion : Prop}
  (reveals : Reveals Anything first.toList second.toList conclusion)
include reveals

/-- An optional expression reveals what the expression does. -/
theorem reveals_optional (nullable : Bool) :
    Reveals Anything (optional nullable first).toList (optional nullable second).toList
      conclusion := by
  cases nullable with
  | false => exact reveals
  | true => exact (reveals.opened _).ended _ fun _ => trivial

/-- A boxed expression reveals what the expression does. -/
theorem reveals_boxed (nullable : Bool) :
    Reveals Anything (boxed nullable first).toList (boxed nullable second).toList conclusion := by
  cases nullable with
  | false => exact reveals
  | true => exact (reveals.opened _).ended _ fun _ => trivial

end Wrappers

/-- A string reveals its text, be it optional or not. -/
theorem reveals_string (nullable : Bool) (first second : String) :
    Reveals Anything (optional nullable ("String::from(" ++ rustQuoted first ++ ")")).toList
      (optional nullable ("String::from(" ++ rustQuoted second ++ ")")).toList
      (first = second) :=
  reveals_optional (((reveals_rustQuoted first second).opened _).ended _ fun _ => trivial) nullable

section Handles

/-- A converted handle reveals what the handle does. -/
theorem reveals_typedHandle (subtype : HandleSubtype) {first second : String} {conclusion : Prop}
    (reveals : Reveals Anything first.toList second.toList conclusion) :
    Reveals Anything (typedHandle subtype first).toList (typedHandle subtype second).toList
      conclusion := by
  rw [typedHandle, typedHandle]
  split
  case isTrue => exact reveals
  case isFalse => exact (reveals.opened _).ended _ fun _ => trivial

/-- Converted handles are as far apart as the handles. -/
theorem apart_typedHandle (subtype : HandleSubtype) {first second : String}
    (apart : Apart first.toList second.toList) :
    Apart (typedHandle subtype first).toList (typedHandle subtype second).toList :=
  .of_reveals (reveals_typedHandle subtype (.of_apart apart))

variable (writer : RustWriter)

/-- A copied handle reveals its index. -/
theorem reveals_copyHandle (first second : UInt64) :
    Reveals Anything (writer.copyHandle first).toList (writer.copyHandle second).toList
      (first = second) :=
  ((reveals_ordinal first second).opened _).ended _ fun rest =>
    leaves_append [')'] rest (by decide)

/-- Rights reveal their bits. -/
theorem reveals_rights (first second : Rights) :
    Reveals Anything (rights first).toList (rights second).toList (first = second) := by
  have bits := (reveals_decimal first.bits.toNat second.bits.toNat).imp UInt32.toNat_inj.mp
  refine ((bits.opened _).ended _ fun rest => leaves_append [] rest (by decide)).imp ?_
  intro same
  exact congrArg Rights.mk same

/-- A handle that is copied with other rights. -/
def narrowedHandle (index : UInt64) (narrowed : Rights) : String :=
  "copy_handle_with_rights(&" ++ writer.handlesVariable ++ "[" ++ decimal index.toNat ++ "], " ++
    rights narrowed ++ ")"

/-- A handle that is copied with other rights reveals its index and the rights. -/
theorem reveals_narrowedHandle (first second : UInt64) (narrowed others : Rights) :
    Reveals Anything (writer.narrowedHandle first narrowed).toList
      (writer.narrowedHandle second others).toList (first = second ∧ narrowed = others) := by
  have index : Reveals Anything
      ("copy_handle_with_rights(&" ++ writer.handlesVariable ++ "[" ++ decimal first.toNat ++
        "], ").toList
      ("copy_handle_with_rights(&" ++ writer.handlesVariable ++ "[" ++ decimal second.toNat ++
        "], ").toList (first = second) :=
    ((reveals_ordinal first second).opened _).ended _ fun rest =>
      leaves_append [',', ' '] rest (by decide)
  have both := index.append (reveals_rights narrowed others) (fun _ _ => trivial)
    fun _ _ => trivial
  rw [← String.toList_append, ← String.toList_append] at both
  exact both.ended ")" fun _ => trivial

/-- A handle reveals its index and the rights that it is expected to have. -/
theorem reveals_handle (subtype : HandleSubtype) (first second : UInt64)
    (expected others : Option Rights) :
    Reveals Anything (writer.handle first subtype expected).toList
      (writer.handle second subtype others).toList (first = second ∧ expected = others) := by
  have plainly (index other : UInt64) (narrowed : Rights) :
      Apart (writer.copyHandle index).toList (writer.narrowedHandle other narrowed).toList := by
    unfold copyHandle narrowedHandle
    simp only [String.toList_append, List.append_assoc]
    exact (((Apart.of_differ (by decide)).longer _).symm.longer _).symm
  refine reveals_typedHandle subtype ?_
  cases expected with
  | none =>
    cases others with
    | none => exact (reveals_copyHandle writer first second).imp fun same => ⟨same, rfl⟩
    | some narrowed => exact .of_apart (plainly first second narrowed)
  | some narrowed =>
    cases others with
    | none => exact .of_apart (plainly second first narrowed).symm
    | some rights =>
      refine (reveals_narrowedHandle writer first second narrowed rights).imp ?_
      rintro ⟨same, alike⟩
      exact ⟨same, congrArg some alike⟩

/-- No handle is mistaken for the absent one. -/
theorem apart_handle (index : UInt64) (subtype : HandleSubtype) (expected : Option Rights) :
    Apart (writer.handle index subtype expected).toList
      (typedHandle subtype "Handle::invalid()").toList := by
  refine apart_typedHandle subtype ?_
  cases expected with
  | none =>
    unfold copyHandle
    simp only [String.toList_append, List.append_assoc]
    exact (Apart.of_differ (by decide)).longer _
  | some narrowed =>
    simp only [String.toList_append, List.append_assoc]
    exact (Apart.of_differ (by decide)).longer _

/-- A handle of an unknown field reveals its index. -/
theorem reveals_handleInfo (first second : UInt64) :
    Reveals Anything (writer.handleInfo first).toList (writer.handleInfo second).toList
      (first = second) := by
  unfold handleInfo
  simp only [String.toList_append, List.append_assoc]
  refine Reveals.prefixed ?_ _
  -- The definition repeats the index, so behind the same index the texts are the same.
  exact (reveals_copyHandle writer first second).followed fun same => by rw [same]

/-- The content of an unknown field is revealed. -/
theorem reveals_unknownData (first second : UnknownData) :
    Reveals Anything (writer.unknownData first).toList (writer.unknownData second).toList
      (first = second) := by
  have bytes : Reveals (Begins [','])
      ("bytes: " ++ byteBlock writer.bytesPerLine "vec![" first.bytes "]").toList
      ("bytes: " ++ byteBlock writer.bytesPerLine "vec![" second.bytes "]").toList
      (first.bytes = second.bytes) := by
    refine Reveals.opened (Reveals.narrow ?_ fun _ _ => trivial) _
    exact reveals_byteBlock _ _ (.of_differ (by decide)) (.of_differ (by decide)) _ _
  have handles : Reveals (Begins [','])
      ("handles: " ++ block "vec![" (first.handles.map writer.handleInfo) "]").toList
      ("handles: " ++ block "vec![" (second.handles.map writer.handleInfo) "]").toList
      (first.handles = second.handles) := by
    refine Reveals.opened (Reveals.narrow ?_ fun _ _ => trivial) _
    refine reveals_block_eq (reveals_handleInfo writer) _ (.of_differ (by decide)) (fun index => ?_)
      first.handles second.handles
    unfold handleInfo
    simp only [String.toList_append, List.append_assoc]
    exact (Apart.of_differ (by decide)).longer _
  refine (reveals_pair _ (.of_differ (by decide)) bytes handles).imp ?_
  rintro ⟨sameBytes, sameHandles⟩
  cases first
  cases second
  obtain rfl := sameBytes
  obtain rfl := sameHandles
  rfl

end Handles

end FixtureLiterals.RustWriter
