import FixtureLiterals.Text.Vocabulary

/-!
# Primitive types

The booleans, the integers of four widths and two signs, and the two floats. What a
schema asks of an integer type is its range: an integer type holds exactly the
mathematical integers in it, in whichever sign the value was written. Each sign has a
check of its own, which converts the number where the type has the other one.
-/

namespace FixtureLiterals

/-- A primitive wire type. -/
inductive Primitive where
  | bool
  | int8
  | int16
  | int32
  | int64
  | uint8
  | uint16
  | uint32
  | uint64
  | float32
  | float64
deriving DecidableEq, Repr

namespace Primitive

/-- The schema's word for a primitive type. -/
def word : Primitive → String
  | .bool => "bool"
  | .int8 => "int8"
  | .int16 => "int16"
  | .int32 => "int32"
  | .int64 => "int64"
  | .uint8 => "uint8"
  | .uint16 => "uint16"
  | .uint32 => "uint32"
  | .uint64 => "uint64"
  | .float32 => "float32"
  | .float64 => "float64"

instance : Text.Vocabulary Primitive where
  all := [.bool, .int8, .int16, .int32, .int64, .uint8, .uint16, .uint32, .uint64,
    .float32, .float64]
  word := word
  mem_all := by intro member; cases member <;> decide
  distinct := by decide

/-- Whether a type is a two's complement integer. -/
def isSigned : Primitive → Bool
  | .int8 | .int16 | .int32 | .int64 => true
  | _ => false

/-- Whether a type is an integer without a sign. -/
def isUnsigned : Primitive → Bool
  | .uint8 | .uint16 | .uint32 | .uint64 => true
  | _ => false

/-- Whether a type is an integer. -/
def isInteger (subtype : Primitive) : Bool := subtype.isSigned || subtype.isUnsigned

/-- Whether a type is a float. -/
def isFloat : Primitive → Bool
  | .float32 | .float64 => true
  | _ => false

/-- Whether a signed type contains a signed number. The widest one contains them all. -/
def containsSigned : Primitive → Int64 → Bool
  | .int8, number => decide (-0x80 ≤ number.toInt ∧ number.toInt ≤ 0x7F)
  | .int16, number => decide (-0x8000 ≤ number.toInt ∧ number.toInt ≤ 0x7FFF)
  | .int32, number => decide (-0x80000000 ≤ number.toInt ∧ number.toInt ≤ 0x7FFFFFFF)
  | .int64, _ => true
  | _, _ => false

/-- Whether an unsigned type contains an unsigned number. The widest one contains them all. -/
def containsUnsigned : Primitive → UInt64 → Bool
  | .uint8, number => decide (number.toNat ≤ 0xFF)
  | .uint16, number => decide (number.toNat ≤ 0xFFFF)
  | .uint32, number => decide (number.toNat ≤ 0xFFFFFFFF)
  | .uint64, _ => true
  | _, _ => false

/-- Whether a type holds a number that is written with a sign. For an unsigned type it has to be
one that can be written without. -/
def holdsSigned (subtype : Primitive) (number : Int64) : Bool :=
  if subtype.isUnsigned then
    decide (0 ≤ number.toInt) && subtype.containsUnsigned number.toUInt64
  else subtype.containsSigned number

/-- Whether a type holds a number that is written without a sign. For a signed type it has to be
one that can be written with one. -/
def holdsUnsigned (subtype : Primitive) (number : UInt64) : Bool :=
  if subtype.isSigned then
    decide (number.toNat ≤ 0x7FFFFFFFFFFFFFFF) && subtype.containsSigned number.toInt64
  else subtype.containsUnsigned number

/-- The least and the greatest integer of an integer type. -/
def range? : Primitive → Option (Int × Int)
  | .int8 => some (-0x80, 0x7F)
  | .int16 => some (-0x8000, 0x7FFF)
  | .int32 => some (-0x80000000, 0x7FFFFFFF)
  | .int64 => some (-0x8000000000000000, 0x7FFFFFFFFFFFFFFF)
  | .uint8 => some (0, 0xFF)
  | .uint16 => some (0, 0xFFFF)
  | .uint32 => some (0, 0xFFFFFFFF)
  | .uint64 => some (0, 0xFFFFFFFFFFFFFFFF)
  | .bool | .float32 | .float64 => none

/-- Whether an integer lies in the range of a type. A type that is no integer holds
none. -/
def holds (subtype : Primitive) (number : Int) : Bool :=
  match subtype.range? with
  | some (least, greatest) => decide (least ≤ number ∧ number ≤ greatest)
  | none => false

end Primitive

end FixtureLiterals
