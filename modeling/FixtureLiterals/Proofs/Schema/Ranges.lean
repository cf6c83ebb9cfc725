import FixtureLiterals.Schema.Primitive

/-!
# Range checks in either sign

A number that fits both a signed and an unsigned word may be written in either, and each of the two
has a check of its own. A check for one sign converts the number where a type has the other sign,
and then asks the bound of the type in that sign.

Both checks decide one question: whether the mathematical integer lies in the range of the type.
-/

namespace FixtureLiterals

namespace Primitive

/-- A signed number as an unsigned one: what is negative becomes a number of the upper half. -/
theorem toInt_eq_toUInt64 (number : Int64) :
    number.toInt = if 2 * number.toUInt64.toNat < 0x10000000000000000
      then (number.toUInt64.toNat : Int)
      else (number.toUInt64.toNat : Int) - 0x10000000000000000 :=
  BitVec.toInt_eq_toNat_cond number.toBitVec

/-- An unsigned number as a signed one: the upper half becomes negative. -/
theorem toInt64_toInt_eq (number : UInt64) :
    number.toInt64.toInt = if 2 * number.toNat < 0x10000000000000000
      then (number.toNat : Int)
      else (number.toNat : Int) - 0x10000000000000000 :=
  BitVec.toInt_eq_toNat_cond number.toBitVec

/-- The check of a number with a sign decides whether it is in the range of the type. -/
theorem holdsSigned_eq (subtype : Primitive) (number : Int64) :
    subtype.holdsSigned number = subtype.holds number.toInt := by
  have least := number.le_toInt
  have greatest := number.toInt_lt
  have bounded := number.toUInt64.toNat_lt
  have converted := toInt_eq_toUInt64 number
  rw [Bool.eq_iff_iff]
  cases subtype <;>
    simp [holdsSigned, isUnsigned, containsSigned, containsUnsigned, holds, range?] <;>
    omega

/-- The check of a number without a sign decides whether it is in the range of the type. -/
theorem holdsUnsigned_eq (subtype : Primitive) (number : UInt64) :
    subtype.holdsUnsigned number = subtype.holds number.toNat := by
  have bounded := number.toNat_lt
  have converted := toInt64_toInt_eq number
  rw [Bool.eq_iff_iff]
  cases subtype <;>
    simp [holdsUnsigned, isSigned, containsSigned, containsUnsigned, holds, range?] <;>
    omega

end Primitive

end FixtureLiterals
