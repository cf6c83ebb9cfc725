import FixtureLiterals.Binary64.Basic
import FixtureLiterals.Handle
import FixtureLiterals.Text.Numeral
import FixtureLiterals.Text.Vocabulary

/-!
# Values

A value is written down for no target and no type in particular. It remembers the
sign with which an integer was written, may give a float by its exact bit pattern, and
refers to handles by their position in a table. The fields of a record keep their
order and may repeat; whether they suit a declared record is not the value's concern.
-/

namespace FixtureLiterals

/-- An integer, with the sign it was written in. -/
inductive Integer where
  | signed (number : Int64)
  | unsigned (number : UInt64)
deriving DecidableEq, Repr

namespace Integer

/-- The mathematical integer. -/
def toInt : Integer → Int
  | .signed number => number.toInt
  | .unsigned number => number.toNat

/-- The integer in decimal. -/
def text (integer : Integer) : String := Text.signedDecimal integer.toInt

end Integer

/-- The width of a bit pattern. -/
inductive FloatWidth where
  | f32
  | f64
deriving DecidableEq, Repr

namespace FloatWidth

/-- The document's word for a width. -/
def word : FloatWidth → String
  | .f32 => "f32"
  | .f64 => "f64"

/-- A width as messages name it. -/
def label : FloatWidth → String
  | .f32 => "F32"
  | .f64 => "F64"

instance : Text.Vocabulary FloatWidth where
  all := [.f32, .f64]
  word := word
  mem_all := by intro member; cases member <;> decide
  distinct := by decide

end FloatWidth

/-- A float given by its exact bit pattern, which no decimal rounding touches. -/
structure RawFloat where
  width : FloatWidth
  bits : UInt64
deriving DecidableEq, Repr

/-- A reference to an entry of the handle table. -/
structure HandleReference where
  index : UInt64
  /-- The rights that the value expects, where they are narrower than the entry's. -/
  rights : Option Rights
deriving DecidableEq, Repr

/-- The raw content of a field that the schema does not know. -/
structure UnknownData where
  bytes : List UInt8
  /-- Positions in the handle table. -/
  handles : List UInt64
deriving DecidableEq, Repr

/-- What identifies a field of a record: a declared name, or an ordinal that the
schema does not know. -/
inductive FieldKey where
  | declared (name : String)
  | unknown (ordinal : UInt64)
deriving DecidableEq, Repr

/-- A key as paths name it. -/
def FieldKey.text : FieldKey → String
  | .declared name => name
  | .unknown ordinal => "#" ++ Text.decimal ordinal.toNat

/-- One field of a record. -/
structure Field (α : Type) where
  key : FieldKey
  value : α
deriving Repr

/-- A value, for any target and any type. -/
inductive Value where
  | bool (value : Bool)
  | integer (value : Integer)
  | float (value : Binary64)
  | rawFloat (value : RawFloat)
  | string (value : String)
  | handle (reference : HandleReference)
  | record (fields : List (Field Value))
  | list (items : List Value)
  /-- The content of a field with an unknown ordinal; it has no other place. -/
  | unknownData (data : UnknownData)
  | null

namespace Value

/-- The kind of a value, as messages name it. -/
def kindName : Value → String
  | .bool _ => "bool"
  | .integer (.signed _) => "int"
  | .integer (.unsigned _) => "uint"
  | .float _ => "float64"
  | .rawFloat _ => "raw float"
  | .string _ => "string"
  | .handle _ => "handle"
  | .record _ => "record"
  | .list _ => "list"
  | .unknownData _ => "unknown data"
  | .null => "null"

/-- Whether a value is the absent one. -/
def isNull : Value → Bool
  | .null => true
  | _ => false

/-- A named field. -/
def named (name : String) (value : Value) : Field Value := ⟨.declared name, value⟩

/-- A field with an ordinal that the schema does not know. -/
def unknown (ordinal : UInt64) (data : UnknownData) : Field Value :=
  ⟨.unknown ordinal, .unknownData data⟩

end Value

end FixtureLiterals
