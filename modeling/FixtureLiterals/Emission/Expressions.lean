import FixtureLiterals.Binary64.Layout
import FixtureLiterals.Emission.Handles
import FixtureLiterals.Emission.Quoted

/-!
# Literals as expressions

A literal is written as an expression that builds the value. Fitting has already
decided that this is possible, so writing never fails, and each node is written from
the texts of its parts alone.

Go gives every list and record its type, takes addresses for nullable ones, and flags
the fields of a table that are present. Rust suffixes its numbers with their types, wraps
optional values, boxes optional records, and completes a table from the empty one.
-/

namespace FixtureLiterals

open Emission

namespace GoWriter

/-- A float. What is no finite number has no literal of its own, and what stands for it is
a 64-bit float that a 32-bit one has to be converted from. -/
def float (subtype : Primitive) (value : Binary64) : String :=
  if value.isFinite then value.text Binary64.sourceLayout
  else
    let special :=
      if value.isNaN then "math.NaN()"
      else if value.isNegative then "math.Inf(-1)"
      else "math.Inf(1)"
    if subtype = .float32 then "float32(" ++ special ++ ")" else special

/-- A float by its bit pattern. -/
def floatBits (subtype : Primitive) (bits : UInt64) : String :=
  (if subtype = .float32 then "math.Float32frombits(0x" else "math.Float64frombits(0x") ++
    Text.hexadecimal bits.toNat ++ ")"

/-- A string, which as an optional one is the address of an element of a list. -/
def string (nullable : Bool) (value : String) : String :=
  if nullable then "&[]string\x7b" ++ goQuoted value ++ "\x7d[0]" else goQuoted value

/-- A handle, wrapped in its kernel type. -/
def handle (writer : GoWriter) (index : UInt64) (subtype : HandleSubtype) : String :=
  if subtype = .handle then writer.handleAt index
  else writer.handleType subtype ++ "(" ++ writer.handleAt index ++ ")"

/-- The entries of a table's field: its value and its flag. -/
def tableEntries (field : String × String) : List String :=
  [fieldName field.1 ++ ": " ++ field.2, fieldName field.1 ++ "Present: true"]

/-- The entry that holds a table's unknown fields, if there are any. -/
def unknownEntry (writer : GoWriter) (unknown : List (UInt64 × UnknownData)) : List String :=
  if unknown.isEmpty then []
  else
    ["I_unknownData: " ++ composite ("map[uint64]" ++ writer.runtimePackage ++ ".UnknownData")
      (unknown.map fun (ordinal, data) =>
        Text.decimal ordinal.toNat ++ ": " ++ writer.unknownData data)]

mutual

/-- A literal as an expression. -/
def expression (writer : GoWriter) : Literal → String
  | .bool value => if value then "true" else "false"
  | .integer value _ => value.text
  | .float value subtype => float subtype value
  | .floatBits bits subtype => floatBits subtype bits
  | .bits name value | .enumeration name value => qualified name ++ "(" ++ value.text ++ ")"
  | .string value nullable => string nullable value
  | .handle index subtype _ => writer.handle index subtype
  | .invalidHandle _ => writer.kernelPackage ++ ".HandleInvalid"
  | .null => "nil"
  | .list type elements => composite (writer.literalType type) (writer.expressions elements)
  | .struct name nullable fields =>
    composite (recordType name nullable)
      ((writer.fieldExpressions fields).map fun (field, value) => fieldName field ++ ": " ++ value)
  | .union name nullable field _ value =>
    composite (recordType name nullable) [
      unionTagField name ++ ": " ++ unionTag name field,
      fieldName field ++ ": " ++ writer.expression value]
  | .unknownUnion name nullable ordinal data =>
    composite (recordType name nullable) [
      unionTagField name ++ ": " ++ Text.decimal ordinal.toNat,
      "I_unknownData: " ++ writer.unknownData data]
  | .table name nullable fields unknown =>
    composite (recordType name nullable)
      ((writer.fieldExpressions fields).flatMap tableEntries ++ writer.unknownEntry unknown)

/-- Several literals as expressions. -/
def expressions (writer : GoWriter) : List Literal → List String
  | [] => []
  | literal :: literals => writer.expression literal :: writer.expressions literals

/-- The fields of a record with their values as expressions. -/
def fieldExpressions (writer : GoWriter) : List (String × Literal) → List (String × String)
  | [] => []
  | (field, literal) :: fields =>
    (field, writer.expression literal) :: writer.fieldExpressions fields

end

end GoWriter

namespace RustWriter

/-- A float with its type. -/
def float (subtype : Primitive) (value : Binary64) : String :=
  if value.isFinite then value.text Binary64.sourceLayout ++ primitiveType subtype
  else if value.isNaN then primitiveType subtype ++ "::NAN"
  else if value.isNegative then primitiveType subtype ++ "::NEG_INFINITY"
  else primitiveType subtype ++ "::INFINITY"

/-- An optional expression. -/
def optional (nullable : Bool) (expression : String) : String :=
  if nullable then "Some(" ++ expression ++ ")" else expression

/-- An optional expression of a record. -/
def boxed (nullable : Bool) (expression : String) : String :=
  if nullable then "Some(Box::new(" ++ expression ++ "))" else expression

/-- A handle, converted to its type. -/
def typedHandle (subtype : HandleSubtype) (handle : String) : String :=
  if subtype = .handle then handle else handleType subtype ++ "::from(" ++ handle ++ ")"

/-- A handle, copied with other rights where the value asks for them. -/
def handle (writer : RustWriter) (index : UInt64) (subtype : HandleSubtype)
    (expected : Option Rights) : String :=
  typedHandle subtype <|
    match expected with
    | none => writer.copyHandle index
    | some narrowed =>
      "copy_handle_with_rights(&" ++ writer.handlesVariable ++ "[" ++ Text.decimal index.toNat ++
        "], " ++ rights narrowed ++ ")"

/-- The items of a list under its type. -/
def list (type : TypeReference) (items : List String) : String :=
  match type with
  | .array _ _ => block "[" items "]"
  | .vector _ nullable => optional nullable (block "vec![" items "]")
  | _ => block "vec![" items "]"

/-- The entry that holds a table's unknown fields, if there are any. -/
def unknownEntry (writer : RustWriter) (unknown : List (UInt64 × UnknownData)) : List String :=
  if unknown.isEmpty then []
  else
    ["unknown_data: Some(" ++ block "BTreeMap::from(["
      (unknown.map fun (ordinal, data) =>
        "(" ++ Text.decimal ordinal.toNat ++ ", " ++ writer.unknownData data ++ ")") "])" ++ ")"]

/-- A table: the entries that are present, and the empty table for all others. -/
def table (name : String) (entries : List String) : String :=
  name ++ " \x7b\n" ++ String.join (entries.map fun entry => entry ++ ",\n") ++ ".." ++ name ++
    "::EMPTY\n\x7d"

mutual

/-- A literal as an expression. -/
def expression (writer : RustWriter) : Literal → String
  | .bool value => if value then "true" else "false"
  | .integer value subtype => value.text ++ primitiveType subtype
  | .float value subtype => float subtype value
  | .floatBits bits subtype =>
    primitiveType subtype ++ "::from_bits(0x" ++ Text.hexadecimal bits.toNat ++ ")"
  | .bits name value => qualified name ++ "::from_bits_allow_unknown(" ++ value.text ++ ")"
  | .enumeration name value =>
    qualified name ++ "::from_primitive_allow_unknown(" ++ value.text ++ ")"
  | .string value nullable => optional nullable ("String::from(" ++ rustQuoted value ++ ")")
  | .handle index subtype expected => writer.handle index subtype expected
  | .invalidHandle subtype => typedHandle subtype "Handle::invalid()"
  | .null => "None"
  | .list type elements => list type (writer.expressions elements)
  | .struct name nullable fields =>
    boxed nullable (block (qualified name ++ " \x7b")
      ((writer.fieldExpressions fields).map fun (field, value) => fieldName field ++ ": " ++ value)
      "\x7d")
  | .union name nullable field _ value =>
    boxed nullable
      (qualified name ++ "::" ++ variantName field ++ "(" ++ writer.expression value ++ ")")
  | .unknownUnion name nullable ordinal data =>
    boxed nullable (qualified name ++ "::unknown_variant_for_testing(" ++
      Text.decimal ordinal.toNat ++ ", " ++ writer.unknownData data ++ ")")
  | .table name nullable fields unknown =>
    boxed nullable (table (qualified name)
      ((writer.fieldExpressions fields).map (fun (field, value) =>
        fieldName field ++ ": Some(" ++ value ++ ")") ++ writer.unknownEntry unknown))

/-- Several literals as expressions. -/
def expressions (writer : RustWriter) : List Literal → List String
  | [] => []
  | literal :: literals => writer.expression literal :: writer.expressions literals

/-- The fields of a record with their values as expressions. -/
def fieldExpressions (writer : RustWriter) : List (String × Literal) → List (String × String)
  | [] => []
  | (field, literal) :: fields =>
    (field, writer.expression literal) :: writer.fieldExpressions fields

end

end RustWriter

end FixtureLiterals
