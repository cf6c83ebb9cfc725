import FixtureLiterals.Emission.Settings
import FixtureLiterals.Literal.Basic

/-!
# Identifiers of the targets

Both targets write scopes in snake case and type names in upper camel case, and append an
underscore to a segment that is one of their reserved words. They part at the names
inside a record. Go exports its fields in upper camel case, tags a union by a field of
its own, and marks the nullable types with an asterisk, or with an ampersand where a
literal of them is built. Rust has snake case fields and upper camel case variants, and
keeps both clear of its reserved words.
-/

namespace FixtureLiterals

/-- The words that are no identifiers in Go. -/
def goReserved : List String :=
  ["break", "case", "chan", "const", "continue", "default", "defer", "else", "fallthrough", "for",
    "func", "go", "goto", "if", "import", "interface", "map", "package", "range", "return",
    "select", "struct", "switch", "type", "var"]

/-- The words that are no identifiers in Rust. -/
def rustReserved : List String :=
  ["Self", "abstract", "as", "async", "await", "become", "box", "break", "const", "continue",
    "crate", "do", "dyn", "else", "enum", "extern", "false", "final", "fn", "for", "gen", "if",
    "impl", "in", "let", "loop", "macro", "match", "mod", "move", "mut", "override", "priv",
    "pub", "ref", "return", "self", "static", "struct", "super", "trait", "true", "try", "type",
    "typeof", "unsafe", "unsized", "use", "virtual", "where", "while", "yield"]

/-- Qualified names of Go, such as `test_conformance.MyStruct`. -/
def goStyle : NameStyle where
  separator := "."
  scopeCasing := .snake
  leafCasing := .upperCamel
  reserved := goReserved

/-- Qualified names of Rust, such as `test_conformance::MyStruct`. -/
def rustStyle : NameStyle where
  separator := "::"
  scopeCasing := .snake
  leafCasing := .upperCamel
  reserved := rustReserved

namespace GoWriter

/-- A qualified name. -/
def qualified (name : QualifiedName) : String := name.render goStyle

/-- The exported name of a record's field. -/
def fieldName (field : String) : String := Text.Casing.upperCamel.apply field

/-- The field that tags a union. -/
def unionTagField (name : QualifiedName) : String :=
  "I_" ++ Text.Casing.lowerCamel.apply name.leaf ++ "Tag"

/-- The constant that tags a union with a declared member. -/
def unionTag (name : QualifiedName) (field : String) : String :=
  qualified name ++ fieldName field

/-- The handle subtypes that the bindings can hold. -/
def supportsHandle : HandleSubtype → Bool
  | .handle | .channel | .event => true
  | _ => false

/-- The kernel type of a handle. -/
def handleType (writer : GoWriter) (subtype : HandleSubtype) : String :=
  writer.kernelPackage ++ "." ++ Text.Casing.upperCamel.apply subtype.word

/-- A mark in front of a nullable type. -/
def marked (mark : String) (nullable : Bool) (type : String) : String :=
  if nullable then mark ++ type else type

/-- A type with a mark in front of it where it is nullable. Inside a list, a nullable
type is always a pointer. -/
def typeName (writer : GoWriter) (mark : String) : TypeReference → String
  | .primitive subtype => subtype.word
  | .named name nullable => marked mark nullable (qualified name)
  | .string nullable => marked mark nullable "string"
  | .array element size =>
    "[" ++ Text.decimal size.toNat ++ "]" ++ writer.typeName "*" element
  | .vector element nullable => marked mark nullable ("[]" ++ writer.typeName "*" element)
  | .handle subtype _ => writer.handleType subtype

/-- A type where a literal of it is built. -/
def literalType (writer : GoWriter) (type : TypeReference) : String := writer.typeName "&" type

/-- The type of a record where a literal of it is built. -/
def recordType (name : QualifiedName) (nullable : Bool) : String :=
  marked "&" nullable (qualified name)

end GoWriter

namespace RustWriter

/-- A qualified name. -/
def qualified (name : QualifiedName) : String := name.render rustStyle

/-- The name of a record's field. -/
def fieldName (field : String) : String :=
  avoidReserved rustReserved (Text.Casing.snake.apply field)

/-- The name of a union's variant. -/
def variantName (field : String) : String :=
  avoidReserved rustReserved (Text.Casing.upperCamel.apply field)

/-- The type of a primitive, which also is the suffix of its literals. -/
def primitiveType : Primitive → String
  | .bool => "bool"
  | .int8 => "i8"
  | .int16 => "i16"
  | .int32 => "i32"
  | .int64 => "i64"
  | .uint8 => "u8"
  | .uint16 => "u16"
  | .uint32 => "u32"
  | .uint64 => "u64"
  | .float32 => "f32"
  | .float64 => "f64"

/-- The handle subtypes that the bindings can hold. -/
def supportsHandle : HandleSubtype → Bool
  | .handle | .channel | .event | .eventpair | .socket | .vmo => true
  | _ => false

/-- The type of a handle. -/
def handleType : HandleSubtype → String
  | .eventpair => "EventPair"
  | subtype => Text.Casing.upperCamel.apply subtype.word

/-- The constant for the object type of a subtype. -/
def objectType : HandleSubtype → String
  | .handle => "ObjectType::NONE"
  | subtype => "ObjectType::" ++ String.ofList (subtype.word.toList.map Char.toUpper)

end RustWriter

end FixtureLiterals
