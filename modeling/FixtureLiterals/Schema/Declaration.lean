import FixtureLiterals.Handle
import FixtureLiterals.Schema.Primitive
import FixtureLiterals.Text.Numeral

/-!
# Declarations

A declaration describes one wire type completely: the elements of a list and the
members of a record carry their own declarations, so no name ever has to be looked
up. A record is a struct, whose members are all present; a union, of which exactly one
member is active; or a table, whose members are all optional. Unions and tables
identify their members by ordinals, and may be open to ordinals unknown to the schema.
-/

namespace FixtureLiterals

/-- The three shapes of a record. -/
inductive RecordKind where
  | struct
  | union
  | table
deriving DecidableEq, Repr

/-- The schema's word for a record kind. -/
def RecordKind.word : RecordKind → String
  | .struct => "struct"
  | .union => "union"
  | .table => "table"

instance : Text.Vocabulary RecordKind where
  all := [.struct, .union, .table]
  word := RecordKind.word
  mem_all := by intro member; cases member <;> decide
  distinct := by decide

/-- Whether a type may contain handles. -/
inductive Resourceness where
  | value
  | resource
deriving DecidableEq, Repr

/-- The schema's word for a resourceness. -/
def Resourceness.word : Resourceness → String
  | .value => "value"
  | .resource => "resource"

instance : Text.Vocabulary Resourceness where
  all := [.value, .resource]
  word := Resourceness.word
  mem_all := by intro member; cases member <;> decide
  distinct := by decide

/-- Whether a union accepts members unknown to the schema. -/
inductive Strictness where
  | strict
  | flexible
deriving DecidableEq, Repr

/-- The schema's word for a strictness. -/
def Strictness.word : Strictness → String
  | .strict => "strict"
  | .flexible => "flexible"

instance : Text.Vocabulary Strictness where
  all := [.strict, .flexible]
  word := Strictness.word
  mem_all := by intro member; cases member <;> decide
  distinct := by decide

/-- A named set of constants on a primitive type. -/
structure NamedScalar where
  name : String
  subtype : Primitive
deriving DecidableEq, Repr

/-- What a record says of itself as a whole. -/
structure RecordHeader where
  name : String
  kind : RecordKind
  nullable : Bool
  resourceness : Resourceness
  /-- Consulted for unions only: a struct is always closed and a table always open. -/
  strictness : Strictness
deriving DecidableEq, Repr

namespace RecordHeader

/-- Whether values of a record may carry members unknown to the schema. -/
def isExtensible (header : RecordHeader) : Bool :=
  match header.kind with
  | .struct => false
  | .union => header.strictness == .flexible
  | .table => true

/-- Whether values of a record may carry handles. -/
def isResource (header : RecordHeader) : Bool := header.resourceness == .resource

/-- A record as messages name it. -/
def describe (header : RecordHeader) : String := header.kind.word ++ " " ++ header.name

end RecordHeader

/-- A declared member of a record: its name, its ordinal, and what is known of its
content, which first is its type. Structs leave the ordinal at zero. -/
structure Member (α : Type) where
  name : String
  ordinal : UInt64
  content : α
deriving Repr

namespace Member

variable {α β : Type}

/-- A member with something else known of its content. -/
def map (transform : α → β) (member : Member α) : Member β :=
  ⟨member.name, member.ordinal, transform member.content⟩

/-- The member of a name. -/
def named? (members : List (Member α)) (name : String) : Option (Member α) :=
  members.find? (fun member => member.name == name)

/-- The first member of an ordinal. -/
def ofOrdinal? (members : List (Member α)) (ordinal : UInt64) : Option (Member α) :=
  members.find? (fun member => member.ordinal == ordinal)

end Member

/-- A schema's description of one wire type. -/
inductive Declaration where
  | primitive (subtype : Primitive)
  | bits (scalar : NamedScalar)
  | enumeration (scalar : NamedScalar)
  | handle (subtype : HandleSubtype) (rights : Rights) (nullable : Bool)
  | string (nullable : Bool)
  | array (element : Declaration) (size : UInt64)
  | vector (element : Declaration) (nullable : Bool)
  | record (header : RecordHeader) (members : List (Member Declaration))

namespace Declaration

/-- Whether a value may be absent. Scalars and arrays are always present. -/
def isNullable : Declaration → Bool
  | .primitive _ | .bits _ | .enumeration _ | .array _ _ => false
  | .handle _ _ nullable | .string nullable | .vector _ nullable => nullable
  | .record header _ => header.nullable

/-- The qualified name of a named type. -/
def name? : Declaration → Option String
  | .bits scalar | .enumeration scalar => some scalar.name
  | .record header _ => some header.name
  | _ => none

/-- A type that may be absent is marked as optional. -/
def markOptional (nullable : Bool) (description : String) : String :=
  if nullable then description ++ ":optional" else description

/-- A declaration as messages name it. -/
def describe : Declaration → String
  | .primitive subtype => subtype.word
  | .bits scalar => "bits " ++ scalar.name
  | .enumeration scalar => "enum " ++ scalar.name
  | .handle subtype _ nullable => markOptional nullable ("handle<" ++ subtype.word ++ ">")
  | .string nullable => markOptional nullable "string"
  | .array element size =>
    "array<" ++ element.describe ++ ", " ++ Text.decimal size.toNat ++ ">"
  | .vector element nullable => markOptional nullable ("vector<" ++ element.describe ++ ">")
  | .record header _ => markOptional header.nullable header.describe

end Declaration

end FixtureLiterals
