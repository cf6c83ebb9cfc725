import FixtureLiterals.Name
import FixtureLiterals.Schema.Primitive
import FixtureLiterals.Value

/-!
# Literals

A literal is a value that has been fitted to its declaration. Every node carries what
is needed to write it down for any target, and nothing else: the names are parsed, the
fields of structs and tables stand in the order of declaration, and the type of a list
is spelled out.
-/

namespace FixtureLiterals

/-- A type as the head of a list spells it. -/
inductive TypeReference where
  | primitive (subtype : Primitive)
  | named (name : QualifiedName) (nullable : Bool)
  | string (nullable : Bool)
  | handle (subtype : HandleSubtype) (nullable : Bool)
  | array (element : TypeReference) (size : UInt64)
  | vector (element : TypeReference) (nullable : Bool)
deriving DecidableEq, Repr

/-- A value fitted to its declaration. -/
inductive Literal where
  | bool (value : Bool)
  | integer (value : Integer) (subtype : Primitive)
  | float (value : Binary64) (subtype : Primitive)
  /-- A float by the exact bit pattern of its subtype's width. -/
  | floatBits (bits : UInt64) (subtype : Primitive)
  | bits (name : QualifiedName) (value : Integer)
  | enumeration (name : QualifiedName) (value : Integer)
  | string (value : String) (nullable : Bool)
  | handle (index : UInt64) (subtype : HandleSubtype) (rights : Option Rights)
  /-- The absent handle. -/
  | invalidHandle (subtype : HandleSubtype)
  /-- An absent string, vector or record. -/
  | null
  | list (type : TypeReference) (elements : List Literal)
  | struct (name : QualifiedName) (nullable : Bool) (fields : List (String × Literal))
  /-- A union with a declared member. -/
  | union (name : QualifiedName) (nullable : Bool) (field : String) (ordinal : UInt64)
      (value : Literal)
  /-- A union with a member that the schema does not know. -/
  | unknownUnion (name : QualifiedName) (nullable : Bool) (ordinal : UInt64) (data : UnknownData)
  /-- A table with the declared fields that are present, in the order of declaration, and
  the unknown ones, in the order of the value. -/
  | table (name : QualifiedName) (nullable : Bool) (fields : List (String × Literal))
      (unknown : List (UInt64 × UnknownData))

end FixtureLiterals
