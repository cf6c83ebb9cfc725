import FixtureLiterals.Binary64.Layout
import FixtureLiterals.Name
import FixtureLiterals.Schema.Declaration
import FixtureLiterals.Target
import FixtureLiterals.Value

/-!
# Failures and where they happen

A value that cannot be written for its declaration fails for one cause at one place.
The cause keeps what its wording needs, and belongs to one of a few categories. The place
is a route into the value, one step for each record field or list item, or an entry
of the handle table. A failure inside a part becomes a failure of the whole by putting
the part's step in front of the route.
-/

namespace FixtureLiterals

/-- One step from a value to a part of it. -/
inductive Segment where
  | field (name : String)
  | unknownOrdinal (ordinal : UInt64)
  | index (position : Nat)
deriving DecidableEq, Repr

/-- A step as paths show it. -/
def Segment.text : Segment → String
  | .field name => "." ++ name
  | .unknownOrdinal ordinal => ".#" ++ Text.decimal ordinal.toNat
  | .index position => "[" ++ Text.decimal position ++ "]"

/-- The step to the field of a key. -/
def FieldKey.segment : FieldKey → Segment
  | .declared name => .field name
  | .unknown ordinal => .unknownOrdinal ordinal

/-- Where a failure happens: inside the value, or at an entry of the handle table. -/
inductive Place where
  | value (route : List Segment)
  | handleDefinition (position : Nat)
deriving DecidableEq, Repr

namespace Place

/-- The value as a whole. -/
def root : Place := .value []

/-- The place of a part, seen from the whole that a step leads into. A handle table is no
part of a value. -/
def within (segment : Segment) : Place → Place
  | .value route => .value (segment :: route)
  | .handleDefinition position => .handleDefinition position

/-- A place in writing. -/
def text : Place → String
  | .value route => "$" ++ String.join (route.map Segment.text)
  | .handleDefinition position => "handle_defs" ++ (Segment.index position).text

end Place

/-- The categories of causes. -/
inductive Category where
  /-- The value has the wrong shape for its declaration. -/
  | typeMismatch
  /-- A value is absent where it has to be present. -/
  | nullabilityViolation
  | unsupportedHandleSubtype
  | handleIndexOutOfRange
  | malformedUnionValue
  /-- Something has no place in the schema. -/
  | unknownSchemaConstruct
  | malformedName
deriving DecidableEq, Repr

/-- Why a value, a handle table or a test case cannot be written. -/
inductive Fault where
  /-- A value of another kind than its declaration asks for. -/
  | kindMismatch (kindName description : String)
  /-- A list with another length than its array. -/
  | elementCount (count : Nat) (description : String)
  | integerOutOfRange (integer : Integer) (description : String)
  | floatOutOfRange (float : Binary64) (subtype : Primitive)
  /-- A bit pattern that does not fit the width of its float. -/
  | rawFloatMismatch (float : RawFloat) (subtype : Primitive)
  /-- An unknown ordinal on a record that is closed. -/
  | notExtensible (ordinal : UInt64) (header : RecordHeader)
  /-- An unknown ordinal that the record does declare. -/
  | declaredOrdinal (ordinal : UInt64) (fieldName recordName : String)
  | unknownFieldKind (kindName : String)
  /-- Unknown data with handles on a record that may not have any. -/
  | handlesOnValueType (recordName : String)
  | repeatedField (name : String)
  | repeatedOrdinal (ordinal : UInt64)
  | missingField (recordName fieldName : String)
  | nullForbidden (description : String)
  | unsupportedHandle (subtype : HandleSubtype) (target : Target)
  | handleOutOfRange (index : UInt64) (count : Nat)
  | unionFieldCount (count : Nat)
  /-- Unknown data anywhere else than in an unknown field. -/
  | strayUnknownData (description : String)
  | undeclaredField (header : RecordHeader)
  /-- A test case whose type is not declared. -/
  | missingDeclaration (typeName : String)
  | malformedName (fault : NameFault)
deriving DecidableEq, Repr

namespace Fault

/-- The category of a cause. -/
def category : Fault → Category
  | .kindMismatch _ _ | .elementCount _ _ | .integerOutOfRange _ _ | .floatOutOfRange _ _
  | .rawFloatMismatch _ _ | .notExtensible _ _ | .declaredOrdinal _ _ _ | .unknownFieldKind _
  | .handlesOnValueType _ | .repeatedField _ | .repeatedOrdinal _ | .missingField _ _ =>
    .typeMismatch
  | .nullForbidden _ => .nullabilityViolation
  | .unsupportedHandle _ _ => .unsupportedHandleSubtype
  | .handleOutOfRange _ _ => .handleIndexOutOfRange
  | .unionFieldCount _ => .malformedUnionValue
  | .strayUnknownData _ | .undeclaredField _ | .missingDeclaration _ => .unknownSchemaConstruct
  | .malformedName _ => .malformedName

/-- What is particular to a cause. -/
def detail : Fault → String
  | .kindMismatch kindName description => kindName ++ " value for " ++ description
  | .elementCount count description =>
    Text.decimal count ++ " elements for " ++ description
  | .integerOutOfRange integer description =>
    integer.text ++ " out of range for " ++ description
  | .floatOutOfRange float subtype =>
    Binary64.text Binary64.messageLayout float ++ " out of range for " ++ subtype.word
  | .rawFloatMismatch float subtype =>
    "raw " ++ float.width.label ++ " bits 0x" ++ Text.hexadecimal float.bits.toNat ++ " for " ++
      subtype.word
  | .notExtensible ordinal header =>
    "unknown ordinal " ++ Text.decimal ordinal.toNat ++ " on " ++ header.describe ++
      ", which is not extensible"
  | .declaredOrdinal ordinal fieldName recordName =>
    "ordinal " ++ Text.decimal ordinal.toNat ++ " is declared as field `" ++ fieldName ++ "` of " ++
      recordName
  | .unknownFieldKind kindName =>
    kindName ++ " value for unknown field, expected unknown data"
  | .handlesOnValueType recordName =>
    "unknown data carries handles but " ++ recordName ++ " is not a resource type"
  | .repeatedField name => "field `" ++ name ++ "` set more than once"
  | .repeatedOrdinal ordinal =>
    "unknown ordinal " ++ Text.decimal ordinal.toNat ++ " set more than once"
  | .missingField recordName fieldName =>
    "struct " ++ recordName ++ " is missing field `" ++ fieldName ++ "`"
  | .nullForbidden description => "null for non-nullable " ++ description
  | .unsupportedHandle subtype target =>
    "handle subtype `" ++ subtype.word ++ "` is not supported by the " ++ target.word ++ " target"
  | .handleOutOfRange index count =>
    "handle index " ++ Text.decimal index.toNat ++ " out of range (handle table has " ++
      Text.decimal count ++ " entries)"
  | .unionFieldCount count =>
    "union value must set exactly one field, found " ++ Text.decimal count
  | .strayUnknownData description =>
    "unknown data outside an unknown field, for " ++ description
  | .undeclaredField header => "field not declared on " ++ header.describe
  | .missingDeclaration typeName => "no declaration named `" ++ typeName ++ "`"
  | .malformedName fault => fault.message

/-- What the category puts in front of the detail. -/
def introduction : Category → String
  | .typeMismatch => "type mismatch: "
  | .nullabilityViolation => "nullability violation: "
  | .unknownSchemaConstruct => "unknown schema construct: "
  | .malformedName => "malformed name: "
  | .unsupportedHandleSubtype | .handleIndexOutOfRange | .malformedUnionValue => ""

/-- The wording of a cause. -/
def message (fault : Fault) : String := introduction fault.category ++ fault.detail

end Fault

/-- A cause at a place. -/
structure Failure where
  fault : Fault
  place : Place
deriving DecidableEq, Repr

namespace Failure

/-- A failure of the value as a whole. -/
def atRoot (fault : Fault) : Failure := ⟨fault, .root⟩

/-- The wording of a failure. -/
def message (failure : Failure) : String :=
  failure.fault.message ++ " at " ++ failure.place.text

end Failure

/-- Fail as a whole. -/
def fail {α : Type} (fault : Fault) : Except Failure α := .error (.atRoot fault)

/-- The result for a part, as a result for the whole that a step leads into. -/
def within {α : Type} (segment : Segment) : Except Failure α → Except Failure α
  | .ok result => .ok result
  | .error failure => .error ⟨failure.fault, failure.place.within segment⟩

/-- A failure of a test case, with the name of the case. -/
structure CaseFailure where
  caseName : String
  failure : Failure
deriving DecidableEq, Repr

/-- The wording of a test case's failure. -/
def CaseFailure.message (failed : CaseFailure) : String :=
  "case `" ++ failed.caseName ++ "`: " ++ failed.failure.message

end FixtureLiterals
