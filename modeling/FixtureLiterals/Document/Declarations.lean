import FixtureLiterals.Document.Handles
import FixtureLiterals.Schema.Declaration

/-!
# Declarations in documents

A declaration is a structure whose first member, `type`, tells what the others are.
Since the tag may stand behind them, the whole declaration is set aside before it is
read. Inside a part that was set aside, a tag may also be given by its position among
the tags. The members of a record are a map, in the order of declaration.
-/

namespace FixtureLiterals

open Document

/-- The tags of declarations. -/
inductive DeclarationTag where
  | primitive
  | bits
  | enumeration
  | handle
  | string
  | array
  | vector
  | record
deriving DecidableEq, Repr

namespace DeclarationTag

/-- The document's word for a tag. -/
def word : DeclarationTag → String
  | .primitive => "primitive"
  | .bits => "bits"
  | .enumeration => "enum"
  | .handle => "handle"
  | .string => "string"
  | .array => "array"
  | .vector => "vector"
  | .record => "record"

instance : Text.Vocabulary DeclarationTag where
  all := [.primitive, .bits, .enumeration, .handle, .string, .array, .vector, .record]
  word := word
  mem_all := by intro member; cases member <;> decide
  distinct := by decide

/-- The members of a declaration, the tag first. -/
def memberNames : DeclarationTag → List String
  | .primitive => ["type", "subtype"]
  | .bits | .enumeration => ["type", "name", "subtype"]
  | .handle => ["type", "subtype", "rights", "nullable"]
  | .string => ["type", "nullable"]
  | .array => ["type", "elem", "size"]
  | .vector => ["type", "elem", "nullable"]
  | .record => ["type", "name", "kind", "fields", "nullable", "resourceness", "strictness"]

/-- The tag that a part names. -/
def ofTree? : Reading → Tree → Option DeclarationTag
  | _, .text (some text) => Text.Vocabulary.ofWord? text
  | .deferred, .number numeral => do
    let position ← natural? UInt64.size (.number numeral)
    Text.Vocabulary.ofPosition? position
  | _, _ => none

end DeclarationTag

namespace Declaration

/-- The part that holds the tag of a declaration. -/
def tagPart? : Tree → Option Tree
  | .array (first :: _) => some first
  | .object members => members.lookup (some "type")
  | _ => none

/-- A named scalar, from the members of its declaration. -/
def scalarOfMembers? (depth : Nat) (members : Members) : Option NamedScalar := do
  return {
    name := ← members.required "name" (Documented.ofTree? depth .deferred)
    subtype := ← members.required "subtype" (Documented.ofTree? depth .deferred)
  }

/-- What a record says of itself, from the members of its declaration. -/
def headerOfMembers? (depth : Nat) (members : Members) : Option RecordHeader := do
  return {
    name := ← members.required "name" (Documented.ofTree? depth .deferred)
    kind := ← members.required "kind" (Documented.ofTree? depth .deferred)
    nullable := ← members.withDefault "nullable" false (Documented.ofTree? depth .deferred)
    resourceness := ← members.withDefault "resourceness" .value (Documented.ofTree? depth .deferred)
    strictness := ← members.withDefault "strictness" .strict (Documented.ofTree? depth .deferred)
  }

mutual

/-- The declaration of a part that was set aside, with its tag read either way. -/
def ofSound? : Nat → Reading → Tree → Option Declaration
  | 0, _, _ => none
  | depth + 1, reading, tree => do
    let tag ← DeclarationTag.ofTree? reading (← tagPart? tree)
    let members ← members? tag.memberNames tree
    match tag with
    | .primitive =>
      return .primitive (← members.required "subtype" (Documented.ofTree? depth .deferred))
    | .bits => return .bits (← scalarOfMembers? depth members)
    | .enumeration => return .enumeration (← scalarOfMembers? depth members)
    | .handle =>
      let subtype ← members.required "subtype" (Documented.ofTree? depth .deferred)
      let rights ← members.withDefault "rights" Rights.same (Documented.ofTree? depth .deferred)
      let nullable ← members.withDefault "nullable" false (Documented.ofTree? depth .deferred)
      return .handle subtype rights nullable
    | .string =>
      return .string (← members.withDefault "nullable" false (Documented.ofTree? depth .deferred))
    | .array =>
      let element ← members.required "elem" (ofSound? depth .deferred)
      let size ← members.required "size" (Documented.ofTree? depth .deferred)
      return .array element size
    | .vector =>
      let element ← members.required "elem" (ofSound? depth .deferred)
      let nullable ← members.withDefault "nullable" false (Documented.ofTree? depth .deferred)
      return .vector element nullable
    | .record =>
      let header ← headerOfMembers? depth members
      let fields ← members.withDefault "fields" [] (membersOfSound? depth)
      return .record header fields

/-- The members of a record, from the map that declares them. -/
def membersOfSound? : Nat → Tree → Option (List (Member Declaration))
  | 0, _ => none
  | depth + 1, .object members => do
    let entries ← members.mapM fun (key, content) => do
      return (← key, ← memberOfSound? depth content)
    return (entries.foldl putEntry []).map fun (name, ordinal, type) => ⟨name, ordinal, type⟩
  | _, _ => none

/-- The ordinal and the type of one member of a record. -/
def memberOfSound? : Nat → Tree → Option (UInt64 × Declaration)
  | 0, _ => none
  | depth + 1, tree => do
    let members ← members? ["ordinal", "type"] tree
    let ordinal ← members.withDefault "ordinal" 0 (Documented.ofTree? depth .deferred)
    let type ← members.required "type" (ofSound? depth .deferred)
    return (ordinal, type)

end

/-- The declaration of a part of a document. Where it stands in the text itself, it is
first set aside as a whole. -/
def ofTree? (depth : Nat) (reading : Reading) (tree : Tree) : Option Declaration :=
  if reading = .immediate && !tree.isSound depth then none else ofSound? depth reading tree

/-- The document of a declaration with its tag in front. -/
def tagged (tag : DeclarationTag) (members : Members) : Tree :=
  ofMembers (("type", Documented.toTree tag) :: members)

mutual

/-- The document of a declaration, with every member written out. -/
def toTree : Declaration → Tree
  | .primitive subtype => tagged .primitive [("subtype", Documented.toTree subtype)]
  | .bits scalar => tagged .bits
      [("name", Documented.toTree scalar.name), ("subtype", Documented.toTree scalar.subtype)]
  | .enumeration scalar => tagged .enumeration
      [("name", Documented.toTree scalar.name), ("subtype", Documented.toTree scalar.subtype)]
  | .handle subtype rights nullable => tagged .handle
      [("subtype", Documented.toTree subtype), ("rights", Documented.toTree rights),
        ("nullable", Documented.toTree nullable)]
  | .string nullable => tagged .string [("nullable", Documented.toTree nullable)]
  | .array element size => tagged .array
      [("elem", toTree element), ("size", Documented.toTree size)]
  | .vector element nullable => tagged .vector
      [("elem", toTree element), ("nullable", Documented.toTree nullable)]
  | .record header members => tagged .record
      [("name", Documented.toTree header.name), ("kind", Documented.toTree header.kind),
        ("fields", .object (membersToTree members)),
        ("nullable", Documented.toTree header.nullable),
        ("resourceness", Documented.toTree header.resourceness),
        ("strictness", Documented.toTree header.strictness)]

/-- The members of the map that declares a record's members. -/
def membersToTree : List (Member Declaration) → List (Option String × Tree)
  | [] => []
  | ⟨name, ordinal, type⟩ :: members =>
    (some name, ofMembers [("ordinal", Documented.toTree ordinal), ("type", toTree type)]) ::
      membersToTree members

end

instance : Documented Declaration where
  ofTree? := ofTree?
  toTree := toTree

end Declaration

end FixtureLiterals
