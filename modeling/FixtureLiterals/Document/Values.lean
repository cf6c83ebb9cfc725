import FixtureLiterals.Document.Handles
import FixtureLiterals.Value

/-!
# Values in documents

A value is a structure of two members: `kind`, a word, and `value`, the content that
the kind asks for. Where the content stands before the kind it is set aside, and so is
everything in it. A null value needs no content, but a null is accepted in its place.
-/

namespace FixtureLiterals

open Document

/-- The kinds of values. -/
inductive ValueKind where
  | bool
  | int
  | uint
  | float64
  | rawFloat
  | string
  | handle
  | record
  | list
  | unknownData
  | null
deriving DecidableEq, Repr

/-- The document's word for a kind. -/
def ValueKind.word : ValueKind → String
  | .bool => "bool"
  | .int => "int"
  | .uint => "uint"
  | .float64 => "float64"
  | .rawFloat => "raw_float"
  | .string => "string"
  | .handle => "handle"
  | .record => "record"
  | .list => "list"
  | .unknownData => "unknown_data"
  | .null => "null"

instance : Text.Vocabulary ValueKind where
  all := [.bool, .int, .uint, .float64, .rawFloat, .string, .handle, .record, .list,
    .unknownData, .null]
  word := ValueKind.word
  mem_all := by intro member; cases member <;> decide
  distinct := by decide

instance : Documented RawFloat where
  ofTree?
    | 0, _, _ => none
    | depth + 1, reading, tree => do
      let members ← members? ["width", "bits"] tree
      return {
        width := ← members.required "width" (Documented.ofTree? depth reading)
        bits := ← members.required "bits" (Documented.ofTree? depth reading)
      }
  toTree float := ofMembers [
    ("width", Documented.toTree float.width),
    ("bits", Documented.toTree float.bits)]

instance : Documented HandleReference where
  ofTree?
    | 0, _, _ => none
    | depth + 1, reading, tree => do
      let members ← members? ["index", "rights"] tree
      return {
        index := ← members.required "index" (Documented.ofTree? depth reading)
        rights := ← members.withDefault "rights" none (Documented.ofTree? depth reading)
      }
  toTree reference := ofMembers [
    ("index", Documented.toTree reference.index),
    ("rights", Documented.toTree reference.rights)]

instance : Documented UnknownData where
  ofTree?
    | 0, _, _ => none
    | depth + 1, reading, tree => do
      let members ← members? ["bytes", "handles"] tree
      return {
        bytes := ← members.required "bytes" (Documented.ofTree? depth reading)
        handles := ← members.withDefault "handles" [] (Documented.ofTree? depth reading)
      }
  toTree data := ofMembers [
    ("bytes", Documented.toTree data.bytes),
    ("handles", Documented.toTree data.handles)]

/-- A key is an object with a single member, whose name tells the two sorts apart. -/
instance : Documented FieldKey where
  ofTree?
    | depth + 1, reading, .object [(some sort, content)] =>
      match sort with
      | "name" => (Documented.ofTree? depth reading content).map FieldKey.declared
      | "unknown_ordinal" => (Documented.ofTree? depth reading content).map FieldKey.unknown
      | _ => none
    | _, _, _ => none
  toTree
    | .declared name => ofMembers [("name", Documented.toTree name)]
    | .unknown ordinal => ofMembers [("unknown_ordinal", Documented.toTree ordinal)]

namespace Value

/-- Whether the content of a value stands before its kind. -/
def contentFirst : Tree → Bool
  | .object members =>
    match members.find? (fun member => member.1 == some "kind" || member.1 == some "value") with
    | some (key, _) => key == some "value"
    | none => false
  | _ => false

/-- The kind of a value, its content where there is one, and how the content is to be
read. An array needs both parts. -/
def parts? (depth : Nat) (reading : Reading) (tree : Tree) :
    Option (ValueKind × Option Tree × Reading) := do
  let members ← members? ["kind", "value"] tree
  let kind ← members.required "kind" (Documented.ofTree? depth reading)
  match tree, members.lookup "value" with
  | .array _, none => none
  | _, none => return (kind, none, reading)
  | _, some content =>
    if reading = .immediate && contentFirst tree then
      if content.isSound depth then return (kind, some content, .deferred) else none
    else return (kind, some content, reading)

mutual

/-- The value of a part of a document. -/
def ofTree? : Nat → Reading → Tree → Option Value
  | 0, _, _ => none
  | depth + 1, reading, tree => do
    let (kind, content, reading) ← parts? depth reading tree
    match kind, content with
    | .bool, some content => return .bool (← Documented.ofTree? depth reading content)
    | .int, some content => return .integer (.signed (← Documented.ofTree? depth reading content))
    | .uint, some content =>
      return .integer (.unsigned (← Documented.ofTree? depth reading content))
    | .float64, some content => return .float (← Documented.ofTree? depth reading content)
    | .rawFloat, some content => return .rawFloat (← Documented.ofTree? depth reading content)
    | .string, some content => return .string (← Documented.ofTree? depth reading content)
    | .handle, some content => return .handle (← Documented.ofTree? depth reading content)
    | .record, some content => return .record (← recordOfTree? depth reading content)
    | .list, some content => return .list (← itemsOfTree? depth reading content)
    | .unknownData, some content => return .unknownData (← Documented.ofTree? depth reading content)
    | .null, none => return .null
    | .null, some .null => return .null
    | _, _ => none

/-- The items of a list. -/
def itemsOfTree? : Nat → Reading → Tree → Option (List Value)
  | 0, _, _ => none
  | depth + 1, reading, .array items => items.mapM (ofTree? depth reading)
  | _, _, _ => none

/-- The fields of a record, which is a structure of a single member. -/
def recordOfTree? : Nat → Reading → Tree → Option (List (Field Value))
  | 0, _, _ => none
  | depth + 1, reading, tree => do
    let members ← members? ["fields"] tree
    members.required "fields" (fieldsOfTree? depth reading)

/-- The fields in the array of a record's fields. -/
def fieldsOfTree? : Nat → Reading → Tree → Option (List (Field Value))
  | 0, _, _ => none
  | depth + 1, reading, .array items => items.mapM (fieldOfTree? depth reading)
  | _, _, _ => none

/-- One field of a record. -/
def fieldOfTree? : Nat → Reading → Tree → Option (Field Value)
  | 0, _, _ => none
  | depth + 1, reading, tree => do
    let members ← members? ["key", "value"] tree
    return {
      key := ← members.required "key" (Documented.ofTree? depth reading)
      value := ← members.required "value" (ofTree? depth reading)
    }

end

/-- The document of a value with its kind in front. -/
def tagged (kind : ValueKind) (content : Tree) : Tree :=
  ofMembers [("kind", Documented.toTree kind), ("value", content)]

/-- The document of a record, from the documents of its fields. -/
def ofFieldTrees (fields : List Tree) : Tree := ofMembers [("fields", .array fields)]

mutual

/-- The document of a value. -/
def toTree : Value → Tree
  | .bool value => tagged .bool (Documented.toTree value)
  | .integer (.signed number) => tagged .int (Documented.toTree number)
  | .integer (.unsigned number) => tagged .uint (Documented.toTree number)
  | .float value => tagged .float64 (Documented.toTree value)
  | .rawFloat value => tagged .rawFloat (Documented.toTree value)
  | .string value => tagged .string (Documented.toTree value)
  | .handle reference => tagged .handle (Documented.toTree reference)
  | .record fields => tagged .record (ofFieldTrees (fieldsToTree fields))
  | .list items => tagged .list (.array (itemsToTree items))
  | .unknownData data => tagged .unknownData (Documented.toTree data)
  | .null => ofMembers [("kind", Documented.toTree ValueKind.null)]

/-- The documents of a list's items. -/
def itemsToTree : List Value → List Tree
  | [] => []
  | item :: items => toTree item :: itemsToTree items

/-- The documents of a record's fields. -/
def fieldsToTree : List (Field Value) → List Tree
  | [] => []
  | ⟨key, value⟩ :: fields =>
    ofMembers [("key", Documented.toTree key), ("value", toTree value)] :: fieldsToTree fields

end

instance : Documented Value where
  ofTree? := ofTree?
  toTree := toTree

instance : Documented (Field Value) where
  ofTree? := fieldOfTree?
  toTree
    | ⟨key, value⟩ => ofMembers [("key", Documented.toTree key), ("value", toTree value)]

/-- The document of a record by itself. -/
def recordToTree (fields : List (Field Value)) : Tree := ofFieldTrees (fieldsToTree fields)

end Value

end FixtureLiterals
