import FixtureLiterals.Emission.Block
import FixtureLiterals.Emission.Identifiers
import FixtureLiterals.Failure

/-!
# Bytes and handles around a literal

Beside the literal itself a fixture needs the definitions of its handles, the bytes that
are expected and the handles that an encoded message is expected to move. The raw
content of an unknown field consists of bytes and handles too. A target can create
only some of the subtypes that it can hold, so the definitions may fail, at the first
entry that cannot be created.
-/

namespace FixtureLiterals

open Emission

namespace GoWriter

/-- One of the created handles. -/
def handleAt (writer : GoWriter) (index : UInt64) : String :=
  writer.handlesVariable ++ "[" ++ Text.decimal index.toNat ++ "]"

/-- Bytes as a slice. -/
def bytes (writer : GoWriter) (bytes : List UInt8) : String :=
  byteBlock writer.bytesPerLine "[]byte\x7b" bytes "\x7d"

/-- A literal of a composite type. -/
def composite (type : String) (items : List String) : String := block (type ++ "\x7b") items "\x7d"

/-- The object type constants of the subtypes that a test can create. -/
def creatable? : HandleSubtype → Option String
  | .channel => some "ObjectTypeChannel"
  | .event => some "ObjectTypeEvent"
  | _ => none

/-- The definitions from position `position` on, each announced by a comment. -/
def definitionLines (writer : GoWriter) (position : Nat) :
    List HandleDefinition → Except Failure (List String)
  | [] => .ok []
  | definition :: definitions =>
    match creatable? definition.subtype with
    | none => .error ⟨.unsupportedHandle definition.subtype .go, .handleDefinition position⟩
    | some objectType => do
      let others ← writer.definitionLines (position + 1) definitions
      return ("// #" ++ Text.decimal position ++ ":\n\x7bsubtype: " ++ writer.kernelPackage ++ "." ++
        objectType ++ ", rights: " ++ Text.decimal definition.rights.bits.toNat ++ "\x7d") :: others

/-- The definitions of a handle table. An empty table is written as an empty string. -/
def handleDefinitions (writer : GoWriter) (handles : HandleTable) : Except Failure String :=
  if handles.isEmpty then .ok "\"\""
  else do
    return composite "[]handleDef" (← writer.definitionLines 0 handles)

/-- A handle of an unknown field, with the type and rights of its definition. -/
def handleInfo (writer : GoWriter) (index : UInt64) : String :=
  let definition := writer.definitionsVariable ++ "[" ++ Text.decimal index.toNat ++ "]"
  "\x7bHandle: " ++ writer.handleAt index ++ ", Type: " ++ definition ++ ".subtype, Rights: " ++
    definition ++ ".rights\x7d"

/-- The handles of an unknown field. -/
def handleInfos (writer : GoWriter) (handles : List UInt64) : String :=
  if handles.isEmpty then "nil"
  else composite ("[]" ++ writer.kernelPackage ++ ".HandleInfo") (handles.map writer.handleInfo)

/-- The content of an unknown field. -/
def unknownData (writer : GoWriter) (data : UnknownData) : String :=
  composite (writer.runtimePackage ++ ".UnknownData")
    ["Bytes: " ++ writer.bytes data.bytes, "Handles: " ++ writer.handleInfos data.handles]

/-- A handle that is expected to move, with its object type and rights. -/
def disposition (writer : GoWriter) (disposition : HandleDisposition) : String :=
  composite "" [
    "Operation: " ++ writer.kernelPackage ++ ".HandleOpMove",
    "Handle: " ++ writer.handleAt disposition.handle,
    "Type: " ++ Text.decimal disposition.subtype.objectType.toNat,
    "Rights: " ++ Text.decimal disposition.rights.bits.toNat,
    "Result: " ++ writer.kernelPackage ++ ".ErrOk"]

/-- The handles that are expected to move. -/
def dispositions (writer : GoWriter) (dispositions : List HandleDisposition) : String :=
  if dispositions.isEmpty then "nil"
  else composite ("[]" ++ writer.kernelPackage ++ ".HandleDisposition")
    (dispositions.map writer.disposition)

end GoWriter

namespace RustWriter

/-- A copy of one of the created handles. -/
def copyHandle (writer : RustWriter) (index : UInt64) : String :=
  "copy_handle(&" ++ writer.handlesVariable ++ "[" ++ Text.decimal index.toNat ++ "])"

/-- Rights by their bits. -/
def rights (rights : Rights) : String :=
  "Rights::from_bits_retain(" ++ Text.decimal rights.bits.toNat ++ ")"

/-- Bytes as a slice. -/
def bytes (writer : RustWriter) (bytes : List UInt8) : String :=
  byteBlock writer.bytesPerLine "&[" bytes "]"

/-- Whether a test can create a handle of a subtype. The untyped handle stands for no
kernel object, so there is nothing to create. -/
def isCreatable (subtype : HandleSubtype) : Bool :=
  subtype != .handle && supportsHandle subtype

/-- The definitions from position `position` on. -/
def definitionLines (position : Nat) : List HandleDefinition → Except Failure (List String)
  | [] => .ok []
  | definition :: definitions =>
    if isCreatable definition.subtype then do
      let others ← definitionLines (position + 1) definitions
      return ("HandleDef \x7b subtype: " ++ objectType definition.subtype ++ ", rights: " ++
        rights definition.rights ++ " \x7d") :: others
    else .error ⟨.unsupportedHandle definition.subtype .rust, .handleDefinition position⟩

/-- The definitions of a handle table. -/
def handleDefinitions (handles : HandleTable) : Except Failure String := do
  return block "&[" (← definitionLines 0 handles) "]"

/-- A handle of an unknown field, with the type and rights of its definition. -/
def handleInfo (writer : RustWriter) (index : UInt64) : String :=
  let definition := writer.definitionsVariable ++ "[" ++ Text.decimal index.toNat ++ "]"
  "HandleInfo::new(" ++ writer.copyHandle index ++ ", " ++ definition ++ ".subtype, " ++
    definition ++ ".rights)"

/-- The content of an unknown field. -/
def unknownData (writer : RustWriter) (data : UnknownData) : String :=
  block "UnknownData \x7b" [
    "bytes: " ++ byteBlock writer.bytesPerLine "vec![" data.bytes "]",
    "handles: " ++ block "vec![" (data.handles.map writer.handleInfo) "]"] "\x7d"

/-- A handle that is expected to move, with its object type and rights. -/
def disposition (writer : RustWriter) (disposition : HandleDisposition) : String :=
  block "HandleDisposition \x7b" [
    "handle_op: HandleOp::Move(" ++ writer.copyHandle disposition.handle ++ ")",
    "object_type: " ++ objectType disposition.subtype,
    "rights: " ++ rights disposition.rights,
    "result: Status::OK"] "\x7d"

/-- The handles that are expected to move. -/
def dispositions (writer : RustWriter) (dispositions : List HandleDisposition) : String :=
  block "vec![" (dispositions.map writer.disposition) "]"

end RustWriter

end FixtureLiterals
