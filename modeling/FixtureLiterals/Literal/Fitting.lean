import FixtureLiterals.Failure
import FixtureLiterals.Literal.Basic

/-!
# Fitting values to declarations

Fitting walks through a value and its declaration in step and decides everything that
can be wrong with the pair: the shape of the value, absent values, ranges of numbers,
handle indices, the fields of records and where unknown ones may stand, and whether the
surroundings can spell a handle at all. The first fault found ends the walk.

A declaration is turned into a fitter, which is a function on values. The fitter of a
list or a record is made of the fitters of its parts, so each shape's rules can be
stated apart from the recursion.
-/

namespace FixtureLiterals

/-- What fitting asks of its surroundings. -/
structure Environment where
  target : Target
  /-- The handle subtypes that the target can spell. -/
  supports : HandleSubtype → Bool
  /-- The number of entries in the handle table. -/
  handleCount : Nat

/-- Fits values to one declaration. -/
abbrev Fitter := Value → Except Failure Literal

namespace Environment

/-- A handle subtype that the target can spell. -/
def checkSubtype (environment : Environment) (subtype : HandleSubtype) : Except Failure Unit :=
  if environment.supports subtype then .ok ()
  else fail (.unsupportedHandle subtype environment.target)

/-- An index of an entry in the handle table. -/
def checkIndex (environment : Environment) (index : UInt64) : Except Failure Unit :=
  if index.toNat < environment.handleCount then .ok ()
  else fail (.handleOutOfRange index environment.handleCount)

end Environment

/-- The parsed name of a declaration. -/
def QualifiedName.ofDeclared (name : String) : Except Failure QualifiedName :=
  match QualifiedName.parse name with
  | .ok parsed => .ok parsed
  | .error fault => fail (.malformedName fault)

/-- The spelled type of a declaration. -/
def TypeReference.ofDeclaration (environment : Environment) :
    Declaration → Except Failure TypeReference
  | .primitive subtype => return .primitive subtype
  | .bits scalar | .enumeration scalar => return .named (← QualifiedName.ofDeclared scalar.name) false
  | .handle subtype _ nullable => do
    environment.checkSubtype subtype
    return .handle subtype nullable
  | .string nullable => return .string nullable
  | .array element size => return .array (← ofDeclaration environment element) size
  | .vector element nullable => return .vector (← ofDeclaration environment element) nullable
  | .record header _ => return .named (← QualifiedName.ofDeclared header.name) header.nullable

namespace Literal

/-- A value of a kind that its declaration does not ask for. -/
def mismatch {α : Type} (declaration : Declaration) (value : Value) : Except Failure α :=
  fail (.kindMismatch value.kindName declaration.describe)

/-- Whether a subtype holds an integer, by the check for the sign that it is written in. -/
def holdsInteger (subtype : Primitive) : Integer → Bool
  | .signed number => subtype.holdsSigned number
  | .unsigned number => subtype.holdsUnsigned number

/-- An integer in the range of a subtype. -/
def fitInteger (declaration : Declaration) (subtype : Primitive) (value : Value) :
    Except Failure Integer :=
  match value with
  | .integer number =>
    if holdsInteger subtype number then .ok number
    else fail (.integerOutOfRange number declaration.describe)
  | _ => mismatch declaration value

/-- Whether a bit pattern has the width of a float subtype. -/
def fitsWidth (pattern : RawFloat) (subtype : Primitive) : Bool :=
  match pattern.width, subtype with
  | .f32, .float32 => decide (pattern.bits.toNat < UInt32.size)
  | .f64, .float64 => true
  | _, _ => false

/-- A value of a primitive type. -/
def fitPrimitive (subtype : Primitive) : Fitter := fun value =>
  let declaration : Declaration := .primitive subtype
  match value with
  | .bool content =>
    if subtype = .bool then .ok (.bool content) else mismatch declaration value
  | .integer _ =>
    if subtype.isInteger then
      return .integer (← fitInteger declaration subtype value) subtype
    else mismatch declaration value
  | .float number =>
    if subtype.isFloat then
      if subtype = .float32 && number.exceedsFloat32 then fail (.floatOutOfRange number subtype)
      else .ok (.float number subtype)
    else mismatch declaration value
  | .rawFloat pattern =>
    if subtype.isFloat then
      if fitsWidth pattern subtype then .ok (.floatBits pattern.bits subtype)
      else fail (.rawFloatMismatch pattern subtype)
    else mismatch declaration value
  | _ => mismatch declaration value

/-- A value of a named scalar. The name is looked at before the value. -/
def fitScalar (declaration : Declaration) (scalar : NamedScalar)
    (build : QualifiedName → Integer → Literal) : Fitter := fun value => do
  let name ← QualifiedName.ofDeclared scalar.name
  let number ← fitInteger declaration scalar.subtype value
  return build name number

/-- A reference to a handle. The index is looked at before the subtype. -/
def fitHandle (environment : Environment) (declaration : Declaration) (subtype : HandleSubtype) :
    Fitter := fun value =>
  match value with
  | .handle reference => do
    environment.checkIndex reference.index
    environment.checkSubtype subtype
    return .handle reference.index subtype reference.rights
  | _ => mismatch declaration value

/-- A string. -/
def fitString (declaration : Declaration) (nullable : Bool) : Fitter := fun value =>
  match value with
  | .string content => .ok (.string content nullable)
  | _ => mismatch declaration value

/-- The items of a list, the first one at position `position`. -/
def fitItems (fitItem : Fitter) (position : Nat) : List Value → Except Failure (List Literal)
  | [] => .ok []
  | item :: items => do
    let first ← within (.index position) (fitItem item)
    let others ← fitItems fitItem (position + 1) items
    return first :: others

/-- The items of a list under the spelled type of the list, which is looked at first. -/
def fitList (environment : Environment) (declaration : Declaration) (fitItem : Fitter)
    (items : List Value) : Except Failure Literal := do
  let type ← TypeReference.ofDeclaration environment declaration
  return .list type (← fitItems fitItem 0 items)

/-- An array, which has a fixed number of items. -/
def fitArray (environment : Environment) (declaration : Declaration) (size : UInt64)
    (fitItem : Fitter) : Fitter := fun value =>
  match value with
  | .list items =>
    if items.length = size.toNat then fitList environment declaration fitItem items
    else fail (.elementCount items.length declaration.describe)
  | _ => mismatch declaration value

/-- A vector, which has any number of items. -/
def fitVector (environment : Environment) (declaration : Declaration) (fitItem : Fitter) : Fitter :=
  fun value =>
    match value with
    | .list items => fitList environment declaration fitItem items
    | _ => mismatch declaration value

/-- The content of a field with an unknown ordinal. -/
def fitUnknownData {α : Type} (environment : Environment) (header : RecordHeader)
    (members : List (Member α)) (ordinal : UInt64) (value : Value) : Except Failure UnknownData :=
  if !header.isExtensible then fail (.notExtensible ordinal header)
  else
    match Member.ofOrdinal? members ordinal with
    | some member => fail (.declaredOrdinal ordinal member.name header.name)
    | none =>
      match value with
      | .unknownData data =>
        if !data.handles.isEmpty && !header.isResource then fail (.handlesOnValueType header.name)
        else do
          data.handles.forM environment.checkIndex
          return data
      | _ => fail (.unknownFieldKind value.kindName)

/-- The values of the named fields of a struct or table, the latest first. Each name has
to be declared and must not repeat one of those already in `known`. -/
def knownFields {α : Type} (header : RecordHeader) (members : List (Member α))
    (known : List (String × Value)) : List (Field Value) → Except Failure (List (String × Value))
  | [] => .ok known
  | ⟨.unknown _, _⟩ :: fields => knownFields header members known fields
  | ⟨.declared name, value⟩ :: fields => do
    if (Member.named? members name).isNone then
      within (.field name) (fail (.undeclaredField header))
    else if (known.lookup name).isSome then
      within (.field name) (fail (.repeatedField name))
    else knownFields header members ((name, value) :: known) fields

/-- The first unknown ordinal among the fields of a record. -/
def firstUnknownOrdinal? (fields : List (Field Value)) : Option UInt64 :=
  fields.findSome? fun field =>
    match field.key with
    | .unknown ordinal => some ordinal
    | .declared _ => none

/-- The value of a declared member. -/
def fitMember (member : Member Fitter) (value : Value) : Except Failure (String × Literal) := do
  return (member.name, ← within (.field member.name) (member.content value))

/-- A struct, in which every declared member is present and no other. -/
def fitStruct (header : RecordHeader) (members : List (Member Fitter))
    (fields : List (Field Value)) : Except Failure Literal :=
  match firstUnknownOrdinal? fields with
  | some ordinal => within (.unknownOrdinal ordinal) (fail (.notExtensible ordinal header))
  | none => do
    let known ← knownFields header members [] fields
    let fitted ← members.mapM fun member =>
      match known.lookup member.name with
      | some value => fitMember member value
      | none => fail (.missingField header.name member.name)
    return .struct (← QualifiedName.ofDeclared header.name) header.nullable fitted

/-- A union, of which exactly one member is active. -/
def fitUnion (environment : Environment) (header : RecordHeader) (members : List (Member Fitter))
    (fields : List (Field Value)) : Except Failure Literal :=
  match fields with
  | [⟨.declared name, value⟩] =>
    match Member.named? members name with
    | some member => do
      let fitted ← within (.field name) (member.content value)
      return .union (← QualifiedName.ofDeclared header.name) header.nullable member.name
        member.ordinal fitted
    | none => within (.field name) (fail (.undeclaredField header))
  | [⟨.unknown ordinal, value⟩] => do
    let data ← within (.unknownOrdinal ordinal)
      (fitUnknownData environment header members ordinal value)
    return .unknownUnion (← QualifiedName.ofDeclared header.name) header.nullable ordinal data
  | _ => fail (.unionFieldCount fields.length)

/-- The unknown fields of a table. An ordinal must not repeat one of those in `seen`. -/
def fitUnknownFields {α : Type} (environment : Environment) (header : RecordHeader)
    (members : List (Member α)) (seen : List UInt64) :
    List (Field Value) → Except Failure (List (UInt64 × UnknownData))
  | [] => .ok []
  | ⟨.declared _, _⟩ :: fields => fitUnknownFields environment header members seen fields
  | ⟨.unknown ordinal, value⟩ :: fields => do
    let data ← within (.unknownOrdinal ordinal)
      (if ordinal ∈ seen then fail (.repeatedOrdinal ordinal)
      else fitUnknownData environment header members ordinal value)
    let others ← fitUnknownFields environment header members (ordinal :: seen) fields
    return (ordinal, data) :: others

/-- The declared members of a table that are present; a null counts as absent. -/
def presentMembers {α : Type} (members : List (Member α)) (known : List (String × Value)) :
    List (Member α × Value) :=
  members.filterMap fun member =>
    match known.lookup member.name with
    | some value => if value.isNull then none else some (member, value)
    | none => none

/-- A table, of which any members may be present. -/
def fitTable (environment : Environment) (header : RecordHeader) (members : List (Member Fitter))
    (fields : List (Field Value)) : Except Failure Literal := do
  let known ← knownFields header members [] fields
  let unknown ← fitUnknownFields environment header members [] fields
  let fitted ← (presentMembers members known).mapM fun (member, value) => fitMember member value
  return .table (← QualifiedName.ofDeclared header.name) header.nullable fitted unknown

/-- A record of any shape. -/
def fitRecord (environment : Environment) (declaration : Declaration) (header : RecordHeader)
    (members : List (Member Fitter)) : Fitter := fun value =>
  match value with
  | .record fields =>
    match header.kind with
    | .struct => fitStruct header members fields
    | .union => fitUnion environment header members fields
    | .table => fitTable environment header members fields
  | _ => mismatch declaration value

/-- The absent value, which a nullable declaration accepts. An absent handle has to be
spelled, and so its subtype has to be one that the target can spell. -/
def fitNull (environment : Environment) (declaration : Declaration) : Except Failure Literal :=
  if !declaration.isNullable then fail (.nullForbidden declaration.describe)
  else
    match declaration with
    | .handle subtype _ _ => do
      environment.checkSubtype subtype
      return .invalidHandle subtype
    | _ => .ok .null

/-- Settle the values that every declaration treats alike before its own rules apply. -/
def fitPresent (environment : Environment) (declaration : Declaration) (fitter : Fitter) : Fitter :=
  fun value =>
    match value with
    | .null => fitNull environment declaration
    | .unknownData _ => fail (.strayUnknownData declaration.describe)
    | _ => fitter value

mutual

/-- Fit a value to a declaration. -/
def fit (environment : Environment) : Declaration → Fitter
  | .primitive subtype =>
    fitPresent environment (.primitive subtype) (fitPrimitive subtype)
  | .bits scalar =>
    fitPresent environment (.bits scalar) (fitScalar (.bits scalar) scalar .bits)
  | .enumeration scalar =>
    fitPresent environment (.enumeration scalar) (fitScalar (.enumeration scalar) scalar .enumeration)
  | .handle subtype rights nullable =>
    fitPresent environment (.handle subtype rights nullable)
      (fitHandle environment (.handle subtype rights nullable) subtype)
  | .string nullable =>
    fitPresent environment (.string nullable) (fitString (.string nullable) nullable)
  | .array element size =>
    fitPresent environment (.array element size)
      (fitArray environment (.array element size) size (fun item => fit environment element item))
  | .vector element nullable =>
    fitPresent environment (.vector element nullable)
      (fitVector environment (.vector element nullable) (fun item => fit environment element item))
  | .record header members =>
    fitPresent environment (.record header members)
      (fitRecord environment (.record header members) header (fitters environment members))

/-- The members of a record, each with the fitter of its declaration. -/
def fitters (environment : Environment) : List (Member Declaration) → List (Member Fitter)
  | [] => []
  | ⟨name, ordinal, declaration⟩ :: members =>
    ⟨name, ordinal, fun value => fit environment declaration value⟩ :: fitters environment members

end

/-- Each member of a record is fitted by the fitter of its own declaration, and keeps its
name and ordinal. -/
theorem fitters_eq_map (environment : Environment) (members : List (Member Declaration)) :
    fitters environment members = members.map (Member.map (fit environment)) := by
  induction members with
  | nil => simp [fitters]
  | cons member members inductionHypothesis =>
    obtain ⟨name, ordinal, declaration⟩ := member
    simp [fitters, inductionHypothesis, Member.map]

end Literal

end FixtureLiterals
