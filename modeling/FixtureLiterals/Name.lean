import FixtureLiterals.Text.Casing

/-!
# Schema-qualified names

A qualified name is a path of segments divided by `/`: the scopes, which name a
library, and last the leaf, which names a type. A name is usable only if each of its
segments holds an ASCII letter or digit, so that no casing can reduce a segment to
nothing. A target writes the name segment by segment, each in the casing that the
target prescribes for its place, and keeps clear of its own reserved words.
-/

namespace FixtureLiterals

/-- Why a text is no qualified name. -/
inductive NameFault where
  | empty
  | emptySegment (name : String)
deriving DecidableEq, Repr

/-- The wording of a name's fault. -/
def NameFault.message : NameFault → String
  | .empty => "empty qualified name"
  | .emptySegment name => "empty segment in qualified name `" ++ name ++ "`"

/-- A parsed qualified name. -/
structure QualifiedName where
  scopes : List String
  leaf : String
deriving DecidableEq, Repr

namespace QualifiedName

/-- The delimiter between two segments of a written name. -/
def delimiter : Char := '/'

/-- A segment that every casing turns into a nonempty identifier. -/
def isUsable (segment : List Char) : Bool := segment.any Char.isAlphanum

/-- The segments of a written name, in order. -/
def segments (name : String) : List (List Char) := name.toList.splitOn delimiter

/-- Read a written name. The empty text is told apart from a name with an unusable
segment. -/
def parse (name : String) : Except NameFault QualifiedName :=
  if name.isEmpty then .error .empty
  else if (segments name).all isUsable then
    match (segments name).getLast? with
    | some leaf => .ok ⟨(segments name).dropLast.map String.ofList, String.ofList leaf⟩
    | none => .error (.emptySegment name)
  else .error (.emptySegment name)

end QualifiedName

/-- How a target writes qualified names. -/
structure NameStyle where
  /-- The text between two written segments. -/
  separator : String
  scopeCasing : Text.Casing
  leafCasing : Text.Casing
  /-- Words that the target does not accept as identifiers. -/
  reserved : List String
deriving Repr

/-- An identifier that avoids the reserved words: one that collides gets a trailing
underscore. -/
def avoidReserved (reserved : List String) (identifier : String) : String :=
  if identifier ∈ reserved then identifier ++ "_" else identifier

namespace NameStyle

/-- One segment as an identifier of the target. -/
def segment (style : NameStyle) (casing : Text.Casing) (text : String) : String :=
  avoidReserved style.reserved (casing.apply text)

/-- The written segments of a name, scopes first. -/
def parts (style : NameStyle) (name : QualifiedName) : List String :=
  name.scopes.map (style.segment style.scopeCasing) ++ [style.segment style.leafCasing name.leaf]

end NameStyle

/-- A name as the target's qualified identifier. -/
def QualifiedName.render (style : NameStyle) (name : QualifiedName) : String :=
  style.separator.intercalate (style.parts name)

/-- A written name as the target's qualified identifier. -/
def NameStyle.identifier (style : NameStyle) (name : String) : Except NameFault String :=
  (QualifiedName.parse name).map (QualifiedName.render style)

end FixtureLiterals
