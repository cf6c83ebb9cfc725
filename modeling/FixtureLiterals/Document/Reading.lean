import FixtureLiterals.Binary64.Layout
import FixtureLiterals.Document.Tree
import FixtureLiterals.Text.Vocabulary

/-!
# Reading documents by type

What a part of a document must look like depends on the type that is read from it. A
structure is an object of its members, or an array of them in their fixed order.
Members that a structure does not declare are passed over unread, so whatever is in
them is irrelevant; a declared member must not be repeated. A map is an object in
which the last value of a repeated key counts. A word of a closed vocabulary is a
text, or an object with that word as its only key and nothing behind it.

Where the type of a part only follows from a later one, the part is set aside. It
must then be sound as a whole, and some of its words may be spelled more loosely.
Readers are given the number of containers that may still be opened below the place
where they stand; this also is what their recursion descends on.
-/

namespace FixtureLiterals.Document

/-- Whether a part is read where it stands, or was set aside before its type was
known. -/
inductive Reading where
  | immediate
  | deferred
deriving DecidableEq, Repr

/-- The greatest number of containers that may be open at once. -/
def nestingLimit : Nat := 127

/-- A type with a form in documents. A reader is given how many containers it may
still open. -/
class Documented (α : Type) where
  ofTree? : Nat → Reading → Tree → Option α
  toTree : α → Tree

/-- Read a whole document. -/
def read? {α : Type} [Documented α] (text : String) : Option α := do
  let tree ← Tree.parse? text
  Documented.ofTree? nestingLimit .immediate tree

/-- Write a whole document. -/
def write {α : Type} [Documented α] (content : α) : String :=
  (Documented.toTree content).compact

/-- The integer of a number. -/
def integer? : Tree → Option Int
  | .number numeral => numeral.integer?
  | _ => none

/-- The integer of a number below a bound, not negative. -/
def natural? (bound : Nat) (tree : Tree) : Option Nat := do
  let number ← integer? tree
  if 0 ≤ number ∧ number < bound then some number.toNat else none

/-- The document of an integer. -/
def ofInteger (number : Int) : Tree := .number (Text.Numeral.ofInt number)

instance : Documented Bool where
  ofTree? _ _
    | .bool value => some value
    | _ => none
  toTree := .bool

instance : Documented String where
  ofTree? _ _
    | .text content => content
    | _ => none
  toTree content := .text (some content)

instance : Documented UInt8 where
  ofTree? _ _ tree := (natural? UInt8.size tree).map UInt8.ofNat
  toTree number := ofInteger number.toNat

instance : Documented UInt32 where
  ofTree? _ _ tree := (natural? UInt32.size tree).map UInt32.ofNat
  toTree number := ofInteger number.toNat

instance : Documented UInt64 where
  ofTree? _ _ tree := (natural? UInt64.size tree).map UInt64.ofNat
  toTree number := ofInteger number.toNat

instance : Documented Int64 where
  ofTree? _ _ tree := do
    let number ← integer? tree
    if -0x8000000000000000 ≤ number ∧ number < 0x8000000000000000 then some (Int64.ofInt number) else none
  toTree number := ofInteger number.toInt

/-- A float may be written as an integer, but only a finite one can be written. -/
instance : Documented Binary64 where
  ofTree? _ _
    | .number numeral => Tree.numeralFloat? numeral
    | _ => none
  toTree float :=
    if float.isFinite then .number (Binary64.numeral Binary64.documentLayout float) else .null

/-- An optional part may be present and null. -/
instance {α : Type} [Documented α] : Documented (Option α) where
  ofTree? depth reading
    | .null => some none
    | tree => (Documented.ofTree? depth reading tree).map some
  toTree
    | none => .null
    | some content => Documented.toTree content

/-- The items of an array, each read one level further down. -/
def items? {α : Type} (readItem : Nat → Tree → Option α) : Nat → Tree → Option (List α)
  | depth + 1, .array items => items.mapM (readItem depth)
  | _, _ => none

instance {α : Type} [Documented α] : Documented (List α) where
  ofTree? depth reading tree := items? (fun depth => Documented.ofTree? depth reading) depth tree
  toTree items := .array (items.map Documented.toTree)

/-- Whether a part says nothing, as is required behind a word that is a key. -/
def isEmptyContent : Reading → Tree → Bool
  | _, .null => true
  | .deferred, .object [] => true
  | _, _ => false

/-- The text of a word. -/
def word? : Nat → Reading → Tree → Option String
  | _, _, .text content => content
  | _ + 1, reading, .object [(some key, content)] =>
    if isEmptyContent reading content then some key else none
  | _, _, _ => none

/-- A member of a vocabulary is documented by its word. -/
instance {α : Type} [Text.Vocabulary α] : Documented α where
  ofTree? depth reading tree := (word? depth reading tree).bind Text.Vocabulary.ofWord?
  toTree member := .text (some (Text.Vocabulary.word member))

/-- The declared members of a structure that are present, with their contents. -/
abbrev Members := List (String × Tree)

/-- The members of an object, all of whose keys must denote texts. -/
def keyed? (members : List (Option String × Tree)) : Option Members :=
  members.mapM fun (key, content) => key.map fun name => (name, content)

/-- The members of a structure that are among the declared ones. -/
def members? (names : List String) : Tree → Option Members
  | .array items => if items.length ≤ names.length then some (names.zip items) else none
  | .object members => do
    let declared := (← keyed? members).filter fun member => names.contains member.1
    if (declared.map Prod.fst).Nodup then some declared else none
  | _ => none

namespace Members

/-- A member that has to be present. -/
def required {α : Type} (members : Members) (name : String) (readMember : Tree → Option α) :
    Option α :=
  (members.lookup name).bind readMember

/-- A member that stands for a default where it is left out. -/
def withDefault {α : Type} (members : Members) (name : String) (default : α)
    (readMember : Tree → Option α) : Option α :=
  match members.lookup name with
  | none => some default
  | some content => readMember content

end Members

/-- Put a named entry in its place: in that of an entry with the same name, or behind
all others. -/
def putEntry {α : Type} (entries : List (String × α)) (entry : String × α) : List (String × α) :=
  if entries.any (fun other => other.1 == entry.1) then
    entries.map fun other => if other.1 == entry.1 then entry else other
  else entries ++ [entry]

/-- The entries of a map. The last value of a repeated key counts, in the place of the
first. -/
def entries? {α : Type} (readValue : Nat → Tree → Option α) :
    Nat → Tree → Option (List (String × α))
  | depth + 1, .object members => do
    let entries ← members.mapM fun (key, content) => do
      return (← key, ← readValue depth content)
    return entries.foldl putEntry []
  | _, _ => none

/-- The document of a map. -/
def ofEntries {α : Type} (writeValue : α → Tree) (entries : List (String × α)) : Tree :=
  .object (entries.map fun (name, value) => (some name, writeValue value))

/-- The document of a structure. -/
def ofMembers (members : Members) : Tree :=
  .object (members.map fun (name, content) => (some name, content))

end FixtureLiterals.Document
