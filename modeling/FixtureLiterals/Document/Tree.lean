import FixtureLiterals.Binary64.Nearest
import FixtureLiterals.Document.Token

/-!
# Document trees

A document is a tree of literals, numbers, texts, arrays and objects. Objects keep
their members in order, and keep all of them: what a repeated key means depends on who
reads the object.

The tree is built while the tokens arrive. The state between two tokens holds the
containers that are still open, innermost first, and what may come next. No
recursion follows the nesting of the document, so its depth is not limited here; a
limit that depends on what the parts are for is set by their readers.
-/

namespace FixtureLiterals.Document

/-- A document, or a part of one. A text or key that denotes nothing is absent. -/
inductive Tree where
  | null
  | bool (value : Bool)
  | number (numeral : Text.Numeral)
  | text (content : Option String)
  | array (items : List Tree)
  | object (members : List (Option String × Tree))

/-- A container that is still open: what it holds so far, the latest first, and in an
object also the key whose value is awaited. -/
inductive Frame where
  | array (items : List Tree)
  | object (members : List (Option String × Tree)) (key : Option String)

/-- What may come next. -/
inductive Progress where
  /-- A value. -/
  | awaitValue (frames : List Frame)
  /-- A value or the end of an array that was just opened. -/
  | awaitItem (frames : List Frame)
  /-- A key or the end of an object that was just opened. -/
  | awaitFirstKey (frames : List Frame)
  /-- A key, after a comma in an object. -/
  | awaitKey (members : List (Option String × Tree)) (frames : List Frame)
  /-- The colon after a key. -/
  | awaitColon (members : List (Option String × Tree)) (key : Option String) (frames : List Frame)
  /-- A comma or the end of the innermost container, after a complete value. -/
  | complete (tree : Tree) (frames : List Frame)

namespace Progress

/-- Begin a value inside the open containers. -/
def begin (frames : List Frame) : Token → Option Progress
  | .null => some (.complete .null frames)
  | .bool value => some (.complete (.bool value) frames)
  | .number numeral => some (.complete (.number numeral) frames)
  | .text content => some (.complete (.text content) frames)
  | .openArray => some (.awaitItem frames)
  | .openObject => some (.awaitFirstKey frames)
  | _ => none

/-- Take one token, if it may come next. -/
def step (progress : Progress) (token : Token) : Option Progress :=
  match progress, token with
  | .awaitValue frames, _ => begin frames token
  | .awaitItem frames, .closeArray => some (.complete (.array []) frames)
  | .awaitItem frames, _ => begin (.array [] :: frames) token
  | .awaitFirstKey frames, .closeObject => some (.complete (.object []) frames)
  | .awaitFirstKey frames, .text key => some (.awaitColon [] key frames)
  | .awaitKey members frames, .text key => some (.awaitColon members key frames)
  | .awaitColon members key frames, .colon => some (.awaitValue (.object members key :: frames))
  | .complete tree (.array items :: frames), .comma =>
    some (.awaitValue (.array (tree :: items) :: frames))
  | .complete tree (.array items :: frames), .closeArray =>
    some (.complete (.array (tree :: items).reverse) frames)
  | .complete tree (.object members key :: frames), .comma =>
    some (.awaitKey ((key, tree) :: members) frames)
  | .complete tree (.object members key :: frames), .closeObject =>
    some (.complete (.object ((key, tree) :: members).reverse) frames)
  | _, _ => none

/-- The whole tree, once a value is complete and no container is open. -/
def finished? : Progress → Option Tree
  | .complete tree [] => some tree
  | _ => none

/-- Take all tokens of a text. -/
def advance (progress : Progress) (characters : List Char) : Option Progress :=
  match characters with
  | [] => some progress
  | first :: rest =>
    if isBlank first then advance progress rest
    else
      match _ : token? first rest with
      | none => none
      | some (token, following) =>
        match step progress token with
        | none => none
        | some next => advance next following
termination_by characters.length
decreasing_by
  · simp
  · have shorter := token?_length ‹token? first rest = some (token, following)›
    simp only [List.length_cons]
    omega

end Progress

namespace Tree

/-- The tree of a document's text. -/
def parse? (text : String) : Option Tree :=
  ((Progress.awaitValue []).advance text.toList).bind Progress.finished?

/-- The float that a numeral stands for, rounded to the nearest. A number beyond the
finite floats stands for none. -/
def numeralFloat? (numeral : Text.Numeral) : Option Binary64 :=
  Binary64.ofDecimal? numeral.negative numeral.significand numeral.scale

mutual

/-- Whether a part can be set aside to be read later: all its texts denote something,
all its numbers are in range, and its containers nest at most `depth` deep. -/
def isSound (depth : Nat) : Tree → Bool
  | .null | .bool _ => true
  | .number numeral => (numeralFloat? numeral).isSome
  | .text content => content.isSome
  | .array items => decide (0 < depth) && itemsSound (depth - 1) items
  | .object members => decide (0 < depth) && membersSound (depth - 1) members

/-- Whether every item of an array can be set aside. -/
def itemsSound (depth : Nat) : List Tree → Bool
  | [] => true
  | item :: items => isSound depth item && itemsSound depth items

/-- Whether every key and value of an object can be set aside. -/
def membersSound (depth : Nat) : List (Option String × Tree) → Bool
  | [] => true
  | (key, value) :: members => key.isSome && isSound depth value && membersSound depth members

end

mutual

/-- The tokens of a document. -/
def tokens : Tree → List Token
  | .null => [.null]
  | .bool value => [.bool value]
  | .number numeral => [.number numeral]
  | .text content => [.text content]
  | .array [] => [.openArray, .closeArray]
  | .array (item :: items) => .openArray :: tokens item ++ laterItems items
  | .object [] => [.openObject, .closeObject]
  | .object ((key, value) :: members) =>
    .openObject :: .text key :: .colon :: tokens value ++ laterMembers members

/-- The tokens behind an item of an array. -/
def laterItems : List Tree → List Token
  | [] => [.closeArray]
  | item :: items => .comma :: tokens item ++ laterItems items

/-- The tokens behind a member of an object. -/
def laterMembers : List (Option String × Tree) → List Token
  | [] => [.closeObject]
  | (key, value) :: members =>
    .comma :: .text key :: .colon :: tokens value ++ laterMembers members

end

/-- The text of a document, with no blank in it. -/
def compact (tree : Tree) : String :=
  String.ofList (tree.tokens.flatMap Token.characters)

end Tree

end FixtureLiterals.Document
