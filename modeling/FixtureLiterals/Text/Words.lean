/-!
# The words of an identifier

A schema spells its names in many ways: `my_struct`, `my-struct`, `my.struct`,
`myStruct`, `MyStruct`. Every spelling is read as the same list of words. A text is
cut at each separator, which belongs to no word, and also just before a hump: an
upper-case letter that begins a new word although no separator announces it.
Acronyms stay whole, so `HTTPServer` has the words `HTTP` and `Server`.

Letters are the ASCII ones throughout. A character outside ASCII is an ordinary
part of a word: it neither begins nor prevents a hump.
-/

namespace FixtureLiterals.Text

/-- A separator divides two words and belongs to neither. -/
def isSeparator (character : Char) : Bool :=
  character == '_' || character == '-' || character == '.' || character == ' '

/-- Whether a hump begins right after `previous`, at the head of `rest`. An
upper-case letter begins one after a lower-case letter or a digit, and at the end of
an acronym, where the letter after it is lower-case. -/
def humpFollows (previous : Char) (rest : List Char) : Bool :=
  match rest with
  | [] => false
  | next :: following =>
    next.isUpper &&
      (previous.isLower || previous.isDigit ||
        (previous.isUpper && following.head?.any Char.isLower))

/-- Put a character in front of the first piece. -/
def extendFirst (character : Char) : List (List Char) → List (List Char)
  | [] => [[character]]
  | piece :: pieces => (character :: piece) :: pieces

/-- All pieces between cuts, the empty ones included. There is always at least one
piece, and two adjacent separators leave an empty piece between them. -/
def pieces : List Char → List (List Char)
  | [] => [[]]
  | character :: rest =>
    if isSeparator character then [] :: pieces rest
    else if humpFollows character rest then [character] :: pieces rest
    else extendFirst character (pieces rest)

/-- The words of a text, in order: its pieces without the empty ones. -/
def words (characters : List Char) : List (List Char) :=
  (pieces characters).filter (fun piece => !piece.isEmpty)

end FixtureLiterals.Text
