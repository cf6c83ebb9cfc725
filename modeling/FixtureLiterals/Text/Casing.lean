import FixtureLiterals.Text.Words

/-!
# Identifier casings

Three conventions write a list of words as one identifier: `UpperCamel`,
`lowerCamel` and `snake_case`. Each is a function of the words alone, so the
spelling that a schema happened to use is forgotten.
-/

namespace FixtureLiterals.Text

/-- Every ASCII letter of a word in lower case. -/
def lowered (word : List Char) : List Char := word.map Char.toLower

/-- A word with its first letter in upper case and all others in lower case. -/
def capitalized : List Char → List Char
  | [] => []
  | first :: others => first.toUpper :: lowered others

/-- Words run together, each one capitalized. -/
def upperCamel (characters : List Char) : List Char :=
  ((words characters).map capitalized).flatten

/-- Words run together, each one but the first capitalized. -/
def lowerCamel (characters : List Char) : List Char :=
  match words characters with
  | [] => []
  | first :: others => lowered first ++ (others.map capitalized).flatten

/-- Words in lower case, joined by underscores. -/
def snake (characters : List Char) : List Char :=
  ['_'].intercalate ((words characters).map lowered)

/-- The casings that a target may ask for. -/
inductive Casing where
  | upperCamel
  | lowerCamel
  | snake
deriving DecidableEq, Repr

/-- An identifier's text in a casing. -/
def Casing.apply (casing : Casing) (text : String) : String :=
  String.ofList <|
    match casing with
    | .upperCamel => Text.upperCamel text.toList
    | .lowerCamel => Text.lowerCamel text.toList
    | .snake => Text.snake text.toList

end FixtureLiterals.Text
