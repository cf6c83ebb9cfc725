import FixtureLiterals.Text.Extending
import FixtureLiterals.Text.Numeral

/-!
# String literals of the targets

Each target has a quoted form in which any text can be written on one line. Both escape
the quotation mark, the backslash and the line ends. Go escapes the control characters
and leaves every other character as it is. Rust also escapes what has no visible form of
its own: the unprintable characters, and those that would merge with the character in
front of them.
-/

namespace FixtureLiterals.Emission

/-- One character inside a Go string literal. -/
def goEscape (character : Char) : List Char :=
  match character with
  | '"' => ['\\', '"']
  | '\\' => ['\\', '\\']
  | '\n' => ['\\', 'n']
  | '\r' => ['\\', 'r']
  | '\t' => ['\\', 't']
  | _ =>
    if character.toNat < 0x80 ∧ Text.isControl character then
      ['\\', 'x'] ++ (Text.paddedHexadecimal 2 character.toNat).toList
    else if Text.isControl character then
      ['\\', 'u'] ++ (Text.paddedHexadecimal 4 character.toNat).toList
    else [character]

/-- One character inside a Rust string literal. -/
def rustEscape (character : Char) : List Char :=
  match character with
  | '\x00' => ['\\', '0']
  | '\t' => ['\\', 't']
  | '\r' => ['\\', 'r']
  | '\n' => ['\\', 'n']
  | '"' => ['\\', '"']
  | '\\' => ['\\', '\\']
  | _ =>
    if Text.isExtending character || Text.isUnprintable character then
      ['\\', 'u', '\x7b'] ++ (Text.hexadecimal character.toNat).toList ++ ['\x7d']
    else [character]

/-- A text between quotation marks, each character escaped on its own. -/
def quoted (escape : Char → List Char) (text : String) : String :=
  String.ofList ('"' :: text.toList.flatMap escape ++ ['"'])

/-- A text as a Go string literal. -/
def goQuoted (text : String) : String := quoted goEscape text

/-- A text as a Rust string literal. -/
def rustQuoted (text : String) : String := quoted rustEscape text

end FixtureLiterals.Emission
