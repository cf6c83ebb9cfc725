import FixtureLiterals.Text.Numeral

/-!
# Quoted texts of documents

A document writes a text between quotation marks. Inside, a backslash begins an
escape, and a character below U+0020 never stands for itself. An escape may name
one half of a surrogate pair; two halves that follow each other make one character, and a
half on its own makes none. A quoted text with such a half is well written, but it
denotes nothing, so it may only stand where nobody reads it.
-/

namespace FixtureLiterals.Document

/-- One written element of a quoted text: a character, or the sixteen-bit unit that
an escape names. -/
inductive Element where
  | character (character : Char)
  | unit (unit : Nat)
deriving DecidableEq, Repr

/-- The value of a hexadecimal digit of either case. -/
def hexDigit? (character : Char) : Option Nat :=
  if character.isDigit then some (character.toNat - '0'.toNat)
  else if 'a' ≤ character ∧ character ≤ 'f' then some (character.toNat - 'a'.toNat + 10)
  else if 'A' ≤ character ∧ character ≤ 'F' then some (character.toNat - 'A'.toNat + 10)
  else none

/-- The unit that four hexadecimal digits name. -/
def unit? (first second third fourth : Char) : Option Nat := do
  return 4096 * (← hexDigit? first) + 256 * (← hexDigit? second) +
    16 * (← hexDigit? third) + (← hexDigit? fourth)

/-- The character that a backslash and a letter stand for. -/
def escaped? : Char → Option Char
  | '"' => some '"'
  | '\\' => some '\\'
  | '/' => some '/'
  | 'b' => some '\x08'
  | 'f' => some '\x0c'
  | 'n' => some '\n'
  | 'r' => some '\r'
  | 't' => some '\t'
  | _ => none

/-- The elements up to the closing quotation mark, and what follows it. -/
def elements? : List Char → Option (List Element × List Char)
  | [] => none
  | '"' :: rest => some ([], rest)
  | '\\' :: 'u' :: first :: second :: third :: fourth :: rest => do
    let unit ← unit? first second third fourth
    let (others, following) ← elements? rest
    return (.unit unit :: others, following)
  | '\\' :: letter :: rest => do
    let character ← escaped? letter
    let (others, following) ← elements? rest
    return (.character character :: others, following)
  | character :: rest =>
    if character < ' ' then none
    else do
      let (others, following) ← elements? rest
      return (.character character :: others, following)

/-- Whether a unit is the first half of a surrogate pair. -/
def isHighSurrogate (unit : Nat) : Bool := decide (0xD800 ≤ unit ∧ unit < 0xDC00)

/-- Whether a unit is the second half of a surrogate pair. -/
def isLowSurrogate (unit : Nat) : Bool := decide (0xDC00 ≤ unit ∧ unit < 0xE000)

/-- The characters that a list of elements denotes, unless a half is left alone. -/
def denoted? : List Element → Option (List Char)
  | [] => some []
  | .character character :: rest => (denoted? rest).map (character :: ·)
  | .unit high :: .unit low :: rest =>
    if isHighSurrogate high then
      if isLowSurrogate low then
        (denoted? rest).map (Char.ofNat (0x10000 + 1024 * (high - 0xD800) + (low - 0xDC00)) :: ·)
      else none
    else if isLowSurrogate high then none
    else (denoted? (.unit low :: rest)).map (Char.ofNat high :: ·)
  | .unit unit :: rest =>
    if isHighSurrogate unit || isLowSurrogate unit then none
    else (denoted? rest).map (Char.ofNat unit :: ·)

/-- Read a quoted text behind its opening mark. The outer option tells whether it is
well written, the inner one whether it denotes a text. -/
def quoted? (characters : List Char) : Option (Option String × List Char) := do
  let (elements, following) ← elements? characters
  return ((denoted? elements).map String.ofList, following)

/-- What follows the elements is no longer than the text they were read from. Every
case but the first two takes at least one character. -/
theorem elements?_length {characters following : List Char} {elements : List Element}
    (read : elements? characters = some (elements, following)) :
    following.length ≤ characters.length := by
  fun_induction elements? characters generalizing elements following with
  | case1 => simp at read
  | case2 rest =>
    obtain ⟨_, rfl⟩ := by simpa using read
    simp
  | case3 first second third fourth rest inductionHypothesis =>
    simp only [Option.bind_eq_bind, Option.bind_eq_some_iff] at read
    obtain ⟨unit, _, ⟨others, tail⟩, remaining, same⟩ := read
    have shorter := inductionHypothesis remaining
    simp only [Option.pure_def, Option.some.injEq, Prod.mk.injEq] at same
    simp only [List.length_cons, ← same.2]
    omega
  | case4 letter rest _ inductionHypothesis =>
    simp only [Option.bind_eq_bind, Option.bind_eq_some_iff] at read
    obtain ⟨character, _, ⟨others, tail⟩, remaining, same⟩ := read
    have shorter := inductionHypothesis remaining
    simp only [Option.pure_def, Option.some.injEq, Prod.mk.injEq] at same
    simp only [List.length_cons, ← same.2]
    omega
  | case5 => simp at read
  | case6 character rest _ _ _ _ inductionHypothesis =>
    simp only [Option.bind_eq_bind, Option.bind_eq_some_iff] at read
    obtain ⟨⟨others, tail⟩, remaining, same⟩ := read
    have shorter := inductionHypothesis remaining
    simp only [Option.pure_def, Option.some.injEq, Prod.mk.injEq] at same
    simp only [List.length_cons, ← same.2]
    omega

/-- What follows a quoted text is no longer than what followed its opening mark. -/
theorem quoted?_length {characters following : List Char} {content : Option String}
    (read : quoted? characters = some (content, following)) :
    following.length ≤ characters.length := by
  simp only [quoted?, Option.bind_eq_bind, Option.bind_eq_some_iff] at read
  obtain ⟨⟨elements, tail⟩, found, same⟩ := read
  simp only [Option.pure_def, Option.some.injEq, Prod.mk.injEq] at same
  exact same.2 ▸ elements?_length found

/-- The written form of one character inside quotation marks. Only the marks, the
backslash and the characters below U+0020 are escaped. -/
def escape (character : Char) : List Char :=
  match character with
  | '"' => ['\\', '"']
  | '\\' => ['\\', '\\']
  | '\x08' => ['\\', 'b']
  | '\x0c' => ['\\', 'f']
  | '\n' => ['\\', 'n']
  | '\r' => ['\\', 'r']
  | '\t' => ['\\', 't']
  | _ =>
    if character < ' ' then
      ['\\', 'u'] ++ (Text.paddedHexadecimal 4 character.toNat).toList
    else [character]

/-- A text between quotation marks. What denotes no text is written as a half of a
surrogate pair. -/
def quote : Option String → List Char
  | some content => '"' :: content.toList.flatMap escape ++ ['"']
  | none => ['"', '\\', 'u', 'd', '8', '0', '0', '"']

end FixtureLiterals.Document
