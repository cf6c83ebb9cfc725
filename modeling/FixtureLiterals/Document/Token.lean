import FixtureLiterals.Document.Quoted

/-!
# Tokens of documents

A document is a sequence of tokens: punctuation, the three literal words, numerals
and quoted texts, with blanks between them. Reading takes the longest token at each
place. It is strict: a numeral has no superfluous zero in front and no point or power of
ten without digits, and only the space, the tab and the two line ends are blanks.
-/

namespace FixtureLiterals.Document

/-- One token of a document. A quoted text may denote nothing. -/
inductive Token where
  | openArray
  | closeArray
  | openObject
  | closeObject
  | comma
  | colon
  | null
  | bool (value : Bool)
  | number (numeral : Text.Numeral)
  | text (content : Option String)
deriving DecidableEq, Repr

/-- A character that may stand between two tokens. -/
def isBlank (character : Char) : Bool :=
  character == ' ' || character == '\t' || character == '\n' || character == '\r'

/-- The digits before the point: a zero alone, or any number that begins otherwise. -/
def wholePart? : List Char → Option (List Char × List Char)
  | [] => none
  | first :: rest =>
    if first = '0' then some (['0'], rest)
    else if first.isDigit then some (first :: rest.takeWhile Char.isDigit, rest.dropWhile Char.isDigit)
    else none

/-- The digits behind a point, if there is one; a point needs at least one digit. -/
def fractionPart? : List Char → Option (List Char × List Char)
  | '.' :: rest =>
    if (rest.takeWhile Char.isDigit).isEmpty then none
    else some (rest.takeWhile Char.isDigit, rest.dropWhile Char.isDigit)
  | characters => some ([], characters)

/-- The sign in front of a power of ten, and what follows it. -/
def exponentSign : List Char → Text.ExponentSign × List Char
  | '+' :: rest => (.plus, rest)
  | '-' :: rest => (.minus, rest)
  | characters => (.omitted, characters)

/-- A power of ten, if there is one; it needs at least one digit. -/
def exponentPart? : List Char → Option (Option Text.Exponent × List Char)
  | [] => some (none, [])
  | first :: rest =>
    if first = 'e' ∨ first = 'E' then
      let (sign, digits) := exponentSign rest
      if (digits.takeWhile Char.isDigit).isEmpty then none
      else some (some ⟨sign, digits.takeWhile Char.isDigit⟩, digits.dropWhile Char.isDigit)
    else some (none, first :: rest)

/-- The numeral without a sign at the front of a text. -/
def unsignedNumeral? (negative : Bool) (characters : List Char) :
    Option (Text.Numeral × List Char) := do
  let (whole, rest) ← wholePart? characters
  let (fraction, rest) ← fractionPart? rest
  let (exponent, rest) ← exponentPart? rest
  return (⟨negative, whole, fraction, exponent⟩, rest)

/-- The numeral at the front of a text. -/
def numeral? : List Char → Option (Text.Numeral × List Char)
  | '-' :: rest => unsignedNumeral? true rest
  | characters => unsignedNumeral? false characters

/-- The token that a character begins. -/
def token? (first : Char) (rest : List Char) : Option (Token × List Char) :=
  match first, rest with
  | '[', _ => some (.openArray, rest)
  | ']', _ => some (.closeArray, rest)
  | '\x7b', _ => some (.openObject, rest)
  | '\x7d', _ => some (.closeObject, rest)
  | ',', _ => some (.comma, rest)
  | ':', _ => some (.colon, rest)
  | 'n', 'u' :: 'l' :: 'l' :: following => some (.null, following)
  | 't', 'r' :: 'u' :: 'e' :: following => some (.bool true, following)
  | 'f', 'a' :: 'l' :: 's' :: 'e' :: following => some (.bool false, following)
  | '"', _ => (quoted? rest).map fun (content, following) => (.text content, following)
  | _, _ => (numeral? (first :: rest)).map fun (numeral, following) => (.number numeral, following)

/-- The digits before the point take at least one character. -/
theorem wholePart?_length {characters whole following : List Char}
    (read : wholePart? characters = some (whole, following)) :
    following.length < characters.length := by
  cases characters with
  | nil => simp [wholePart?] at read
  | cons first rest =>
    have shorter := (List.dropWhile_sublist (p := Char.isDigit) (l := rest)).length_le
    simp only [wholePart?] at read
    split at read
    · obtain ⟨_, rfl⟩ := by simpa using read
      simp
    · split at read
      · obtain ⟨_, rfl⟩ := by simpa using read
        simp only [List.length_cons]
        omega
      · simp at read

/-- What follows a fraction is no longer than the text it was read from. -/
theorem fractionPart?_length {characters fraction following : List Char}
    (read : fractionPart? characters = some (fraction, following)) :
    following.length ≤ characters.length := by
  unfold fractionPart? at read
  split at read
  · rename_i rest
    have shorter := (List.dropWhile_sublist (p := Char.isDigit) (l := rest)).length_le
    split at read
    · simp at read
    · obtain ⟨_, rfl⟩ := by simpa using read
      simp only [List.length_cons]
      omega
  · obtain ⟨_, rfl⟩ := by simpa using read
    exact Nat.le_refl _

/-- What follows the sign of a power of ten is no longer than the text it was read from. -/
theorem exponentSign_length (characters : List Char) :
    (exponentSign characters).2.length ≤ characters.length := by
  unfold exponentSign
  split <;> simp

/-- What follows a power of ten is no longer than the text it was read from. -/
theorem exponentPart?_length {characters following : List Char} {exponent : Option Text.Exponent}
    (read : exponentPart? characters = some (exponent, following)) :
    following.length ≤ characters.length := by
  cases characters with
  | nil =>
    obtain ⟨_, rfl⟩ := by simpa [exponentPart?] using read
    simp
  | cons first rest =>
    have shorter := exponentSign_length rest
    simp only [exponentPart?] at read
    split at read
    · have dropped := (List.dropWhile_sublist (p := Char.isDigit) (l := (exponentSign rest).2)).length_le
      split at read
      · simp at read
      · obtain ⟨_, rfl⟩ := by simpa using read
        simp only [List.length_cons]
        omega
    · obtain ⟨_, rfl⟩ := by simpa using read
      exact Nat.le_refl _

/-- A numeral takes at least one character, which is its first digit. -/
theorem unsignedNumeral?_length {negative : Bool} {characters following : List Char}
    {numeral : Text.Numeral}
    (read : unsignedNumeral? negative characters = some (numeral, following)) :
    following.length < characters.length := by
  simp only [unsignedNumeral?, Option.bind_eq_bind, Option.bind_eq_some_iff] at read
  obtain ⟨⟨whole, afterWhole⟩, wholeRead, ⟨fraction, afterFraction⟩, fractionRead,
    ⟨exponent, afterExponent⟩, exponentRead, same⟩ := read
  simp only [Option.pure_def, Option.some.injEq, Prod.mk.injEq] at same
  have first := wholePart?_length wholeRead
  have second := fractionPart?_length fractionRead
  have third := exponentPart?_length exponentRead
  simp only at second third
  rw [← same.2]
  omega

/-- A numeral with or without a sign takes at least one character. -/
theorem numeral?_length {characters following : List Char} {numeral : Text.Numeral}
    (read : numeral? characters = some (numeral, following)) :
    following.length < characters.length := by
  unfold numeral? at read
  split at read
  · have shorter := unsignedNumeral?_length read
    simp only [List.length_cons]
    omega
  · exact unsignedNumeral?_length read

/-- A token takes at least its first character from the text. -/
theorem token?_length {first : Char} {rest following : List Char} {token : Token}
    (read : token? first rest = some (token, following)) :
    following.length ≤ rest.length := by
  unfold token? at read
  split at read
  case h_10 =>
    obtain ⟨⟨content, tail⟩, found, same⟩ := Option.map_eq_some_iff.mp read
    obtain ⟨_, rfl⟩ := by simpa using same
    exact quoted?_length found
  case h_11 =>
    obtain ⟨⟨numeral, tail⟩, found, same⟩ := Option.map_eq_some_iff.mp read
    obtain ⟨_, rfl⟩ := by simpa using same
    have shorter := numeral?_length found
    simp only [List.length_cons] at shorter
    omega
  case h_7 | h_8 | h_9 =>
    obtain ⟨_, rfl⟩ := by simpa using read
    simp only [List.length_cons]
    omega
  all_goals
    obtain ⟨_, rfl⟩ := by simpa using read
    simp

/-- The characters of a token. -/
def Token.characters : Token → List Char
  | .openArray => ['[']
  | .closeArray => [']']
  | .openObject => ['\x7b']
  | .closeObject => ['\x7d']
  | .comma => [',']
  | .colon => [':']
  | .null => ['n', 'u', 'l', 'l']
  | .bool true => ['t', 'r', 'u', 'e']
  | .bool false => ['f', 'a', 'l', 's', 'e']
  | .number numeral => numeral.characters
  | .text content => quote content

end FixtureLiterals.Document
