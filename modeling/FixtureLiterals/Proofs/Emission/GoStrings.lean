import FixtureLiterals.Proofs.Document.Quoted

/-!
# Go string literals

Go reads an interpreted string literal as bytes. A character stands for its UTF-8 encoding,
and so does the code point that `\u` or `\U` names, but `\x` and three octal digits name one
byte each, which need not be the encoding of anything. The literal ends at the first
quotation mark outside an escape, and its line must not end before that.

The decoder follows all the rules of the language, also those that no written literal makes
use of, so that a literal is decoded by what Go makes of it and not by how it came about. A byte
order mark is a character like any other to the language, though a compiler may refuse one.
-/

namespace FixtureLiterals.Emission.GoString

open Text Document

/-- The number that digits of a base name, the most significant digit first. -/
def number? (base : Nat) (digits : List Char) : Option Nat :=
  digits.foldlM (fun number digit => do
    let value ← hexDigit? digit
    if value < base then some (base * number + value) else none) 0

/-- What exactly so many digits at the start name, and the rest. -/
def numbered? (base width : Nat) (denote : Nat → Option (List UInt8)) (content : List Char) :
    Option (List UInt8 × List Char) := do
  let digits := content.take width
  if digits.length < width then none
  let number ← number? base digits
  let bytes ← denote number
  return (bytes, content.drop width)

/-- A number as one byte. -/
def byte? (number : Nat) : Option (List UInt8) :=
  if number < 256 then some [UInt8.ofNat number] else none

/-- The encoding of a code point. Halves of surrogate pairs are none. -/
def codePoint? (number : Nat) : Option (List UInt8) :=
  if number.isValidChar then some (String.utf8EncodeChar (Char.ofNat number)) else none

/-- The byte that a backslash and a single letter stand for. -/
def letter? : Char → Option UInt8
  | 'a' => some 0x07
  | 'b' => some 0x08
  | 'f' => some 0x0C
  | 'n' => some 0x0A
  | 'r' => some 0x0D
  | 't' => some 0x09
  | 'v' => some 0x0B
  | '\\' => some 0x5C
  | '"' => some 0x22
  | _ => none

/-- The bytes of an escape, from what stands behind its backslash, and the rest. -/
def escape? : List Char → Option (List UInt8 × List Char)
  | [] => none
  | 'x' :: rest => numbered? 16 2 byte? rest
  | 'u' :: rest => numbered? 16 4 codePoint? rest
  | 'U' :: rest => numbered? 16 8 codePoint? rest
  | letter :: rest =>
    match letter? letter with
    | some byte => some ([byte], rest)
    | none => numbered? 8 3 byte? (letter :: rest)

/-- The bytes of the first element of a literal's content, and the rest of it. -/
def element? : List Char → Option (List UInt8 × List Char)
  | [] => none
  | '"' :: _ => none
  | '\n' :: _ => none
  | '\\' :: rest => escape? rest
  | character :: rest => some (String.utf8EncodeChar character, rest)

/-- What digits name leaves a shorter rest. -/
theorem numbered?_length {base width : Nat} {denote : Nat → Option (List UInt8)}
    {content rest : List Char} {bytes : List UInt8}
    (read : numbered? base width denote content = some (bytes, rest)) :
    rest.length ≤ content.length := by
  simp only [numbered?, Option.bind_eq_bind, Option.pure_def] at read
  split at read
  · exact nomatch read
  · simp only [Option.bind_eq_some_iff, Option.some.injEq, Prod.mk.injEq] at read
    obtain ⟨_, _, _, _, _, rfl⟩ := read
    simp

/-- An element is taken off the content. -/
theorem element?_length {content rest : List Char} {bytes : List UInt8}
    (read : element? content = some (bytes, rest)) : rest.length < content.length := by
  unfold element? at read
  split at read
  case h_1 | h_2 | h_3 => exact nomatch read
  case h_4 =>
    refine Nat.lt_succ_of_le ?_
    unfold escape? at read
    split at read
    case h_1 => exact nomatch read
    case h_2 | h_3 | h_4 => exact Nat.le_succ_of_le (numbered?_length read)
    case h_5 letter _ _ _ _ =>
      cases single : letter? letter with
      | some byte =>
        rw [single] at read
        obtain ⟨rfl, rfl⟩ := read
        exact Nat.le_succ _
      | none =>
        rw [single] at read
        exact numbered?_length read
  case h_5 =>
    obtain ⟨rfl, rfl⟩ := read
    exact Nat.lt_succ_self _

/-- The bytes of a literal's content, up to the quotation mark that ends the literal. -/
def content? (content : List Char) : Option (List UInt8) :=
  if content = ['"'] then some []
  else
    match _ : element? content with
    | none => none
    | some (bytes, rest) => (content? rest).map (bytes ++ ·)
termination_by content.length
decreasing_by exact element?_length ‹_›

/-- The bytes that a string literal denotes. -/
def bytes? : List Char → Option (List UInt8)
  | '"' :: content => content? content
  | _ => none

example : bytes? "\"\\xe9\\u00e9\\351\"".toList = some [0xE9, 0xC3, 0xA9, 0xE9] := by cbv

example : bytes? "\"\\ud800\"".toList = none := by cbv

/-- The elements of a literal's content that are of use: a character that stands for itself,
a single letter behind a backslash, two digits of a byte and four of a code point. -/
inductive Element : List Char → Prop where
  | plain {character : Char} (quote : character ≠ '"') (backslash : character ≠ '\\') :
      Element [character]
  | letter {letter : Char} (single : (letter? letter).isSome) : Element ['\\', letter]
  | byte {digits : List Char} (two : digits.length = 2)
      (hexadecimal : ∀ digit ∈ digits, (hexDigit? digit).isSome) : Element ('\\' :: 'x' :: digits)
  | codePoint {digits : List Char} (four : digits.length = 4)
      (hexadecimal : ∀ digit ∈ digits, (hexDigit? digit).isSome) : Element ('\\' :: 'u' :: digits)

/-- An element in front is decoded before what follows it. -/
theorem content?_of_element? {content rest : List Char} {bytes : List UInt8}
    (read : element? content = some (bytes, rest)) :
    content? content = (content? rest).map (bytes ++ ·) := by
  have more : content ≠ ['"'] := by
    rintro rfl
    exact nomatch read
  rw [content?, if_neg more]
  split <;> simp_all

/-- Behind a backslash, an `x` announces one byte. -/
theorem element?_byte (rest : List Char) :
    element? ('\\' :: 'x' :: rest) = numbered? 16 2 byte? rest := rfl

/-- Behind a backslash, a `u` announces a code point. -/
theorem element?_codePoint (rest : List Char) :
    element? ('\\' :: 'u' :: rest) = numbered? 16 4 codePoint? rest := rfl

/-- A character that needs no escape is decoded as its encoding. -/
theorem element?_plain {character : Char} (quote : character ≠ '"') (backslash : character ≠ '\\')
    (newline : character ≠ '\n') (rest : List Char) :
    element? (character :: rest) = some (String.utf8EncodeChar character, rest) := by
  unfold element?
  split <;> simp_all

/-- A hexadecimal digit is below sixteen. -/
theorem hexadecimalDigit_lt {character : Char} (digit : isHexadecimal character = true) :
    hexadecimalDigit character < 16 := by
  have decided : ['0', '1', '2', '3', '4', '5', '6', '7', '8', '9', 'a', 'b', 'c', 'd', 'e', 'f'].all
      (fun digit => decide (hexadecimalDigit digit < 16)) = true := by decide
  exact of_decide_eq_true (List.all_eq_true.mp decided character (of_decide_eq_true digit))

/-- Lower-case hexadecimal digits name the number that they stand for. -/
theorem number?_of_hexadecimal {digits : List Char}
    (hexadecimal : ∀ digit ∈ digits, isHexadecimal digit = true) :
    number? 16 digits = some (hexadecimalValue digits) := by
  unfold number? hexadecimalValue
  generalize 0 = number
  induction digits generalizing number with
  | nil => rfl
  | cons digit digits inductionHypothesis =>
    have listed := hexadecimal digit List.mem_cons_self
    rw [List.foldlM_cons, hexDigit?_of_isHexadecimal listed, Option.bind_eq_bind,
      Option.bind_some, if_pos (hexadecimalDigit_lt listed), Option.bind_some]
    exact inductionHypothesis (fun digit listed => hexadecimal digit (.tail _ listed)) _

/-- Padded hexadecimal digits name their number, and what follows is left over. -/
theorem numbered?_padded {width number : Nat} (positive : 0 < width)
    (bounded : number < 16 ^ width) {denote : Nat → Option (List UInt8)} {bytes : List UInt8}
    (denoted : denote number = some bytes) (rest : List Char) :
    numbered? 16 width denote ((paddedHexadecimal width number).toList ++ rest) =
      some (bytes, rest) := by
  have counted := length_paddedHexadecimal positive bounded
  have named : number? 16 (paddedHexadecimal width number).toList = some number := by
    rw [number?_of_hexadecimal fun _ => isHexadecimal_of_mem_padded, value_paddedHexadecimal]
  simp only [numbered?, List.take_left' counted, List.drop_left' counted, counted, Nat.lt_irrefl,
    if_false, named, denoted, Option.bind_eq_bind, Option.bind_some, Option.pure_def]

/-- A character below U+0080 is encoded in one byte. -/
theorem utf8EncodeChar_ascii {character : Char} (ascii : character.toNat < 0x80) :
    String.utf8EncodeChar character = [UInt8.ofNat character.toNat] := by
  have within : character.val.toNat ≤ 0x7F := Nat.le_of_lt_succ ascii
  simp only [String.utf8EncodeChar, if_pos within]
  rfl

/-- A number below 256 is one byte, and a character below U+0080 is encoded as it. -/
theorem byte?_toNat {character : Char} (ascii : character.toNat < 0x80) :
    byte? character.toNat = some (String.utf8EncodeChar character) := by
  have bounded : character.toNat < 256 := by omega
  rw [byte?, if_pos bounded, utf8EncodeChar_ascii ascii]

/-- A character's code point has the character's encoding. -/
theorem codePoint?_toNat (character : Char) :
    codePoint? character.toNat = some (String.utf8EncodeChar character) := by
  have valid : character.toNat.isValidChar := character.valid
  rw [codePoint?, if_pos valid, Char.ofNat_toNat]

/-- A control character's code has four hexadecimal digits. -/
theorem bounded_of_isControl {character : Char} (control : isControl character = true) :
    character.toNat < 16 ^ 4 := by
  simp only [isControl, decide_eq_true_eq] at control
  omega

/-- Padded digits are hexadecimal digits of the language. -/
theorem isSome_hexDigit?_padded {width number : Nat} :
    ∀ digit ∈ (paddedHexadecimal width number).toList, (hexDigit? digit).isSome := by
  intro digit listed
  rw [hexDigit?_of_isHexadecimal (isHexadecimal_of_mem_padded listed)]
  rfl

/-- An escaped character is one element. -/
theorem element_goEscape (character : Char) : Element (goEscape character) := by
  unfold goEscape
  split
  case h_1 | h_2 | h_3 | h_4 | h_5 => exact .letter rfl
  case h_6 quote backslash _ _ _ =>
    split
    case isTrue ascii =>
      exact .byte (length_paddedHexadecimal (by decide) (Nat.lt_trans ascii.1 (by decide)))
        isSome_hexDigit?_padded
    case isFalse =>
      split
      case isTrue control =>
        exact .codePoint (length_paddedHexadecimal (by decide) (bounded_of_isControl control))
          isSome_hexDigit?_padded
      case isFalse => exact .plain quote backslash

/-- An escaped character is decoded as the character's encoding. -/
theorem element?_goEscape (character : Char) (rest : List Char) :
    element? (goEscape character ++ rest) = some (String.utf8EncodeChar character, rest) := by
  unfold goEscape
  split
  case h_1 | h_2 | h_3 | h_4 | h_5 => rfl
  case h_6 quote backslash newline _ _ =>
    split
    case isTrue ascii =>
      rw [List.append_assoc, List.cons_append, List.cons_append, List.nil_append, element?_byte]
      exact numbered?_padded (by decide) (Nat.lt_trans ascii.1 (by decide)) (byte?_toNat ascii.1) rest
    case isFalse =>
      split
      case isTrue control =>
        rw [List.append_assoc, List.cons_append, List.cons_append, List.nil_append,
          element?_codePoint]
        exact numbered?_padded (by decide) (bounded_of_isControl control)
          (codePoint?_toNat character) rest
      case isFalse => exact element?_plain quote backslash newline rest

/-- A visible character of ASCII, or the space. -/
def isVisible (character : Char) : Bool := decide (0x20 ≤ character.toNat ∧ character.toNat < 0x7F)

/-- Visible characters do not control anything. -/
theorem isControl_of_isVisible {character : Char} (visible : isVisible character = true) :
    isControl character = false := by
  simp only [isVisible, decide_eq_true_eq] at visible
  simp only [isControl, decide_eq_false_iff_not]
  omega

/-- The digits of hexadecimal numbers are visible. -/
theorem isVisible_of_isHexadecimal {digit : Char} (hexadecimal : isHexadecimal digit = true) :
    isVisible digit = true := by
  have decided : ['0', '1', '2', '3', '4', '5', '6', '7', '8', '9', 'a', 'b', 'c', 'd', 'e', 'f'].all
      isVisible = true := by decide
  exact List.all_eq_true.mp decided digit (of_decide_eq_true hexadecimal)

/-- What an escape has is visible, and a character that needs no escape is no control character. -/
theorem isVisible_of_mem_goEscape {character written : Char}
    (listed : written ∈ goEscape character) :
    isVisible written = true ∨ (written = character ∧ isControl character = false) := by
  have announced {letter : Char} {width number : Nat} (visible : isVisible letter = true)
      (listed : written ∈ ['\\', letter] ++ (paddedHexadecimal width number).toList) :
      isVisible written = true := by
    rcases List.mem_append.mp listed with escape | digit
    · rcases List.mem_pair.mp escape with rfl | rfl
      · decide
      · exact visible
    · exact isVisible_of_isHexadecimal (isHexadecimal_of_mem_padded digit)
  unfold goEscape at listed
  split at listed
  case h_1 | h_2 | h_3 | h_4 | h_5 =>
    rcases List.mem_pair.mp listed with rfl | rfl <;> exact .inl (by decide)
  case h_6 =>
    split at listed
    case isTrue => exact .inl (announced (by decide) listed)
    case isFalse =>
      split at listed
      case isTrue => exact .inl (announced (by decide) listed)
      case isFalse harmless =>
        exact .inr ⟨List.mem_singleton.mp listed, Bool.eq_false_iff.mpr harmless⟩

/-- An escaped character has no control characters. -/
theorem isControl_of_mem_goEscape {character written : Char}
    (listed : written ∈ goEscape character) : isControl written = false := by
  rcases isVisible_of_mem_goEscape listed with visible | ⟨rfl, harmless⟩
  · exact isControl_of_isVisible visible
  · exact harmless

/-- An escaped character does not end the line. -/
theorem isOneLine_goEscape {character written : Char} (listed : written ∈ goEscape character) :
    written ≠ '\n' ∧ written ≠ '\r' := by
  have harmless := isControl_of_mem_goEscape listed
  constructor <;> (rintro rfl; exact absurd harmless (by decide))

/-- Escaped characters up to the closing mark are decoded as their encodings. -/
theorem content?_escaped (characters : List Char) :
    content? (characters.flatMap goEscape ++ ['"']) =
      some (characters.flatMap String.utf8EncodeChar) := by
  induction characters with
  | nil => rw [List.flatMap_nil, List.nil_append, content?, if_pos rfl, List.flatMap_nil]
  | cons character characters inductionHypothesis =>
    rw [List.flatMap_cons, List.append_assoc, content?_of_element? (element?_goEscape _ _),
      inductionHypothesis, Option.map_some, List.flatMap_cons]

/-- The bytes of a text are the encodings of its characters. -/
theorem flatMap_utf8EncodeChar (text : String) :
    text.toList.flatMap String.utf8EncodeChar = text.toUTF8.data.toList := by
  rw [String.toUTF8_eq_toByteArray, ← String.utf8Encode_toList, List.utf8Encode,
    List.data_toByteArray]

/-- A literal is one string literal of a text: elements stand between its quotation marks, none of
which is a quotation mark by itself, the line does not end before the literal, and the literal is
decoded as the text's UTF-8 encoding. -/
structure Denotes (literal text : String) : Prop where
  elements : ∃ elements : List (List Char), literal.toList = '"' :: elements.flatten ++ ['"'] ∧
    ∀ element ∈ elements, Element element
  oneLine : ∀ character ∈ literal.toList, character ≠ '\n' ∧ character ≠ '\r'
  bytes : bytes? literal.toList = some text.toUTF8.data.toList

/-- A literal denotes one text at most. -/
theorem Denotes.unique {literal first second : String} (denotes : Denotes literal first)
    (denoted : Denotes literal second) : first = second := by
  have same : first.toUTF8.data.toList = second.toUTF8.data.toList :=
    Option.some.inj (denotes.bytes.symm.trans denoted.bytes)
  exact String.toByteArray_inj.mp (ByteArray.ext (Array.toList_inj.mp same))

/-- A quoted text denotes the text. -/
theorem denotes_goQuoted (text : String) : Denotes (goQuoted text) text where
  elements := by
    refine ⟨text.toList.map goEscape, ?_, ?_⟩
    · rw [goQuoted, quoted, String.toList_ofList, List.flatMap]
    · intro element listed
      obtain ⟨character, -, rfl⟩ := List.mem_map.mp listed
      exact element_goEscape character
  oneLine := by
    intro written listed
    rw [goQuoted, quoted, String.toList_ofList] at listed
    rcases List.mem_append.mp listed with content | closing
    · rcases List.mem_cons.mp content with rfl | content
      · decide
      · obtain ⟨character, -, escaped⟩ := List.mem_flatMap.mp content
        exact isOneLine_goEscape escaped
    · obtain rfl := List.mem_singleton.mp closing
      decide
  bytes := by
    rw [goQuoted, quoted, String.toList_ofList, List.cons_append, bytes?, content?_escaped,
      flatMap_utf8EncodeChar]

/-- Every text is written as a Go string literal of exactly that text, so that different texts
are written differently. -/
theorem goQuoted_exact (text : String) :
    Denotes (goQuoted text) text ∧ ∀ other, goQuoted other = goQuoted text → other = text := by
  refine ⟨denotes_goQuoted text, fun other same => ?_⟩
  have denoted := denotes_goQuoted other
  rw [same] at denoted
  exact denoted.unique (denotes_goQuoted text)

end FixtureLiterals.Emission.GoString
