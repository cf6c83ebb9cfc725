import FixtureLiterals.Emission.Quoted
import FixtureLiterals.Proofs.Text.Revealing
import Mathlib.Algebra.Group.Nat.Defs

/-!
# Reading string literals

Each target reads its string literals character by character, where a backslash announces
an escape. Reading what was written gives back the character and leaves the rest alone. Since
no escape starts with a quotation mark, the quotation mark behind the last one ends the
literal, and the literal reveals its text.
-/

namespace FixtureLiterals.Emission

open Text

/-- The hexadecimal digits of a number below `16 ^ width`, padded, are as many as the width. -/
theorem length_paddedHexadecimal {width number : Nat} (positive : 0 < width)
    (bounded : number < 16 ^ width) : (paddedHexadecimal width number).toList.length = width := by
  have short : (Nat.toDigits 16 number).length ≤ width :=
    (Nat.length_toDigits_le_iff (by decide) positive).mpr bounded
  rw [paddedHexadecimal, String.toList_ofList, List.leftpad, List.length_append,
    List.length_replicate]
  omega

/-- Padded hexadecimal digits stand for their number. -/
theorem value_paddedHexadecimal (width number : Nat) :
    hexadecimalValue (paddedHexadecimal width number).toList = number := by
  rw [paddedHexadecimal, String.toList_ofList, hexadecimalValue_leftpad, hexadecimalValue_toDigits]

/-- The first character of a Go string literal's content, and the rest of it. -/
def goCharacter? : List Char → Option (Char × List Char)
  | [] => none
  | '\\' :: '"' :: rest => some ('"', rest)
  | '\\' :: '\\' :: rest => some ('\\', rest)
  | '\\' :: 'n' :: rest => some ('\n', rest)
  | '\\' :: 'r' :: rest => some ('\r', rest)
  | '\\' :: 't' :: rest => some ('\t', rest)
  | '\\' :: 'x' :: rest => some (Char.ofNat (hexadecimalValue (rest.take 2)), rest.drop 2)
  | '\\' :: 'u' :: rest => some (Char.ofNat (hexadecimalValue (rest.take 4)), rest.drop 4)
  | '\\' :: _ => none
  | character :: rest => some (character, rest)

/-- The first character of a Rust string literal's content, and the rest of it. -/
def rustCharacter? : List Char → Option (Char × List Char)
  | [] => none
  | '\\' :: '0' :: rest => some ('\x00', rest)
  | '\\' :: 't' :: rest => some ('\t', rest)
  | '\\' :: 'r' :: rest => some ('\r', rest)
  | '\\' :: 'n' :: rest => some ('\n', rest)
  | '\\' :: '"' :: rest => some ('"', rest)
  | '\\' :: '\\' :: rest => some ('\\', rest)
  | '\\' :: 'u' :: '\x7b' :: rest =>
    some (Char.ofNat (hexadecimalValue (rest.takeWhile isHexadecimal)),
      (rest.dropWhile isHexadecimal).drop 1)
  | '\\' :: _ => none
  | character :: rest => some (character, rest)

/-- A character that is no backslash stands for itself in Go. -/
theorem goCharacter?_plain {character : Char} (plain : character ≠ '\\') (rest : List Char) :
    goCharacter? (character :: rest) = some (character, rest) := by
  unfold goCharacter?
  split <;> simp_all

/-- A character that is no backslash stands for itself in Rust. -/
theorem rustCharacter?_plain {character : Char} (plain : character ≠ '\\') (rest : List Char) :
    rustCharacter? (character :: rest) = some (character, rest) := by
  unfold rustCharacter?
  split <;> simp_all

/-- Fixed-width digits of a character's code are read as the character. -/
theorem ofNat_padded (character : Char) {width : Nat} (positive : 0 < width)
    (bounded : character.toNat < 16 ^ width) (rest : List Char) :
    Char.ofNat (hexadecimalValue
        (((paddedHexadecimal width character.toNat).toList ++ rest).take width)) = character ∧
      ((paddedHexadecimal width character.toNat).toList ++ rest).drop width = rest := by
  have counted := length_paddedHexadecimal positive bounded
  constructor
  · rw [List.take_left' counted, value_paddedHexadecimal, Char.ofNat_toNat]
  · exact List.drop_left' counted

/-- Go reads an escaped character as the character. -/
theorem goCharacter?_goEscape (character : Char) (rest : List Char) :
    goCharacter? (goEscape character ++ rest) = some (character, rest) := by
  unfold goEscape
  split
  case h_1 | h_2 | h_3 | h_4 | h_5 => simp only [List.cons_append, List.nil_append, goCharacter?]
  case h_6 quote backslash newline carriageReturn tab =>
    split
    case isTrue ascii =>
      have bounded : character.toNat < 16 ^ 2 := by omega
      obtain ⟨read, left⟩ := ofNat_padded character (by decide) bounded rest
      simp only [List.cons_append, List.nil_append, goCharacter?, read, left]
    case isFalse =>
      split
      case isTrue control =>
        have bounded : character.toNat < 16 ^ 4 := by
          simp only [isControl, decide_eq_true_eq] at control
          omega
        obtain ⟨read, left⟩ := ofNat_padded character (by decide) bounded rest
        simp only [List.cons_append, List.nil_append, goCharacter?, read, left]
      case isFalse => exact goCharacter?_plain backslash rest

/-- Rust reads an escaped character as the character. -/
theorem rustCharacter?_rustEscape (character : Char) (rest : List Char) :
    rustCharacter? (rustEscape character ++ rest) = some (character, rest) := by
  unfold rustEscape
  split
  case h_1 | h_2 | h_3 | h_4 | h_5 | h_6 =>
    simp only [List.cons_append, List.nil_append, rustCharacter?]
  case h_7 null tab carriageReturn newline quote backslash =>
    split
    case isTrue invisible =>
      have digits : ∀ digit ∈ Nat.toDigits 16 character.toNat, isHexadecimal digit = true :=
        fun _ => isHexadecimal_of_mem_toDigits
      have closing : isHexadecimal '\x7d' = false := by decide
      have taken : (Nat.toDigits 16 character.toNat ++ '\x7d' :: rest).takeWhile isHexadecimal =
          Nat.toDigits 16 character.toNat := by
        rw [List.takeWhile_append_of_pos digits, List.takeWhile_cons_of_neg (by simp [closing]),
          List.append_nil]
      have dropped : (Nat.toDigits 16 character.toNat ++ '\x7d' :: rest).dropWhile isHexadecimal =
          '\x7d' :: rest := by
        rw [List.dropWhile_append_of_pos digits, List.dropWhile_cons_of_neg (by simp [closing])]
      simp only [hexadecimal, String.toList_ofList, List.append_assoc, List.cons_append,
        List.nil_append, rustCharacter?, taken, dropped, hexadecimalValue_toDigits,
        Char.ofNat_toNat, List.drop_succ_cons, List.drop_zero]
    case isFalse => exact rustCharacter?_plain backslash rest

/-- An escape that a target reads back, and that does not look like the end of the literal. -/
structure Escaping (escape : Char → List Char) (read : List Char → Option (Char × List Char)) :
    Prop where
  readsBack : ∀ character rest, read (escape character ++ rest) = some (character, rest)
  opens : ∀ character, Apart (escape character) ['"']

/-- Texts that are read back reveal what is read. -/
theorem Escaping.reveals {escape : Char → List Char} {read : List Char → Option (Char × List Char)}
    (escaping : Escaping escape read) (first second : Char) :
    Reveals Anything (escape first) (escape second) (first = second) := by
  intro rest other _ _ same
  have read := escaping.readsBack first rest
  rw [same, escaping.readsBack] at read
  obtain ⟨rfl, rfl⟩ := Prod.mk.inj (Option.some.inj read)
  exact ⟨rfl, rfl⟩

/-- A quoted text reveals the text, whatever stands behind it. -/
theorem Escaping.reveals_quoted {escape : Char → List Char}
    {read : List Char → Option (Char × List Char)} (escaping : Escaping escape read)
    (first second : String) :
    Reveals Anything (quoted escape first).toList (quoted escape second).toList
      (first = second) := by
  have characters : Reveals (Begins ['"']) (first.toList.flatMap escape)
      (second.toList.flatMap escape) (List.Forall₂ Eq first.toList second.toList) := by
    refine reveals_flatMap (fun left _ right _ => escaping.reveals left right) ?_
    rintro character - rest tail ⟨others, rfl⟩
    exact escaping.opens character tail others
  rw [quoted, quoted, String.toList_ofList, String.toList_ofList]
  refine ((characters.closed ['"'] fun rest => ⟨rest, rfl⟩).prefixed ['"']).imp fun same => ?_
  rw [List.forall₂_eq_eq_eq] at same
  exact String.toList_inj.mp same

/-- Go's escapes are read back. -/
theorem goEscaping : Escaping goEscape goCharacter? where
  readsBack := goCharacter?_goEscape
  opens := by
    intro character
    unfold goEscape
    split
    case h_1 | h_2 | h_3 | h_4 | h_5 => exact Apart.of_heads (by decide) _ _
    case h_6 quote _ _ _ _ =>
      split
      case isTrue => exact Apart.of_heads (by decide) _ _
      case isFalse =>
        split
        case isTrue => exact Apart.of_heads (by decide) _ _
        case isFalse => exact Apart.of_heads quote _ _

/-- Rust's escapes are read back. -/
theorem rustEscaping : Escaping rustEscape rustCharacter? where
  readsBack := rustCharacter?_rustEscape
  opens := by
    intro character
    unfold rustEscape
    split
    case h_1 | h_2 | h_3 | h_4 | h_5 | h_6 => exact Apart.of_heads (by decide) _ _
    case h_7 quote _ =>
      split
      case isTrue => exact Apart.of_heads (by decide) _ _
      case isFalse => exact Apart.of_heads quote _ _

/-- A Go string literal reveals its text. -/
theorem reveals_goQuoted (first second : String) :
    Reveals Anything (goQuoted first).toList (goQuoted second).toList (first = second) :=
  goEscaping.reveals_quoted first second

/-- A Rust string literal reveals its text. -/
theorem reveals_rustQuoted (first second : String) :
    Reveals Anything (rustQuoted first).toList (rustQuoted second).toList (first = second) :=
  rustEscaping.reveals_quoted first second

end FixtureLiterals.Emission
