import FixtureLiterals.Document.Quoted
import FixtureLiterals.Proofs.Emission.Quoted

/-!
# Quoted texts are read back

A written character is one element of a quoted text: the character itself, or, where it is a
control character without a letter of its own, the unit of its code. Such a unit is below
U+0020, far from the halves of surrogate pairs, so no element is taken together with the one
behind it and each of them denotes the character that it was written for.
-/

namespace FixtureLiterals.Document

open Text

/-- An element that denotes a character by itself. -/
inductive Spells : Element → Char → Prop where
  | plain (character : Char) : Spells (.character character) character
  | control {character : Char} (below : character < ' ') : Spells (.unit character.toNat) character

/-- Every lower-case hexadecimal digit is read as what it stands for. -/
theorem hexDigit?_of_isHexadecimal {character : Char} (digit : isHexadecimal character = true) :
    hexDigit? character = some (hexadecimalDigit character) := by
  have decided : ['0', '1', '2', '3', '4', '5', '6', '7', '8', '9', 'a', 'b', 'c', 'd', 'e', 'f'].all
      (fun digit => decide (hexDigit? digit = some (hexadecimalDigit digit))) = true := by decide
  exact of_decide_eq_true (List.all_eq_true.mp decided character (of_decide_eq_true digit))

/-- Padding with zeros leaves hexadecimal digits. -/
theorem isHexadecimal_of_mem_padded {width number : Nat} {character : Char}
    (listed : character ∈ (paddedHexadecimal width number).toList) :
    isHexadecimal character = true := by
  rw [paddedHexadecimal, String.toList_ofList, List.leftpad] at listed
  rcases List.mem_append.mp listed with padding | digit
  · rw [List.eq_of_mem_replicate padding]
    rfl
  · exact isHexadecimal_of_mem_toDigits digit

/-- Four padded digits name the number that they were written for. -/
theorem unit?_padded {number : Nat} (bounded : number < 16 ^ 4) :
    ∃ first second third fourth,
      (paddedHexadecimal 4 number).toList = [first, second, third, fourth] ∧
        unit? first second third fourth = some number := by
  have counted := Emission.length_paddedHexadecimal (by decide) bounded
  have value := Emission.value_paddedHexadecimal 4 number
  have digits : ∀ character ∈ (paddedHexadecimal 4 number).toList,
      isHexadecimal character = true := fun _ => isHexadecimal_of_mem_padded
  obtain ⟨first, second, third, fourth, spelled⟩ := List.length_eq_four.mp counted
  rw [spelled] at value digits
  refine ⟨first, second, third, fourth, spelled, ?_⟩
  have read (character : Char) (listed : character ∈ [first, second, third, fourth]) :
      hexDigit? character = some (hexadecimalDigit character) :=
    hexDigit?_of_isHexadecimal (digits character listed)
  simp only [unit?, read first (by simp), read second (by simp), read third (by simp),
    read fourth (by simp), Option.bind_eq_bind, Option.bind_some, Option.pure_def]
  rw [← value]
  refine congrArg some ?_
  simp only [hexadecimalValue, List.foldl_cons, List.foldl_nil]
  omega

/-- Behind a backslash, a letter that announces no unit is one element. -/
theorem elements?_letter {letter character : Char} (single : letter ≠ 'u')
    (escaped : escaped? letter = some character) (rest : List Char) :
    elements? ('\\' :: letter :: rest) =
      (elements? rest).map fun (others, following) => (.character character :: others, following) := by
  rw [elements?, escaped]
  · cases elements? rest <;> rfl
  · intro _ _ _ _ _ same
    exact fun _ => single same

/-- A written character is read as one element that denotes it, and reading goes on behind it. -/
theorem elements?_escape (character : Char) :
    ∃ element, Spells element character ∧ ∀ rest, elements? (escape character ++ rest) =
      (elements? rest).map fun (others, following) => (element :: others, following) := by
  unfold escape
  split
  case h_1 | h_2 | h_3 | h_4 | h_5 | h_6 | h_7 =>
    exact ⟨_, .plain _, fun rest => elements?_letter (by decide) rfl rest⟩
  case h_8 quote backslash _ _ _ _ _ =>
    split
    case isTrue control =>
      have below : character.toNat < 32 := control
      obtain ⟨first, second, third, fourth, spelled, read⟩ :=
        unit?_padded (show character.toNat < 16 ^ 4 by omega)
      refine ⟨_, .control control, fun rest => ?_⟩
      simp only [spelled, List.cons_append, List.nil_append, elements?, read]
      cases elements? rest <;> rfl
    case isFalse visible =>
      refine ⟨_, .plain _, fun rest => ?_⟩
      rw [List.singleton_append, elements?, if_neg visible]
      · cases elements? rest <;> rfl
      · exact fun same => quote same
      · intro _ _ _ _ _ same
        exact fun _ => backslash same
      · intro _ _ same
        exact fun _ => backslash same

/-- Written characters up to the closing mark are read as elements that denote them. -/
theorem elements?_quoted (content rest : List Char) :
    ∃ elements, List.Forall₂ Spells elements content ∧
      elements? (content.flatMap escape ++ '"' :: rest) = some (elements, rest) := by
  induction content with
  | nil => exact ⟨[], .nil, rfl⟩
  | cons character content inductionHypothesis =>
    obtain ⟨elements, spell, read⟩ := inductionHypothesis
    obtain ⟨element, spells, goesOn⟩ := elements?_escape character
    refine ⟨element :: elements, .cons spells spell, ?_⟩
    rw [List.flatMap_cons, List.append_assoc, goesOn, read]
    rfl

/-- A unit below U+0020 denotes its character, whatever stands behind it. -/
theorem denoted?_control {character : Char} (below : character < ' ') (rest : List Element) :
    denoted? (.unit character.toNat :: rest) = (denoted? rest).map (character :: ·) := by
  have small : character.toNat < 32 := below
  have notHigh : isHighSurrogate character.toNat = false := by
    apply decide_eq_false
    omega
  have notLow : isLowSurrogate character.toNat = false := by
    apply decide_eq_false
    omega
  cases rest with
  | nil => simp [denoted?, notHigh, notLow, Char.ofNat_toNat]
  | cons next rest => cases next <;> simp [denoted?, notHigh, notLow, Char.ofNat_toNat]

/-- Elements that denote one character each denote those characters together. -/
theorem denoted?_of_spells {elements : List Element} {content : List Char}
    (spell : List.Forall₂ Spells elements content) : denoted? elements = some content := by
  induction spell with
  | nil => rfl
  | cons first _ inductionHypothesis =>
    cases first with
    | plain => rw [denoted?, inductionHypothesis, Option.map_some]
    | control below => rw [denoted?_control below, inductionHypothesis, Option.map_some]

/-- A written text is read back up to its closing mark. -/
theorem quoted?_quote (content : String) (rest : List Char) :
    quoted? (content.toList.flatMap escape ++ '"' :: rest) = some (some content, rest) := by
  obtain ⟨elements, spell, read⟩ := elements?_quoted content.toList rest
  simp only [quoted?, read, Option.bind_eq_bind, Option.bind_some, Option.pure_def,
    denoted?_of_spells spell, Option.map_some, String.ofList_toList]

end FixtureLiterals.Document
