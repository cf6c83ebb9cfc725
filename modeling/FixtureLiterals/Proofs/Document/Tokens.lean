import FixtureLiterals.Document.Tree
import FixtureLiterals.Proofs.Document.Quoted
import FixtureLiterals.Proofs.Text.Numerals

/-!
# Tokens are read back

Every token but a numeral ends by itself. A numeral goes on as long as it can, so it needs
something behind it that no numeral goes on with. In a document this is a comma, the end of
a container, or the end of the whole text.
-/

namespace FixtureLiterals

namespace Text.Numeral

/-- Only the number zero is written with a zero in front. -/
theorem toDigits_eq_cons {number : Nat} (positive : 0 < number) :
    ∃ first others, Nat.toDigits 10 number = first :: others ∧ first ≠ '0' := by
  induction number using Nat.strongRecOn with
  | _ number inductionHypothesis =>
    rw [Nat.toDigits_eq_if (by decide)]
    by_cases single : number < 10
    · have decided : ∀ digit : Fin 10, 0 < digit.val → digit.val.digitChar ≠ '0' := by decide
      rw [if_pos single]
      exact ⟨_, [], rfl, decided ⟨number, single⟩ positive⟩
    · rw [if_neg single]
      obtain ⟨first, others, higher, nonzero⟩ :=
        inductionHypothesis (number / 10) (by omega) (by omega)
      exact ⟨first, others ++ [(number % 10).digitChar], by rw [higher, List.cons_append], nonzero⟩

/-- The digits of an integer are the digits of its absolute value. -/
theorem significand_ofInt (number : Int) : (ofInt number).significand = number.natAbs := by
  rw [significand, ofInt, List.append_nil, Nat.ofDigitChars_ten_toDigits]

/-- An integer is the integer that its numeral stands for. -/
theorem integer?_ofInt (number : Int) : (ofInt number).integer? = some number := by
  rw [integer?, significand_ofInt]
  by_cases negative : number < 0
  · have nonzero : (number.natAbs == 0) = false := beq_eq_false_iff_ne.mpr (by omega)
    have size : -(number.natAbs : Int) = number := by omega
    simp only [ofInt, negative, nonzero, size, decide_true, List.isEmpty_nil, Option.isNone_none,
      Bool.and_self, Bool.and_false, Bool.not_false, if_true]
  · have size : (number.natAbs : Int) = number := by omega
    simp only [ofInt, negative, size, decide_false, List.isEmpty_nil, Option.isNone_none,
      Bool.and_self, Bool.false_and, Bool.not_false, if_true, Bool.false_eq_true, if_false]

end Text.Numeral

namespace Document

open Text Text.Numeral

/-- What may stand behind a value: a comma, the end of a container, or nothing. -/
def Stops (rest : List Char) : Prop := ∀ character ∈ rest.head?, character ∈ [',', ']', '\x7d']

/-- A text that starts with what may stand behind a value. -/
theorem stops_cons {first : Char} (listed : first ∈ [',', ']', '\x7d']) (others : List Char) :
    Stops (first :: others) := by
  intro character head
  obtain rfl : first = character := by simpa using head
  exact listed

/-- What stands behind a value is no part of a numeral. -/
theorem not_begins_of_stops {rest : List Char} (stops : Stops rest) {first : Char}
    (outside : first ∉ [',', ']', '\x7d']) (others : List Char) : rest ≠ first :: others := by
  rintro rfl
  exact outside (stops first rfl)

/-- Digits end in front of what stands behind a value. -/
theorem leaves_of_stops {rest : List Char} (stops : Stops rest) : Leaves Char.isDigit rest := by
  have decided : [',', ']', '\x7d'].all (fun character => !character.isDigit) = true := by decide
  intro character head
  rw [← Bool.not_eq_true']
  exact List.all_eq_true.mp decided character (stops character head)

/-- A run of a class is taken as a whole where it is left. -/
theorem takeWhile_of_leaves {member : Char → Bool} {run rest : List Char}
    (within : ∀ character ∈ run, member character = true) (leaves : Leaves member rest) :
    (run ++ rest).takeWhile member = run ∧ (run ++ rest).dropWhile member = rest := by
  rw [List.takeWhile_append_of_pos within, List.dropWhile_append_of_pos within]
  cases rest with
  | nil => simp
  | cons first rest =>
    have outside : member first = false := leaves first rfl
    simp [outside]

/-- All digits of a whole number are taken, as no zero stands in front of others. -/
theorem wholePart?_toDigits (number : Nat) {rest : List Char} (leaves : Leaves Char.isDigit rest) :
    wholePart? (Nat.toDigits 10 number ++ rest) = some (Nat.toDigits 10 number, rest) := by
  by_cases zero : number = 0
  · subst zero
    rfl
  · obtain ⟨first, others, spelled, nonzero⟩ := toDigits_eq_cons (Nat.pos_of_ne_zero zero)
    have digits : AreDigits (first :: others) := by
      intro character listed
      rw [← spelled] at listed
      exact Nat.isDigit_of_mem_toDigits (by decide) (by decide) listed
    obtain ⟨taken, left⟩ := takeWhile_of_leaves
      (fun character listed => digits character (List.mem_cons_of_mem first listed)) leaves
    rw [spelled, List.cons_append, wholePart?, if_neg nonzero, if_pos (digits first List.mem_cons_self),
      taken, left]

/-- There is no fraction in front of what stands behind a value. -/
theorem fractionPart?_of_stops {rest : List Char} (stops : Stops rest) :
    fractionPart? rest = some ([], rest) := by
  have noPoint : ∀ others, rest ≠ '.' :: others := not_begins_of_stops stops (by decide)
  unfold fractionPart?
  split
  · exact absurd rfl (noPoint _)
  · rfl

/-- There is no power of ten in front of what stands behind a value. -/
theorem exponentPart?_of_stops {rest : List Char} (stops : Stops rest) :
    exponentPart? rest = some (none, rest) := by
  cases rest with
  | nil => rfl
  | cons first others =>
    have noMark : ¬(first = 'e' ∨ first = 'E') := by
      rintro (rfl | rfl)
      · exact not_begins_of_stops stops (by decide) others rfl
      · exact not_begins_of_stops stops (by decide) others rfl
    rw [exponentPart?, if_neg noMark]

/-- The digits of a whole number are read back as its numeral. -/
theorem unsignedNumeral?_toDigits (negative : Bool) (number : Nat) {rest : List Char}
    (stops : Stops rest) :
    unsignedNumeral? negative (Nat.toDigits 10 number ++ rest) =
      some (⟨negative, Nat.toDigits 10 number, [], none⟩, rest) := by
  rw [unsignedNumeral?, wholePart?_toDigits number (leaves_of_stops stops)]
  simp only [Option.bind_eq_bind, Option.bind_some, fractionPart?_of_stops stops,
    exponentPart?_of_stops stops, Option.pure_def]

/-- The characters of an integer are a sign where it is negative, and digits. -/
theorem characters_ofInt (number : Int) :
    (ofInt number).characters =
      (if number < 0 then ['-'] else []) ++ Nat.toDigits 10 number.natAbs := by
  simp [characters, ofInt]

/-- An integer is read back as its numeral. -/
theorem numeral?_ofInt (number : Int) {rest : List Char} (stops : Stops rest) :
    numeral? ((ofInt number).characters ++ rest) = some (ofInt number, rest) := by
  have unsigned := unsignedNumeral?_toDigits (decide (number < 0)) number.natAbs stops
  rw [characters_ofInt]
  by_cases negative : number < 0
  · rw [if_pos negative, List.singleton_append, List.cons_append, numeral?]
    simpa [ofInt, negative] using unsigned
  · obtain ⟨first, others, spelled, digit⟩ := decimal_eq_cons number.natAbs
    rw [decimal, String.toList_ofList] at spelled
    rw [if_neg negative, List.nil_append, numeral?]
    · simpa [ofInt, negative] using unsigned
    · intro tail same
      rw [spelled, List.cons_append] at same
      rw [(List.cons.inj same).1] at digit
      exact absurd digit (by decide)

/-- A text that begins with a sign or a digit is read as a numeral. -/
theorem token?_of_numeral {first : Char} (begins : first = '-' ∨ first.isDigit = true)
    (rest : List Char) : token? first rest =
      (numeral? (first :: rest)).map fun (numeral, following) => (.number numeral, following) := by
  have apart : first ∉ ['[', ']', '\x7b', '\x7d', ',', ':', 'n', 't', 'f', '"'] := by
    rcases begins with rfl | digit
    · decide
    · have decided : ['[', ']', '\x7b', '\x7d', ',', ':', 'n', 't', 'f', '"'].all
          (fun other => !other.isDigit) = true := by decide
      intro listed
      have outside := List.all_eq_true.mp decided first listed
      rw [digit] at outside
      exact nomatch outside
  unfold token?
  split
  case h_11 => rfl
  all_goals exact absurd (by decide) apart

/-- The tokens of documents that hold integers and texts only. -/
inductive Token.Plain : Token → Prop where
  | openArray : Plain .openArray
  | closeArray : Plain .closeArray
  | openObject : Plain .openObject
  | closeObject : Plain .closeObject
  | comma : Plain .comma
  | colon : Plain .colon
  | null : Plain .null
  | bool (value : Bool) : Plain (.bool value)
  | number (number : Int) : Plain (.number (ofInt number))
  | text (content : String) : Plain (.text (some content))

/-- An integer is written with a sign or a digit in front. -/
theorem characters_ofInt_eq_cons (number : Int) : ∃ first others,
    (ofInt number).characters = first :: others ∧ (first = '-' ∨ first.isDigit = true) := by
  obtain ⟨first, others, spelled, digit⟩ := decimal_eq_cons number.natAbs
  rw [decimal, String.toList_ofList] at spelled
  rw [characters_ofInt, spelled]
  by_cases negative : number < 0
  · rw [if_pos negative]
    exact ⟨'-', first :: others, rfl, .inl rfl⟩
  · rw [if_neg negative]
    exact ⟨first, others, rfl, .inr digit⟩

/-- No blank is a sign or a digit. -/
theorem isBlank_of_numeral {first : Char} (begins : first = '-' ∨ first.isDigit = true) :
    isBlank first = false := by
  rcases begins with rfl | digit
  · decide
  · rw [← Bool.not_eq_true]
    intro blank
    simp only [isBlank, Bool.or_eq_true, beq_iff_eq] at blank
    rcases blank with ((rfl | rfl) | rfl) | rfl <;> exact absurd digit (by decide)

/-- A token in front of a text is read back. Behind a numeral, the text has to be one that may
stand behind a value. -/
theorem token?_characters {token : Token} (plain : token.Plain) {rest : List Char}
    (stops : ∀ numeral, token = .number numeral → Stops rest) : ∃ first others, token.characters = first :: others ∧
      isBlank first = false ∧ token? first (others ++ rest) = some (token, rest) := by
  cases plain with
  | number number =>
    obtain ⟨first, others, spelled, begins⟩ := characters_ofInt_eq_cons number
    have read := numeral?_ofInt number (stops _ rfl)
    rw [spelled, List.cons_append] at read
    refine ⟨first, others, spelled, isBlank_of_numeral begins, ?_⟩
    rw [token?_of_numeral begins, read]
    rfl
  | text content =>
    refine ⟨'"', content.toList.flatMap escape ++ ['"'], rfl, rfl, ?_⟩
    rw [List.append_assoc, List.singleton_append, token?, quoted?_quote]
    rfl
  | bool value => cases value <;> exact ⟨_, _, rfl, rfl, rfl⟩
  | _ => exact ⟨_, _, rfl, rfl, rfl⟩

namespace Progress

/-- Taking the text of a token takes the token. -/
theorem advance_token (progress : Progress) {token : Token} (plain : token.Plain)
    {rest : List Char} (stops : ∀ numeral, token = .number numeral → Stops rest) :
    progress.advance (token.characters ++ rest) =
      (progress.step token).bind fun next => next.advance rest := by
  obtain ⟨first, others, spelled, visible, read⟩ := token?_characters plain stops
  rw [spelled, List.cons_append, advance, visible, if_neg Bool.false_ne_true, read]
  cases stepped : progress.step token <;> simp [stepped]

end Progress

end Document

end FixtureLiterals
