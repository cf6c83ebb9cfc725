import FixtureLiterals.Proofs.Text.Revealing

/-!
# Written numerals

The characters of a numeral reveal all of its parts: a point announces the fraction and an
`e` the power of ten, and no part but the sign of a number or of its exponent has any other
character than a digit. So a numeral needs no mark behind it, as long as what follows is
neither a digit nor a point nor an `e`.
-/

namespace FixtureLiterals.Text.Numeral

/-- All characters are digits. -/
def AreDigits (characters : List Char) : Prop := ∀ character ∈ characters, character.isDigit = true

/-- A numeral with a digit before the point, and one in its exponent if it has an exponent. -/
structure Proper (numeral : Numeral) : Prop where
  whole : AreDigits numeral.whole
  whole_ne_nil : numeral.whole ≠ []
  fraction : AreDigits numeral.fraction
  exponent : ∀ exponent ∈ numeral.exponent, AreDigits exponent.digits ∧ exponent.digits ≠ []

/-- The characters that go on with a numeral. -/
def continues (character : Char) : Bool :=
  character.isDigit || character == '.' || character == 'e'

/-- The characters of a fraction, with its point. -/
def fractionCharacters (fraction : List Char) : List Char :=
  if fraction.isEmpty then [] else '.' :: fraction

/-- The characters of a power of ten. -/
def exponentCharacters : Option Exponent → List Char
  | none => []
  | some exponent => 'e' :: exponent.sign.characters ++ exponent.digits

/-- The characters of a numeral are those of its parts. -/
theorem characters_eq (numeral : Numeral) :
    numeral.characters = (if numeral.negative then ['-'] else []) ++
      (numeral.whole ++ (fractionCharacters numeral.fraction ++
        exponentCharacters numeral.exponent)) := by
  obtain ⟨negative, whole, fraction, exponent⟩ := numeral
  cases exponent <;> simp [characters, fractionCharacters, exponentCharacters]

/-- Digits start with a digit. -/
theorem eq_cons_of_areDigits {characters : List Char} (digits : AreDigits characters)
    (nonempty : characters ≠ []) :
    ∃ first others, characters = first :: others ∧ first.isDigit = true := by
  cases characters with
  | nil => exact absurd rfl nonempty
  | cons first others => exact ⟨first, others, rfl, digits first List.mem_cons_self⟩

/-- Nonempty digits do not start like a text that starts with something else. -/
theorem apart_of_areDigits {characters : List Char} (digits : AreDigits characters)
    (nonempty : characters ≠ []) {other : Char} (outside : other.isDigit = false)
    (text : List Char) : Apart characters (other :: text) := by
  obtain ⟨first, others, rfl, digit⟩ := eq_cons_of_areDigits digits nonempty
  refine Apart.of_heads ?_ others text
  rintro rfl
  rw [outside] at digit
  exact nomatch digit

/-- An exponent's sign in front of digits is revealed, and so are the digits. -/
theorem reveals_exponent {first second : Exponent}
    (digits : AreDigits first.digits ∧ first.digits ≠ [])
    (numbers : AreDigits second.digits ∧ second.digits ≠ []) :
    Reveals (Leaves Char.isDigit) (first.sign.characters ++ first.digits)
      (second.sign.characters ++ second.digits) (first = second) := by
  obtain ⟨sign, places⟩ := first
  obtain ⟨mark, size⟩ := second
  have same : Reveals (Leaves Char.isDigit) places size (places = size) :=
    reveals_word digits.1 numbers.1
  cases sign <;> cases mark
  case omitted.omitted => exact same.imp fun agree => by rw [agree]
  case plus.plus => exact (same.prefixed ['+']).imp fun agree => by rw [agree]
  case minus.minus => exact (same.prefixed ['-']).imp fun agree => by rw [agree]
  case omitted.plus => exact .of_apart (apart_of_areDigits digits.1 digits.2 (by decide) _)
  case omitted.minus => exact .of_apart (apart_of_areDigits digits.1 digits.2 (by decide) _)
  case plus.omitted => exact .of_apart (apart_of_areDigits numbers.1 numbers.2 (by decide) _).symm
  case minus.omitted => exact .of_apart (apart_of_areDigits numbers.1 numbers.2 (by decide) _).symm
  case plus.minus => exact .of_apart (Apart.of_heads (by decide) _ _)
  case minus.plus => exact .of_apart (Apart.of_heads (by decide) _ _)

/-- What does not go on with a numeral does not start with a point or an `e`. -/
theorem not_begins_of_leaves {rest : List Char} (leaves : Leaves continues rest) {first : Char}
    (inside : continues first = true) (others : List Char) : rest ≠ first :: others := by
  rintro rfl
  have outside : continues first = false := leaves first rfl
  rw [inside] at outside
  exact nomatch outside

/-- A power of ten is revealed, and so is whether there is one. -/
theorem reveals_exponentCharacters {first second : Option Exponent}
    (digits : ∀ exponent ∈ first, AreDigits exponent.digits ∧ exponent.digits ≠ [])
    (numbers : ∀ exponent ∈ second, AreDigits exponent.digits ∧ exponent.digits ≠ []) :
    Reveals (Leaves continues) (exponentCharacters first) (exponentCharacters second)
      (first = second) := by
  have fewer : ∀ rest, Leaves continues rest → Leaves Char.isDigit rest := by
    intro rest leaves character head
    have outside : continues character = false := leaves character head
    rw [continues, Bool.or_assoc, Bool.or_eq_false_iff] at outside
    exact outside.1
  cases first with
  | none =>
    cases second with
    | none => exact .refl _ rfl
    | some exponent =>
      intro rest other leaves _ same
      exact absurd same (not_begins_of_leaves leaves (by decide) _)
  | some exponent =>
    cases second with
    | none =>
      intro rest other _ stops same
      exact absurd same.symm (not_begins_of_leaves stops (by decide) _)
    | some power =>
      have revealed := reveals_exponent (digits exponent rfl) (numbers power rfl)
      exact ((revealed.narrow fewer).prefixed ['e']).imp (congrArg some)

/-- The rests that neither go on with a fraction nor start with a point. -/
def LeavesFraction (rest : List Char) : Prop :=
  Leaves (fun character => character.isDigit || character == '.') rest

/-- A fraction is revealed, and so is whether there is one. -/
theorem reveals_fractionCharacters {first second : List Char} (digits : AreDigits first)
    (numbers : AreDigits second) :
    Reveals LeavesFraction (fractionCharacters first) (fractionCharacters second)
      (first = second) := by
  have fewer : ∀ rest, LeavesFraction rest → Leaves Char.isDigit rest :=
    fun rest leaves character head => (Bool.or_eq_false_iff.mp (leaves character head)).1
  have noPoint : ∀ rest, LeavesFraction rest → ∀ others, rest ≠ '.' :: others := by
    rintro _ leaves others rfl
    exact absurd (leaves '.' rfl) (by decide)
  cases first with
  | nil =>
    cases second with
    | nil => exact .refl _ rfl
    | cons digit places =>
      intro rest other leaves _ same
      exact absurd same (noPoint rest leaves _)
  | cons digit places =>
    cases second with
    | nil =>
      intro rest other _ stops same
      exact absurd same.symm (noPoint other stops _)
    | cons number size =>
      exact ((reveals_word digits numbers).narrow fewer).prefixed ['.']

/-- A fraction and a power of ten do not start with a digit. -/
theorem leaves_fraction_exponent (fraction : List Char) (exponent : Option Exponent)
    {rest : List Char} (leaves : Leaves continues rest) :
    Leaves Char.isDigit (fractionCharacters fraction ++ exponentCharacters exponent ++ rest) := by
  have point : Char.isDigit '.' = false := by decide
  have letter : Char.isDigit 'e' = false := by decide
  cases fraction with
  | cons digit places => exact leaves_append _ _ point
  | nil =>
    cases exponent with
    | some exponent => exact leaves_append _ _ letter
    | none =>
      intro character head
      have outside : continues character = false := leaves character head
      rw [continues, Bool.or_assoc, Bool.or_eq_false_iff] at outside
      exact outside.1

/-- A power of ten starts neither with a digit nor with a point. -/
theorem leavesFraction_exponent (exponent : Option Exponent) {rest : List Char}
    (leaves : Leaves continues rest) : LeavesFraction (exponentCharacters exponent ++ rest) := by
  cases exponent with
  | some exponent => exact leaves_append _ _ (by decide)
  | none =>
    intro character head
    have outside : continues character = false := leaves character head
    exact (Bool.or_eq_false_iff.mp outside).1

/-- The characters of a proper numeral reveal the numeral. -/
theorem reveals_characters {first second : Numeral} (proper : first.Proper)
    (regular : second.Proper) :
    Reveals (Leaves continues) first.characters second.characters (first = second) := by
  have behind : Reveals (Leaves continues)
      (fractionCharacters first.fraction ++ exponentCharacters first.exponent)
      (fractionCharacters second.fraction ++ exponentCharacters second.exponent)
      (first.fraction = second.fraction ∧ first.exponent = second.exponent) :=
    (reveals_fractionCharacters proper.fraction regular.fraction).append
      (reveals_exponentCharacters proper.exponent regular.exponent)
      (fun _ => leavesFraction_exponent _) (fun _ => leavesFraction_exponent _)
  have unsigned := (reveals_word proper.whole regular.whole).append behind
    (fun _ => leaves_fraction_exponent _ _) (fun _ => leaves_fraction_exponent _ _)
  rw [characters_eq, characters_eq]
  obtain ⟨negative, whole, fraction, exponent⟩ := first
  obtain ⟨minus, before, after, power⟩ := second
  have minusSign : Char.isDigit '-' = false := by decide
  cases negative <;> cases minus
  case false.false =>
    refine unsigned.imp ?_
    rintro ⟨rfl, rfl, rfl⟩
    rfl
  case true.true =>
    refine (unsigned.prefixed ['-']).imp ?_
    rintro ⟨rfl, rfl, rfl⟩
    rfl
  case false.true =>
    have apart := apart_of_areDigits proper.whole proper.whole_ne_nil minusSign []
    exact .of_apart (apart.append _ _)
  case true.false =>
    have apart := apart_of_areDigits regular.whole regular.whole_ne_nil minusSign []
    exact .of_apart (apart.symm.append _ _)

end FixtureLiterals.Text.Numeral
