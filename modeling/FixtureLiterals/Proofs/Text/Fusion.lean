import FixtureLiterals.Proofs.Text.Words

/-!
# Names that camel case runs together

In upper camel case, a break between two words is seen by the upper-case letter behind it. A word
that starts with a digit, or with a character outside ASCII, has no such letter, and the break in
front of it is lost: `a_1` and `a1` are both written `A1`.

Nothing else is lost. If each upper-case letter is written out as an underscore and a lower-case
letter, then upper camel case becomes snake case again, with a break in front of the first word,
too, and without the breaks that were lost. So two names are written alike exactly if they are
alike after such breaks have been closed.
-/

namespace FixtureLiterals.Text

/-- Closes the breaks that have no lower-case letter behind them. -/
def fused : List Char → List Char
  | [] => []
  | character :: rest =>
    if character = '_' ∧ rest.head?.any Char.isLower = false then fused rest
    else character :: fused rest

/-- A character of camel case, written out. -/
def writtenOut (character : Char) : List Char :=
  if character.isUpper then ['_', character.toLower] else [character]

/-- Reads camel case back from what was written out. -/
def drawnIn : List Char → List Char
  | [] => []
  | '_' :: next :: rest => next.toUpper :: drawnIn rest
  | character :: rest => character :: drawnIn rest

section Letters

variable {character : Char}

/-- A lower-case letter is written out after it was put in upper case. -/
theorem writtenOut_toUpper (lower : character.isLower = true) :
    writtenOut character.toUpper = ['_', character] := by
  have upper : character.toUpper.isUpper = true := by
    rw [Char.isUpper_toUpper_eq_isAlpha, Char.isAlpha, lower, Bool.or_true]
  rw [writtenOut, if_pos upper, Char.toLower_toUpper_eq_toLower,
    Char.toLower_eq_of_not_isUpper (Char.not_isUpper_of_isLower lower)]

/-- No other character changes. -/
theorem writtenOut_of_not_isUpper (other : character.isUpper = false) :
    writtenOut character = [character] :=
  if_neg (ne_true_of_eq_false other)

end Letters

/-- Nothing is closed in front of the first underscore. -/
theorem fused_append {front : List Char} (unbroken : '_' ∉ front) (rest : List Char) :
    fused (front ++ rest) = front ++ fused rest := by
  induction front with
  | nil => rfl
  | cons first front inductionHypothesis =>
    obtain ⟨other, later⟩ := List.ne_and_not_mem_of_not_mem_cons unbroken
    rw [List.cons_append, fused, if_neg fun both => other both.1.symm, inductionHypothesis later,
      List.cons_append]

section Humpless

variable {text : List Char} (humpless : ∀ character ∈ text, character.isUpper = false)
include humpless

/-- Without upper-case letters there is nothing to put in lower case. -/
theorem lowered_of_humpless : lowered text = text := by
  have each : text.map Char.toLower = text.map id :=
    List.map_congr_left fun character listed =>
      Char.toLower_eq_of_not_isUpper (ne_true_of_eq_false (humpless character listed))
  rw [lowered, each, List.map_id]

/-- Without upper-case letters there is nothing to write out. -/
theorem flatMap_writtenOut_of_humpless : text.flatMap writtenOut = text := by
  induction text with
  | nil => rfl
  | cons first rest inductionHypothesis =>
    obtain ⟨head, tail⟩ := List.forall_mem_cons.mp humpless
    rw [List.flatMap_cons, writtenOut_of_not_isUpper head, inductionHypothesis tail]
    rfl

end Humpless

/-- The break in front of a settled word is kept exactly if a capital shows it. -/
theorem fused_break {word : List Char} (settled : IsSettled word) (rest : List Char) :
    fused ('_' :: (word ++ rest)) = (capitalized word).flatMap writtenOut ++ fused rest := by
  have unbroken : '_' ∉ word := fun underscore =>
    absurd (settled.undivided '_' underscore) (by decide)
  have kept := fused_append unbroken rest
  cases word with
  | nil => exact absurd rfl settled.nonempty
  | cons first others =>
    obtain ⟨head, tail⟩ := List.forall_mem_cons.mp settled.humpless
    rw [capitalized, List.flatMap_cons, lowered_of_humpless tail,
      flatMap_writtenOut_of_humpless tail, fused, kept]
    -- The capital that shows a break is the first letter of the word, if that is a letter at all.
    by_cases lower : first.isLower = true
    · rw [if_neg fun both => ne_true_of_eq_false both.2 lower, writtenOut_toUpper lower]
      rfl
    · rw [if_pos ⟨rfl, Bool.eq_false_iff.mpr lower⟩, Char.toUpper_eq_of_not_isLower lower,
        writtenOut_of_not_isUpper head]
      rfl

/-- Written out, capitalized words are their snake case, but for the breaks that are lost. -/
theorem fused_intercalate {texts : List (List Char)} (settled : ∀ text ∈ texts, IsSettled text) :
    fused ('_' :: ['_'].intercalate texts) =
      ((texts.map capitalized).flatten).flatMap writtenOut := by
  induction texts with
  | nil => rfl
  | cons first others inductionHypothesis =>
    obtain ⟨head, tail⟩ := List.forall_mem_cons.mp settled
    rw [List.map_cons, List.flatten_cons, List.flatMap_append, ← inductionHypothesis tail]
    cases others with
    | nil =>
      rw [List.intercalate_singleton, ← List.append_nil first, fused_break head, List.append_nil]
      rfl
    | cons second others =>
      rw [List.intercalate_cons_cons, List.append_assoc, fused_break head]
      rfl

/-- Written out, upper camel case is snake case, but for the breaks that are lost. -/
theorem flatMap_writtenOut_upperCamel (characters : List Char) :
    (upperCamel characters).flatMap writtenOut = fused ('_' :: snake characters) := by
  rw [snake, fused_intercalate (isSettled_lowered characters), map_capitalized_lowered, upperCamel]

/-- What was written out can be read back, if there was no underscore in it. -/
theorem drawnIn_flatMap_writtenOut {text : List Char} (unbroken : '_' ∉ text) :
    drawnIn (text.flatMap writtenOut) = text := by
  induction text with
  | nil => rfl
  | cons first rest inductionHypothesis =>
    obtain ⟨other, later⟩ := List.ne_and_not_mem_of_not_mem_cons unbroken
    rw [List.flatMap_cons, writtenOut]
    by_cases upper : first.isUpper = true
    · have restored : first.toLower.toUpper = first := by
        rw [Char.toUpper_toLower_eq_toUpper,
          Char.toUpper_eq_of_not_isLower (Char.not_isLower_of_isUpper upper)]
      rw [if_pos upper, List.cons_append, List.singleton_append, drawnIn,
        inductionHypothesis later, restored]
    · rw [if_neg upper, List.singleton_append, drawnIn, inductionHypothesis later]
      exact fun _ _ underscore _ => other underscore.symm

/-- Two names are the same in upper camel case exactly if they are the same in snake case once all
breaks that no capital shows have been closed. -/
theorem upperCamel_eq_iff (first second : List Char) :
    upperCamel first = upperCamel second ↔
      fused ('_' :: snake first) = fused ('_' :: snake second) := by
  have unbroken (text : List Char) : '_' ∉ upperCamel text :=
    not_mem_upperCamel (by decide) (not_mem_words (.inl (by decide)))
  rw [← flatMap_writtenOut_upperCamel, ← flatMap_writtenOut_upperCamel]
  constructor
  · exact congrArg _
  · intro same
    rw [← drawnIn_flatMap_writtenOut (unbroken first), same,
      drawnIn_flatMap_writtenOut (unbroken second)]

end FixtureLiterals.Text
