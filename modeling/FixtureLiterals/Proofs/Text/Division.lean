import FixtureLiterals.Text.Words

/-!
# Dividing a text at a separator

A separator may have several characters. It is looked for from left to right, and what follows
an occurrence is divided on its own, so occurrences do not overlap. Texts in which the first
character of the separator is not found are the parts of what they are joined to.
-/

namespace FixtureLiterals.Text

/-- The parts of a text between the occurrences of a separator, where the first `skipped`
characters still belong to an occurrence that was found before. -/
def dividedFrom (separator : List Char) : Nat → List Char → List (List Char)
  | _, [] => [[]]
  | skipped + 1, _ :: rest => dividedFrom separator skipped rest
  | 0, character :: rest =>
    if separator.isPrefixOf (character :: rest) then
      [] :: dividedFrom separator (separator.length - 1) rest
    else extendFirst character (dividedFrom separator 0 rest)

/-- The parts of a text between the occurrences of a separator. -/
def divided (separator text : List Char) : List (List Char) := dividedFrom separator 0 text

/-- What belongs to an occurrence is passed over. -/
theorem dividedFrom_length (separator passed rest : List Char) :
    dividedFrom separator passed.length (passed ++ rest) = divided separator rest := by
  induction passed with
  | nil => rfl
  | cons character passed inductionHypothesis =>
    rw [List.length_cons, List.cons_append, dividedFrom, inductionHypothesis]

/-- Where the separator does not begin, a part goes on. -/
theorem divided_cons {first character : Char} (different : first ≠ character)
    (others rest : List Char) :
    divided (first :: others) (character :: rest) =
      extendFirst character (divided (first :: others) rest) := by
  have passed : ¬ (first :: others).isPrefixOf (character :: rest) = true := by
    rw [List.isPrefixOf_cons_cons, Bool.and_eq_true, beq_iff_eq]
    exact fun both => different both.1
  rw [divided, dividedFrom, if_neg passed, divided]

section Parts

variable {first : Char} {others part : List Char} (absent : first ∉ part)
include absent

/-- A text in which the separator cannot begin is a single part. -/
theorem divided_of_not_mem : divided (first :: others) part = [part] := by
  induction part with
  | nil => rfl
  | cons character part inductionHypothesis =>
    rw [divided_cons (List.ne_of_not_mem_cons absent),
      inductionHypothesis (List.not_mem_of_not_mem_cons absent), extendFirst]

/-- Where the separator follows, a part ends. -/
theorem divided_append (rest : List Char) :
    divided (first :: others) (part ++ (first :: others) ++ rest) =
      part :: divided (first :: others) rest := by
  induction part with
  | nil =>
    have found : (first :: others).isPrefixOf (first :: (others ++ rest)) = true :=
      List.isPrefixOf_iff_prefix.mpr ⟨rest, rfl⟩
    rw [List.nil_append, List.cons_append, divided, dividedFrom, if_pos found, List.length_cons,
      Nat.add_sub_cancel, dividedFrom_length]
  | cons character part inductionHypothesis =>
    rw [List.cons_append, List.cons_append, divided_cons (List.ne_of_not_mem_cons absent),
      inductionHypothesis (List.not_mem_of_not_mem_cons absent), extendFirst]

end Parts

/-- Joined texts are divided into themselves, if the separator begins in none of them. -/
theorem divided_intercalate {first : Char} {others : List Char} {texts : List (List Char)}
    (some : texts ≠ []) (absent : ∀ text ∈ texts, first ∉ text) :
    divided (first :: others) ((first :: others).intercalate texts) = texts := by
  induction texts with
  | nil => exact absurd rfl some
  | cons text texts inductionHypothesis =>
    obtain ⟨head, tail⟩ := List.forall_mem_cons.mp absent
    cases texts with
    | nil => rw [List.intercalate_singleton, divided_of_not_mem head]
    | cons next texts =>
      rw [List.intercalate_cons_cons, divided_append head,
        inductionHypothesis (List.cons_ne_nil _ _) tail]

/-- Where the separator begins in a text, the division is another one. -/
example : divided "::".toList ("::".toList.intercalate ["a:".toList, "b".toList]) =
    ["a".toList, ":b".toList] := by decide

end FixtureLiterals.Text
