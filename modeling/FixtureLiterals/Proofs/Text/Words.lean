import FixtureLiterals.Proofs.Text.Casing
import Mathlib

/-!
# The words of a name in snake case

Everything about the words of joined texts follows from one equation: at a separator, the words
of a text part into those in front of it and those behind it. Snake case joins words by
underscores and leaves no upper-case letter in them that a hump could begin with, so the words
that it joined are read back from it.

No casing looks at the case in which a word was written. A name and its snake case have the same
words up to case, and every casing writes the two alike: snake case is a canonical form of names,
and all conversions go through it.
-/

namespace FixtureLiterals.Text

section Letters

variable {character mark : Char} (noLetter : mark.isAlpha = false)
include noLetter

/-- Only a letter becomes a letter in lower case. -/
theorem eq_of_toLower_eq (same : character.toLower = mark) : character = mark := by
  rw [← same, Char.isAlpha_toLower_eq_isAlpha, Char.isAlpha, Bool.or_eq_false_iff] at noLetter
  rwa [Char.toLower_eq_of_not_isUpper (ne_true_of_eq_false noLetter.1)] at same

/-- Only a letter becomes a letter in upper case. -/
theorem eq_of_toUpper_eq (same : character.toUpper = mark) : character = mark := by
  rw [← same, Char.isAlpha_toUpper_eq_isAlpha, Char.isAlpha, Bool.or_eq_false_iff] at noLetter
  rwa [Char.toUpper_eq_of_not_isLower (ne_true_of_eq_false noLetter.2)] at same

end Letters

section Separators

variable {character : Char}

/-- Separators are neither letters nor digits. -/
theorem isAlphanum_of_isSeparator (separator : isSeparator character = true) :
    character.isAlphanum = false := by
  simp only [isSeparator, Bool.or_eq_true, beq_iff_eq] at separator
  rcases separator with ((rfl | rfl) | rfl) | rfl <;> decide

/-- Separators are no letters, so they do not take part in humps. -/
theorem noLetter_of_isSeparator (separator : isSeparator character = true) :
    character.isAlpha = false :=
  (Bool.or_eq_false_iff.mp (isAlphanum_of_isSeparator separator)).1

/-- Lower case makes no separators. -/
theorem isSeparator_of_toLower (separator : isSeparator character.toLower = true) :
    isSeparator character = true := by
  rw [eq_of_toLower_eq (noLetter_of_isSeparator separator) rfl]
  exact separator

end Separators

section Cuts

/-- There is always a piece. -/
theorem pieces_ne_nil (characters : List Char) : pieces characters ≠ [] := by
  cases characters with
  | nil => exact List.cons_ne_nil _ _
  | cons first rest =>
    rw [pieces]
    split
    case isTrue => exact List.cons_ne_nil _ _
    case isFalse =>
      split
      case isTrue => exact List.cons_ne_nil _ _
      case isFalse => cases pieces rest <;> exact List.cons_ne_nil _ _

/-- A character in front of some pieces does not reach those behind the first one. -/
theorem extendFirst_append (character : Char) {front : List (List Char)} (some : front ≠ [])
    (behind : List (List Char)) :
    extendFirst character (front ++ behind) = extendFirst character front ++ behind := by
  cases front with
  | nil => exact absurd rfl some
  | cons piece pieces => rfl

/-- What a separator announces is no hump, nor does it end an acronym. -/
theorem humpFollows_append {separator : Char} (separates : isSeparator separator = true)
    (previous : Char) (front behind : List Char) :
    humpFollows previous (front ++ separator :: behind) = humpFollows previous front := by
  have noLetter := noLetter_of_isSeparator separates
  rw [Char.isAlpha, Bool.or_eq_false_iff] at noLetter
  obtain ⟨notUpper, notLower⟩ := noLetter
  cases front with
  | nil => simp only [List.nil_append, humpFollows, notUpper, Bool.false_and]
  | cons next following =>
    cases following with
    | nil =>
      have alone : (separator :: behind).head?.any Char.isLower =
          ([] : List Char).head?.any Char.isLower := by
        rw [List.head?_cons, Option.any_some, notLower]
        rfl
      rw [List.cons_append, List.nil_append, humpFollows, humpFollows, alone]
    | cons => rfl

/-- At a separator, the pieces of a text part. -/
theorem pieces_append {separator : Char} (separates : isSeparator separator = true)
    (front behind : List Char) :
    pieces (front ++ separator :: behind) = pieces front ++ pieces behind := by
  induction front with
  | nil => simp only [List.nil_append, pieces, if_pos separates, List.singleton_append]
  | cons first front inductionHypothesis =>
    rw [List.cons_append, pieces, pieces, humpFollows_append separates, inductionHypothesis]
    by_cases cut : isSeparator first = true
    · rw [if_pos cut, if_pos cut, List.cons_append]
    · by_cases hump : humpFollows first front = true
      · rw [if_neg cut, if_neg cut, if_pos hump, if_pos hump, List.cons_append]
      · rw [if_neg cut, if_neg cut, if_neg hump, if_neg hump,
          extendFirst_append first (pieces_ne_nil front)]

/-- Cutting a text takes its separators away and nothing else. -/
theorem flatten_pieces (characters : List Char) :
    (pieces characters).flatten = characters.filter fun character => !isSeparator character := by
  induction characters with
  | nil => rfl
  | cons first rest inductionHypothesis =>
    by_cases cut : isSeparator first = true
    · rw [pieces, if_pos cut, List.filter_cons_of_neg (by simp [cut]), ← inductionHypothesis]
      rfl
    · rw [pieces, if_neg cut, List.filter_cons_of_pos (by simp [cut]), ← inductionHypothesis]
      split
      case isTrue => rfl
      case isFalse => cases pieces rest <;> rfl

/-- The words of a text are the text without its separators. -/
theorem flatten_words (characters : List Char) :
    (words characters).flatten = characters.filter fun character => !isSeparator character := by
  rw [words, List.flatten_filter_not_isEmpty, flatten_pieces]

/-- A text without words is one of separators only. -/
theorem words_eq_nil_iff (characters : List Char) :
    words characters = [] ↔ ∀ character ∈ characters, isSeparator character = true := by
  have kept : words characters = [] ↔ (words characters).flatten = [] := by
    constructor
    · intro none
      rw [none, List.flatten_nil]
    · intro empty
      apply List.eq_nil_iff_forall_not_mem.mpr
      intro word listed
      have nothing := List.flatten_eq_nil_iff.mp empty word listed
      exact absurd nothing (by simpa using (List.mem_filter.mp listed).2)
  rw [kept, flatten_words, List.filter_eq_nil_iff]
  simp

/-- At a separator, the words of a text part. -/
theorem words_append {separator : Char} (separates : isSeparator separator = true)
    (front behind : List Char) :
    words (front ++ separator :: behind) = words front ++ words behind := by
  rw [words, pieces_append separates, List.filter_append]
  rfl

end Cuts

section Settled

/-- A word that is read as one word wherever separators surround it: there is something in it,
but no separator, and no upper-case letter that could begin another word. -/
structure IsSettled (word : List Char) : Prop where
  nonempty : word ≠ []
  undivided : ∀ character ∈ word, isSeparator character = false
  humpless : ∀ character ∈ word, character.isUpper = false

/-- Without separators and upper-case letters, a text is in one piece. -/
theorem pieces_eq_singleton {characters : List Char}
    (undivided : ∀ character ∈ characters, isSeparator character = false)
    (humpless : ∀ character ∈ characters, character.isUpper = false) :
    pieces characters = [characters] := by
  induction characters with
  | nil => rfl
  | cons first rest inductionHypothesis =>
    obtain ⟨head, tail⟩ := List.forall_mem_cons.mp undivided
    obtain ⟨-, others⟩ := List.forall_mem_cons.mp humpless
    have flat : humpFollows first rest = false := by
      cases rest with
      | nil => rfl
      | cons next following => rw [humpFollows, others next List.mem_cons_self, Bool.false_and]
    rw [pieces, head, flat, if_neg Bool.false_ne_true, if_neg Bool.false_ne_true,
      inductionHypothesis tail others]
    rfl

/-- A settled word is one word. -/
theorem IsSettled.words_eq {word : List Char} (settled : IsSettled word) : words word = [word] := by
  rw [words, pieces_eq_singleton settled.undivided settled.humpless]
  cases word with
  | nil => exact absurd rfl settled.nonempty
  | cons => rfl

/-- Settled words that underscores join are read back. -/
theorem words_intercalate {texts : List (List Char)} (settled : ∀ text ∈ texts, IsSettled text) :
    words (['_'].intercalate texts) = texts := by
  induction texts with
  | nil => rfl
  | cons first others inductionHypothesis =>
    obtain ⟨head, tail⟩ := List.forall_mem_cons.mp settled
    cases others with
    | nil => rw [List.intercalate_singleton, head.words_eq]
    | cons second others =>
      rw [List.intercalate_cons_cons, List.append_assoc, List.singleton_append,
        words_append (by decide), head.words_eq, inductionHypothesis tail, List.singleton_append]

/-- Settled words that underscores join do not end in an underscore. -/
theorem getLast?_intercalate_ne {texts : List (List Char)}
    (settled : ∀ text ∈ texts, IsSettled text) :
    (['_'].intercalate texts).getLast? ≠ some '_' := by
  induction texts with
  | nil => exact nofun
  | cons first others inductionHypothesis =>
    obtain ⟨head, tail⟩ := List.forall_mem_cons.mp settled
    cases others with
    | nil =>
      rw [List.intercalate_singleton]
      intro last
      exact absurd (head.undivided '_' (List.mem_of_getLast? last)) (by decide)
    | cons second others =>
      have some : ['_'].intercalate (second :: others) ≠ [] := by
        intro nothing
        have none := words_intercalate tail
        rw [nothing] at none
        exact nomatch none
      rw [List.intercalate_cons_cons, List.getLast?_append_of_ne_nil _ some]
      exact inductionHypothesis tail

/-- Words have something in them, but no separator. -/
theorem undivided_of_mem_words {characters word : List Char} (listed : word ∈ words characters) :
    word ≠ [] ∧ ∀ character ∈ word, isSeparator character = false := by
  obtain ⟨piece, nonempty⟩ := List.mem_filter.mp listed
  refine ⟨by simpa using nonempty, ?_⟩
  intro character member
  exact (mem_of_mem_pieces piece character member).2

/-- In lower case, words are settled. -/
theorem isSettled_lowered (characters : List Char) :
    ∀ text ∈ (words characters).map lowered, IsSettled text := by
  intro text listed
  obtain ⟨word, found, rfl⟩ := List.mem_map.mp listed
  obtain ⟨nonempty, undivided⟩ := undivided_of_mem_words found
  constructor
  case nonempty => exact fun empty => nonempty (List.map_eq_nil_iff.mp empty)
  case undivided =>
    intro character member
    obtain ⟨original, inside, rfl⟩ := List.mem_map.mp member
    refine Bool.eq_false_iff.mpr fun separator => ?_
    exact absurd (isSeparator_of_toLower separator)
      (ne_true_of_eq_false (undivided original inside))
  case humpless =>
    intro character member
    obtain ⟨original, -, rfl⟩ := List.mem_map.mp member
    exact Char.isUpper_toLower_eq_false original

end Settled

section Snake

/-- The words of a name in snake case are those of the name, in lower case. -/
theorem words_snake (characters : List Char) :
    words (snake characters) = (words characters).map lowered :=
  words_intercalate (isSettled_lowered characters)

/-- A name in snake case does not end in an underscore. -/
theorem getLast?_snake_ne (characters : List Char) : (snake characters).getLast? ≠ some '_' :=
  getLast?_intercalate_ne (isSettled_lowered characters)

/-- A word in lower case stays as it is in lower case. -/
theorem lowered_lowered (word : List Char) : lowered (lowered word) = lowered word := by
  rw [lowered, lowered, List.map_map]
  exact List.map_congr_left fun character _ => Char.toLower_toLower_eq_toLower character

/-- Capitals do not depend on the case that a word had. -/
theorem capitalized_lowered (word : List Char) : capitalized (lowered word) = capitalized word := by
  cases word with
  | nil => rfl
  | cons first others =>
    change first.toLower.toUpper :: lowered (lowered others) = first.toUpper :: lowered others
    rw [Char.toUpper_toLower_eq_toUpper, lowered_lowered]

/-- Words in lower case are capitalized like the words. -/
theorem map_capitalized_lowered (texts : List (List Char)) :
    (texts.map lowered).map capitalized = texts.map capitalized := by
  rw [List.map_map]
  exact List.map_congr_left fun word _ => capitalized_lowered word

/-- Upper camel case goes through snake case. -/
theorem upperCamel_snake (characters : List Char) :
    upperCamel (snake characters) = upperCamel characters := by
  rw [upperCamel, words_snake, map_capitalized_lowered, upperCamel]

/-- Lower camel case goes through snake case. -/
theorem lowerCamel_snake (characters : List Char) :
    lowerCamel (snake characters) = lowerCamel characters := by
  rw [lowerCamel, words_snake, lowerCamel]
  cases words characters with
  | nil => rfl
  | cons first others =>
    change lowered (lowered first) ++ ((others.map lowered).map capitalized).flatten =
      lowered first ++ (others.map capitalized).flatten
    rw [lowered_lowered, map_capitalized_lowered]

/-- Snake case stays as it is in snake case. -/
theorem snake_snake (characters : List Char) : snake (snake characters) = snake characters := by
  have settles : (words characters).map (lowered ∘ lowered) = (words characters).map lowered :=
    List.map_congr_left fun word _ => lowered_lowered word
  rw [snake, words_snake, List.map_map, settles, snake]

end Snake

section Characters

variable {mark : Char} {characters : List Char}

/-- A character that separates words, or that a text does not have, is in no word of the text. -/
theorem not_mem_words (absent : isSeparator mark = true ∨ mark ∉ characters) :
    ∀ word ∈ words characters, mark ∉ word := by
  intro word listed member
  obtain ⟨found, kept⟩ := mem_of_mem_pieces (List.mem_filter.mp listed).1 mark member
  rcases absent with separator | outside
  · exact absurd separator (ne_true_of_eq_false kept)
  · exact outside found

section Marks

variable (noLetter : mark.isAlpha = false)
include noLetter

/-- Lower case makes letters only. -/
theorem not_mem_lowered {word : List Char} (absent : mark ∉ word) : mark ∉ lowered word := by
  intro member
  obtain ⟨original, found, same⟩ := List.mem_map.mp member
  rw [eq_of_toLower_eq noLetter same] at found
  exact absent found

/-- Capitals are letters only. -/
theorem not_mem_capitalized {word : List Char} (absent : mark ∉ word) :
    mark ∉ capitalized word := by
  cases word with
  | nil => exact absent
  | cons first others =>
    intro member
    rcases List.mem_cons.mp member with same | later
    · exact List.ne_of_not_mem_cons absent (eq_of_toUpper_eq noLetter same.symm).symm
    · exact not_mem_lowered noLetter (List.not_mem_of_not_mem_cons absent) later

/-- Upper camel case adds letters only. -/
theorem not_mem_upperCamel (absent : ∀ word ∈ words characters, mark ∉ word) :
    mark ∉ upperCamel characters := by
  intro member
  obtain ⟨text, listed, inside⟩ := List.mem_flatten.mp member
  obtain ⟨word, found, rfl⟩ := List.mem_map.mp listed
  exact not_mem_capitalized noLetter (absent word found) inside

/-- Lower camel case adds letters only. -/
theorem not_mem_lowerCamel (absent : ∀ word ∈ words characters, mark ∉ word) :
    mark ∉ lowerCamel characters := by
  intro member
  rw [lowerCamel] at member
  cases split : words characters with
  | nil =>
    rw [split] at member
    exact List.not_mem_nil member
  | cons first others =>
    rw [split] at member absent
    obtain ⟨head, tail⟩ := List.forall_mem_cons.mp absent
    rcases List.mem_append.mp member with front | behind
    · exact not_mem_lowered noLetter head front
    · obtain ⟨text, listed, inside⟩ := List.mem_flatten.mp behind
      obtain ⟨word, found, rfl⟩ := List.mem_map.mp listed
      exact not_mem_capitalized noLetter (tail word found) inside

/-- Snake case adds letters and underscores only. -/
theorem not_mem_snake (other : mark ≠ '_') (absent : ∀ word ∈ words characters, mark ∉ word) :
    mark ∉ snake characters := by
  intro member
  rcases mem_of_mem_intercalate member with between | ⟨text, listed, inside⟩
  · exact other (List.mem_singleton.mp between)
  · obtain ⟨word, found, rfl⟩ := List.mem_map.mp listed
    exact not_mem_lowered noLetter (absent word found) inside

/-- An identifier has no character, letters and underscores apart, that separates words or that is
not in the text. -/
theorem not_mem_apply (casing : Casing) (other : mark ≠ '_') {text : String}
    (absent : isSeparator mark = true ∨ mark ∉ text.toList) :
    mark ∉ (casing.apply text).toList := by
  have outside := not_mem_words absent
  simp only [Casing.apply, String.toList_ofList]
  cases casing with
  | upperCamel => exact not_mem_upperCamel noLetter outside
  | lowerCamel => exact not_mem_lowerCamel noLetter outside
  | snake => exact not_mem_snake noLetter other outside

end Marks

/-- An identifier is empty exactly if the text that it is made from has separators only. -/
theorem apply_eq_empty_iff (casing : Casing) (text : String) :
    casing.apply text = "" ↔ ∀ character ∈ text.toList, isSeparator character = true := by
  simp only [← words_eq_nil_iff, Casing.apply, String.ofList_eq_empty_iff]
  cases split : words text.toList with
  | nil =>
    simp only [upperCamel, lowerCamel, snake, split, iff_true]
    cases casing <;> rfl
  | cons first others =>
    obtain ⟨nonempty, -⟩ := undivided_of_mem_words (split ▸ List.mem_cons_self)
    cases first with
    | nil => exact absurd rfl nonempty
    | cons letter letters =>
      simp only [reduceCtorEq, iff_false]
      cases casing with
      | upperCamel => simp [upperCamel, split, capitalized]
      | lowerCamel => simp [lowerCamel, split, lowered]
      | snake => cases others <;> simp [snake, split, lowered, List.intercalate_cons_cons]

end Characters

/-- Snake case is a canonical form: whichever casing is asked for, a name is written like its
snake case, which therefore is its own snake case. -/
theorem apply_snake_apply (casing : Casing) (text : String) :
    casing.apply (Casing.snake.apply text) = casing.apply text := by
  cases casing with
  | upperCamel => simp only [Casing.apply, String.toList_ofList, upperCamel_snake]
  | lowerCamel => simp only [Casing.apply, String.toList_ofList, lowerCamel_snake]
  | snake => simp only [Casing.apply, String.toList_ofList, snake_snake]

end FixtureLiterals.Text
