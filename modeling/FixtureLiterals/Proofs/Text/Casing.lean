import FixtureLiterals.Text.Casing

/-!
# The characters of cased identifiers

Cutting a text into words removes its separators and nothing else. So where a text has no
characters but ASCII letters, digits and separators, its words have letters and digits only,
and each casing writes them with letters and digits, and with underscores between words in
snake case.
-/

namespace FixtureLiterals.Text

/-- The ASCII letters, the digits, and the separators that names are written with. -/
def isPlain (character : Char) : Bool :=
  character.isAlphanum || character == '_' || character == '-' || character == '.'

/-- The ASCII letters, the digits, and all characters that separate words. -/
def isSpelled (character : Char) : Bool := character.isAlphanum || isSeparator character

/-- The ASCII letters, the digits and the underscore. -/
def isIdentifier (character : Char) : Bool := character.isAlphanum || character == '_'

/-- Plain characters are letters, digits or separators. -/
theorem isSpelled_of_isPlain {character : Char} (plain : isPlain character = true) :
    isSpelled character = true := by
  simp only [isPlain, isSpelled, isSeparator, Bool.or_eq_true] at plain ⊢
  rcases plain with ((letter | underscore) | hyphen) | point
  · exact .inl letter
  · exact .inr (.inl (.inl (.inl underscore)))
  · exact .inr (.inl (.inl (.inr hyphen)))
  · exact .inr (.inl (.inr point))

/-- The characters of a piece are those of the text that are no separators. -/
theorem mem_of_mem_pieces {characters piece : List Char} (listed : piece ∈ pieces characters) :
    ∀ character ∈ piece, character ∈ characters ∧ isSeparator character = false := by
  induction characters generalizing piece with
  | nil =>
    obtain rfl : piece = [] := by simpa [pieces] using listed
    exact nofun
  | cons first rest inductionHypothesis =>
    have later {other : List Char} (found : other ∈ pieces rest) : ∀ character ∈ other,
        character ∈ first :: rest ∧ isSeparator character = false := by
      intro character member
      obtain ⟨listed, kept⟩ := inductionHypothesis found character member
      exact ⟨List.mem_cons_of_mem _ listed, kept⟩
    rw [pieces] at listed
    by_cases separator : isSeparator first = true
    · rw [if_pos separator] at listed
      rcases List.mem_cons.mp listed with rfl | found
      · exact nofun
      · exact later found
    · have kept : isSeparator first = false := by simpa using separator
      have own : first ∈ first :: rest ∧ isSeparator first = false := ⟨List.mem_cons_self, kept⟩
      rw [if_neg separator] at listed
      split at listed
      case isTrue hump =>
        rcases List.mem_cons.mp listed with rfl | found
        · intro character member
          rw [List.mem_singleton.mp member]
          exact own
        · exact later found
      case isFalse run =>
        cases rests : pieces rest with
        | nil =>
          rw [rests, extendFirst] at listed
          intro character member
          rw [List.mem_singleton.mp listed, List.mem_singleton] at member
          rw [member]
          exact own
        | cons head others =>
          rw [rests, extendFirst] at listed
          rcases List.mem_cons.mp listed with rfl | found
          · intro character member
            rcases List.mem_cons.mp member with rfl | inside
            · exact own
            · exact later (rests ▸ List.mem_cons_self) character inside
          · exact later (rests ▸ List.mem_cons_of_mem _ found)

/-- Words have letters and digits only, if nothing but separators is written beside these. -/
theorem isAlphanum_of_mem_words {characters word : List Char}
    (spelled : ∀ character ∈ characters, isSpelled character = true)
    (listed : word ∈ words characters) : ∀ character ∈ word, character.isAlphanum = true := by
  intro character member
  obtain ⟨found, kept⟩ := mem_of_mem_pieces (List.mem_filter.mp listed).1 character member
  have allowed := spelled character found
  rwa [isSpelled, kept, Bool.or_false] at allowed

/-- What joins words consists of their characters and of those between them. -/
theorem mem_of_mem_intercalate {between : List Char} {texts : List (List Char)} {character : Char}
    (listed : character ∈ between.intercalate texts) :
    character ∈ between ∨ ∃ text ∈ texts, character ∈ text := by
  induction texts with
  | nil => exact nomatch listed
  | cons first others inductionHypothesis =>
    cases others with
    | nil =>
      rw [List.intercalate_singleton] at listed
      exact .inr ⟨first, List.mem_cons_self, listed⟩
    | cons second others =>
      rw [List.intercalate_cons_cons, List.mem_append, List.mem_append] at listed
      rcases listed with (head | gap) | tail
      · exact .inr ⟨first, List.mem_cons_self, head⟩
      · exact .inl gap
      · rcases inductionHypothesis tail with gap | ⟨text, found, member⟩
        · exact .inl gap
        · exact .inr ⟨text, List.mem_cons_of_mem _ found, member⟩

/-- What is decided for the letters and digits among the first characters holds of all of them. -/
theorem of_isAlphanum (property : Char → Prop)
    (decided : ∀ code : Fin 128, (Char.ofNat code).isAlphanum = true → property (Char.ofNat code))
    {character : Char} (letter : character.isAlphanum = true) : property character := by
  have small : character.toNat < 128 := by
    unfold Char.isAlphanum Char.isAlpha Char.isUpper Char.isLower Char.isDigit at letter
    simp only [Bool.or_eq_true, Bool.and_eq_true, decide_eq_true_eq, ge_iff_le,
      UInt32.le_iff_toNat_le] at letter
    have bounds : 'Z'.val.toNat < 128 ∧ 'z'.val.toNat < 128 ∧ '9'.val.toNat < 128 := by decide
    have code : character.toNat = character.val.toNat := rfl
    omega
  have found := decided ⟨character.toNat, small⟩
  rw [Char.ofNat_toNat] at found
  exact found letter

/-- Letters stay letters in either case, and digits stay as they are. -/
theorem isAlphanum_cased {character : Char} (letter : character.isAlphanum = true) :
    character.toUpper.isAlphanum = true ∧ character.toLower.isAlphanum = true := by
  let property (character : Char) : Prop :=
    character.toUpper.isAlphanum = true ∧ character.toLower.isAlphanum = true
  have decided : ∀ code : Fin 128, (Char.ofNat code).isAlphanum = true →
      property (Char.ofNat code) := by decide
  exact of_isAlphanum property decided letter

/-- A word in lower case has letters and digits only. -/
theorem isAlphanum_lowered {word : List Char}
    (letters : ∀ character ∈ word, character.isAlphanum = true) :
    ∀ character ∈ lowered word, character.isAlphanum = true := by
  intro character listed
  obtain ⟨original, member, rfl⟩ := List.mem_map.mp listed
  exact (isAlphanum_cased (letters original member)).2

/-- A capitalized word has letters and digits only. -/
theorem isAlphanum_capitalized {word : List Char}
    (letters : ∀ character ∈ word, character.isAlphanum = true) :
    ∀ character ∈ capitalized word, character.isAlphanum = true := by
  cases word with
  | nil => exact nofun
  | cons first others =>
    obtain ⟨head, tail⟩ := List.forall_mem_cons.mp letters
    exact List.forall_mem_cons.mpr ⟨(isAlphanum_cased head).1, isAlphanum_lowered tail⟩

section Casings

variable {characters : List Char} (allowed : ∀ character ∈ characters, isSpelled character = true)
include allowed

/-- Upper camel case has letters and digits only. -/
theorem isAlphanum_upperCamel :
    ∀ character ∈ upperCamel characters, character.isAlphanum = true := by
  intro character listed
  obtain ⟨word, spelled, member⟩ := List.mem_flatten.mp listed
  obtain ⟨original, found, rfl⟩ := List.mem_map.mp spelled
  exact isAlphanum_capitalized (isAlphanum_of_mem_words allowed found) character member

/-- Lower camel case has letters and digits only. -/
theorem isAlphanum_lowerCamel :
    ∀ character ∈ lowerCamel characters, character.isAlphanum = true := by
  intro character listed
  rw [lowerCamel] at listed
  cases split : words characters with
  | nil =>
    rw [split] at listed
    exact nomatch listed
  | cons first others =>
    have each : ∀ word ∈ first :: others, ∀ character ∈ word, character.isAlphanum = true :=
      fun word found => isAlphanum_of_mem_words allowed (split ▸ found)
    rw [split] at listed
    rcases List.mem_append.mp listed with head | tail
    · exact isAlphanum_lowered (each first List.mem_cons_self) character head
    · obtain ⟨word, spelled, member⟩ := List.mem_flatten.mp tail
      obtain ⟨original, found, rfl⟩ := List.mem_map.mp spelled
      exact isAlphanum_capitalized (each original (List.mem_cons_of_mem _ found)) character member

/-- Snake case has letters, digits and underscores only. -/
theorem isIdentifier_snake : ∀ character ∈ snake characters, isIdentifier character = true := by
  have each : ∀ word ∈ (words characters).map lowered, ∀ character ∈ word,
      isIdentifier character = true := by
    intro word spelled character member
    obtain ⟨original, found, rfl⟩ := List.mem_map.mp spelled
    have letter := isAlphanum_lowered (isAlphanum_of_mem_words allowed found) character member
    rw [isIdentifier, letter, Bool.true_or]
  intro character listed
  rcases mem_of_mem_intercalate listed with between | ⟨word, spelled, member⟩
  · rw [List.mem_singleton.mp between]
    decide
  · exact each word spelled character member

end Casings

end FixtureLiterals.Text
