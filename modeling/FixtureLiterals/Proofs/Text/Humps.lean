import FixtureLiterals.Proofs.Text.Words

/-!
# Humps by their positions

Whether a hump begins at a position of a text is seen from three characters: the one at the
position, the one in front of it, and the one behind it. Nothing else about the text matters, and
the position itself only in that there has to be a character in front of it.

A hump cuts a text as a separator would that stood in front of it. So if one is written there, the
words of the text are what the library's own splitting at separators leaves, without the pieces
that are empty. The words have all characters of the text but its separators, and no casing adds
or loses one, apart from the case of letters and the underscores of snake case.
-/

namespace FixtureLiterals.Text

/-- Whether a hump begins at a position: an upper-case letter that is not the first character,
behind a lower-case letter or a digit, or behind another upper-case letter and in front of a
lower-case one. -/
def humpAt (characters : List Char) : Nat → Bool
  | 0 => false
  | position + 1 =>
    characters[position]?.any fun previous =>
      characters[position + 1]?.any fun character =>
        character.isUpper && !isSeparator previous &&
          (previous.isLower || previous.isDigit ||
            (previous.isUpper && characters[position + 2]?.any Char.isLower))

/-- A text in which a separator announces every hump. -/
def humpsMarked (characters : List Char) : List Char :=
  characters.zipIdx.flatMap fun entry =>
    if humpAt characters entry.2 then ['_', entry.1] else [entry.1]

/-- The pieces of a text that goes on behind a character, or behind nothing. Where it goes on with
a hump, there is a cut in front of it. -/
def piecesBehind (previous : Option Char) (rest : List Char) : List (List Char) :=
  if previous.any (humpFollows · rest) then [] :: pieces rest else pieces rest

section Behind

/-- At its end, a text has no hump. -/
theorem piecesBehind_nil (previous : Option Char) : piecesBehind previous [] = [[]] := by
  cases previous <;> rfl

/-- Behind a separator there is no hump. -/
theorem humpFollows_of_isSeparator {separator : Char} (separates : isSeparator separator = true)
    (rest : List Char) : humpFollows separator rest = false := by
  have neither := isAlphanum_of_isSeparator separates
  simp only [Char.isAlphanum, Char.isAlpha, Bool.or_eq_false_iff] at neither
  obtain ⟨⟨notUpper, notLower⟩, notDigit⟩ := neither
  cases rest with
  | nil => rfl
  | cons next following =>
    simp only [humpFollows, notUpper, notLower, notDigit, Bool.false_and, Bool.or_false,
      Bool.and_false]

/-- A separator is no hump. -/
theorem humpFollows_separator {separator : Char} (separates : isSeparator separator = true)
    (previous : Char) (rest : List Char) : humpFollows previous (separator :: rest) = false :=
  (humpFollows_append separates previous [] rest).trans rfl

/-- The first character is cut off if it is a separator, and else stays in front of the first piece
of what goes on behind it. -/
theorem pieces_cons (character : Char) (rest : List Char) :
    pieces (character :: rest) =
      if isSeparator character then [] :: piecesBehind (some character) rest
      else (piecesBehind (some character) rest).modifyHead (character :: ·) := by
  rw [pieces, piecesBehind, Option.any_some]
  by_cases cut : isSeparator character = true
  · rw [if_pos cut, if_pos cut, humpFollows_of_isSeparator cut, if_neg Bool.false_ne_true]
  · rw [if_neg cut, if_neg cut]
    by_cases hump : humpFollows character rest = true
    · rw [if_pos hump, if_pos hump, List.modifyHead_cons]
    · rw [if_neg hump, if_neg hump]
      cases split : pieces rest with
      | nil => exact absurd split (pieces_ne_nil rest)
      | cons piece others => rfl

end Behind

section Positions

/-- Whether a hump begins behind the front of a text is seen from the last character of the front
and from what goes on behind it. -/
theorem humpAt_length (front rest : List Char) :
    humpAt (front ++ rest) front.length = front.getLast?.any (humpFollows · rest) := by
  rcases List.eq_nil_or_concat' front with rfl | ⟨earlier, previous, rfl⟩
  · rfl
  · have behind (offset : Nat) : (earlier ++ [previous] ++ rest)[earlier.length + 1 + offset]? =
        rest[offset]? := by
      rw [List.getElem?_append_right (by simp), List.length_append, List.length_singleton,
        Nat.add_sub_cancel_left]
    have last : (earlier ++ [previous] ++ rest)[earlier.length]? = some previous := by simp
    rw [List.getLast?_concat, Option.any_some, List.length_append, List.length_singleton, humpAt,
      last, Option.any_some, behind 0, behind 1]
    cases rest with
    | nil => rfl
    | cons next following =>
      rw [List.getElem?_cons_zero, Option.any_some, List.getElem?_cons_succ,
        ← List.head?_eq_getElem?, Bool.and_assoc]
      by_cases separates : isSeparator previous = true
      · rw [humpFollows_of_isSeparator separates, separates, Bool.not_true, Bool.false_and,
          Bool.and_false]
      · rw [humpFollows, Bool.eq_false_iff.mpr separates, Bool.not_false, Bool.true_and]

/-- Splitting at separators, those that announce humps included, leaves the pieces.

The induction is on what is left of the text, and each step moves a character to the front. -/
theorem splitOnP_marked (front rest : List Char) :
    ((rest.zipIdx front.length).flatMap fun entry =>
        if humpAt (front ++ rest) entry.2 then ['_', entry.1] else [entry.1]).splitOnP isSeparator =
      piecesBehind front.getLast? rest := by
  induction rest generalizing front with
  | nil => rw [piecesBehind_nil, List.zipIdx_nil, List.flatMap_nil, List.splitOnP_nil]
  | cons character rest inductionHypothesis =>
    have later := inductionHypothesis (front ++ [character])
    rw [List.append_assoc, List.singleton_append, List.getLast?_concat, List.length_append,
      List.length_singleton] at later
    rw [List.zipIdx_cons, List.flatMap_cons, humpAt_length, piecesBehind]
    by_cases hump : front.getLast?.any (humpFollows · (character :: rest)) = true
    · have announced : isSeparator '_' = true := rfl
      rw [if_pos hump, if_pos hump, List.cons_append, List.singleton_append,
        List.splitOnP_cons_eq_if_modifyHead, if_pos announced,
        List.splitOnP_cons_eq_if_modifyHead, later, pieces_cons]
    · rw [if_neg hump, if_neg hump, List.singleton_append, List.splitOnP_cons_eq_if_modifyHead,
        later, pieces_cons]

/-- The words of a text are cut at its separators and in front of its humps. -/
theorem words_eq_splitOnP (characters : List Char) :
    words characters =
      ((humpsMarked characters).splitOnP isSeparator).filter fun piece => !piece.isEmpty := by
  have marked : (humpsMarked characters).splitOnP isSeparator = pieces characters :=
    splitOnP_marked [] characters
  rw [marked, words]

/-- An acronym is cut from the word behind it, and a digit in front of a capital, too. -/
example : humpsMarked "HTTPServer-v2Beta".toList = "HTTP_Server-v2_Beta".toList := by decide

end Positions

section Characters

/-- Capitals are lost in lower case. -/
theorem lowered_capitalized (word : List Char) : lowered (capitalized word) = lowered word := by
  cases word with
  | nil => rfl
  | cons first others =>
    change first.toUpper.toLower :: lowered (lowered others) = first.toLower :: lowered others
    rw [Char.toLower_toUpper_eq_toLower, lowered_lowered]

/-- Words that are run together are put in lower case one by one. -/
theorem lowered_flatten (texts : List (List Char)) :
    lowered texts.flatten = (texts.map lowered).flatten :=
  List.map_flatten

/-- Whatever words are capitalized, in lower case they are the same. -/
theorem lowered_flatten_capitalized (texts : List (List Char)) :
    lowered (texts.map capitalized).flatten = lowered texts.flatten := by
  rw [lowered_flatten, lowered_flatten, List.map_map]
  exact congrArg List.flatten (List.map_congr_left fun word _ => lowered_capitalized word)

/-- Without the characters between them, joined texts are run together. -/
theorem filter_intercalate {mark : Char} {texts : List (List Char)}
    (absent : ∀ text ∈ texts, mark ∉ text) :
    ([mark].intercalate texts).filter (· != mark) = texts.flatten := by
  have kept (text : List Char) (listed : text ∈ texts) : text.filter (· != mark) = text :=
    List.filter_eq_self.mpr fun character member =>
      bne_iff_ne.mpr fun same => absent text listed (same ▸ member)
  induction texts with
  | nil => rfl
  | cons first others inductionHypothesis =>
    have head := kept first List.mem_cons_self
    have tail := inductionHypothesis
      (fun text listed => absent text (List.mem_cons_of_mem _ listed))
      fun text listed => kept text (List.mem_cons_of_mem _ listed)
    cases others with
    | nil => rw [List.intercalate_singleton, head, List.flatten_singleton]
    | cons second others =>
      rw [List.intercalate_cons_cons, List.filter_append, List.filter_append, head, tail,
        List.filter_cons_of_neg (by simp), List.filter_nil, List.append_nil]
      rfl

/-- A casing keeps all characters but the separators, up to the case of letters, and adds none but
underscores. -/
theorem lowered_filter_apply (casing : Casing) (text : String) :
    lowered ((casing.apply text).toList.filter (· != '_')) =
      lowered (text.toList.filter fun character => !isSeparator character) := by
  have absent : ∀ word ∈ words text.toList, '_' ∉ word := not_mem_words (.inl rfl)
  have unmarked {characters : List Char} (none : '_' ∉ characters) :
      characters.filter (· != '_') = characters :=
    List.filter_eq_self.mpr fun character member =>
      bne_iff_ne.mpr fun same => none (same ▸ member)
  rw [← flatten_words]
  cases casing with
  | upperCamel =>
    simp only [Casing.apply, String.toList_ofList]
    rw [unmarked (not_mem_upperCamel (by decide) absent), upperCamel, lowered_flatten_capitalized]
  | lowerCamel =>
    simp only [Casing.apply, String.toList_ofList]
    rw [unmarked (not_mem_lowerCamel (by decide) absent), lowerCamel]
    cases words text.toList with
    | nil => rfl
    | cons first others =>
      change (lowered first ++ (others.map capitalized).flatten).map Char.toLower = _
      rw [List.map_append, ← lowered, ← lowered, lowered_lowered, lowered_flatten_capitalized,
        List.flatten_cons, lowered, lowered, lowered, List.map_append]
  | snake =>
    have settled : ∀ word ∈ (words text.toList).map lowered, '_' ∉ word := by
      intro word listed
      obtain ⟨original, found, rfl⟩ := List.mem_map.mp listed
      exact not_mem_lowered (by decide) (absent original found)
    simp only [Casing.apply, String.toList_ofList]
    rw [snake, filter_intercalate settled, ← lowered_flatten, lowered_lowered]

end Characters

end FixtureLiterals.Text
