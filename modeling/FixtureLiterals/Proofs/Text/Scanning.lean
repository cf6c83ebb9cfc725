import FixtureLiterals.Proofs.Text.Humps

/-!
# Words found in place

The words of a text can be found without building any of them character by character: a scan runs
over the characters once, remembers the position at which a word has begun, and takes the word out
of the text in one piece where it ends. It looks one character back and one ahead to see a hump.

Such a scan can go wrong in two ways. It could look back from the first character, or take out a
piece that does not begin and end between characters, as positions count bytes. Both are written
here as a result that is missing. None ever is: a scan looks back only from within a word, and
remembers only positions at which characters begin. What it finds are the words.
-/

namespace FixtureLiterals.Text

/-- Characters with the positions of their first bytes, from a position on. -/
def positioned (position : Nat) : List Char → List (Nat × Char)
  | [] => []
  | character :: rest => (position, character) :: positioned (position + character.utf8Size) rest

/-- The part of a text between two positions, if they are in order and each of them is one between
characters, or at an end of the text. -/
def slice? (text : String) (start stop : Nat) : Option String :=
  if bounds : String.Pos.Raw.IsValid text ⟨start⟩ ∧ String.Pos.Raw.IsValid text ⟨stop⟩ ∧
      start ≤ stop then
    some (text.extract ⟨⟨start⟩, bounds.1⟩ ⟨⟨stop⟩, bounds.2.1⟩)
  else none

/-- The character in front of the one at an index, if the index is not the first one. -/
def lookBehind? (entries : List (Nat × Char)) : Nat → Option Char
  | 0 => none
  | index + 1 => entries[index]?.map Prod.snd

/-- What a scan remembers. -/
structure Scan where
  /-- The position at which a word has begun that has not ended yet. -/
  start? : Option Nat
  /-- The words that have ended. -/
  found : List String

namespace Scan

/-- Ends the word that has begun, if one has. -/
def close (text : String) (scan : Scan) (position : Nat) : Option Scan :=
  match scan.start? with
  | none => some scan
  | some start => (slice? text start position).map fun word => ⟨none, scan.found ++ [word]⟩

/-- Whether the character at an index begins a hump within the word that has begun. -/
def meetsHump (entries : List (Nat × Char)) (scan : Scan) (index : Nat) (character : Char) :
    Option Bool :=
  if scan.start?.isSome && character.isUpper then
    (lookBehind? entries index).map fun previous =>
      previous.isLower || previous.isDigit ||
        (previous.isUpper && (entries[index + 1]?.map Prod.snd).any Char.isLower)
  else some false

/-- One character further: a separator ends a word, a hump ends one and begins the next, and any
other character begins a word where none has begun. -/
def advance (text : String) (entries : List (Nat × Char)) (scan : Scan)
    (entry : (Nat × Char) × Nat) : Option Scan :=
  if isSeparator entry.1.2 then scan.close text entry.1.1
  else do
    let hump ← scan.meetsHump entries entry.2 entry.1.2
    let closed ← if hump then scan.close text entry.1.1 else some scan
    return { closed with start? := closed.start?.or (some entry.1.1) }

end Scan

/-- The words that a scan over a text finds. The end of the text ends the last one. -/
def wordsInPlace? (text : String) : Option (List String) :=
  let entries := positioned 0 text.toList
  let ended := entries.zipIdx.foldlM (Scan.advance text entries) ⟨none, []⟩ >>= fun scan =>
    scan.close text text.utf8ByteSize
  ended.map Scan.found

section Positions

/-- The bytes that characters take. -/
def bytes (characters : List Char) : Nat := (String.ofList characters).utf8ByteSize

/-- A character takes its bytes behind those in front of it. -/
theorem bytes_append_singleton (front : List Char) (character : Char) :
    bytes (front ++ [character]) = bytes front + character.utf8Size := by
  rw [bytes, String.ofList_append, String.utf8ByteSize_append, ← bytes,
    ← String.singleton_eq_ofList, String.utf8ByteSize_singleton]

/-- The characters that were given positions are those of the text. -/
theorem getElem?_positioned (position : Nat) (characters : List Char) (index : Nat) :
    (positioned position characters)[index]?.map Prod.snd = characters[index]? := by
  induction characters generalizing position index with
  | nil => rfl
  | cons first rest inductionHypothesis =>
    cases index with
    | zero => rfl
    | succ index => exact inductionHypothesis (position + first.utf8Size) index

/-- A part of a text that begins and ends between characters can be taken out. -/
theorem slice?_append {text front word rest : String} (parts : text = front ++ word ++ rest) :
    slice? text front.utf8ByteSize (front ++ word).utf8ByteSize = some word := by
  have begins : String.Pos.Raw.IsValid text ⟨front.utf8ByteSize⟩ :=
    String.Pos.Raw.isValid_iff_exists_append.mpr
      ⟨front, word ++ rest, by rw [parts, String.append_assoc], rfl⟩
  have ends : String.Pos.Raw.IsValid text ⟨(front ++ word).utf8ByteSize⟩ :=
    String.Pos.Raw.isValid_iff_exists_append.mpr ⟨front ++ word, rest, parts, rfl⟩
  have ordered : front.utf8ByteSize ≤ (front ++ word).utf8ByteSize := by
    rw [String.utf8ByteSize_append]
    exact Nat.le_add_right _ _
  have first : String.Pos.Splits (⟨⟨front.utf8ByteSize⟩, begins⟩ : text.Pos) front (word ++ rest) :=
    ⟨by rw [parts, String.append_assoc], rfl⟩
  have second : String.Pos.Splits (⟨⟨(front ++ word).utf8ByteSize⟩, ends⟩ : text.Pos)
      (front ++ word) rest := ⟨parts, rfl⟩
  obtain ⟨inOrder, same⟩ := String.copy_slice_eq_iff_splits.mpr ⟨front, rest, first, second⟩
  rw [slice?, dif_pos ⟨begins, ends, ordered⟩, String.extract_eq_copy_slice _ _ inOrder, same]

end Positions

/-- The pieces that are words, as texts. -/
def kept (pieces : List (List Char)) : List String :=
  (pieces.filter fun piece => !piece.isEmpty).map String.ofList

/-- A piece in front of others is kept as a word, or left out if it is empty. -/
theorem kept_cons (piece : List Char) (others : List (List Char)) :
    kept (piece :: others) = kept [piece] ++ kept others := by
  cases piece <;> rfl

/-- With nothing in front, all pieces are left. -/
theorem piecesBehind_none (rest : List Char) :
    (piecesBehind none rest).modifyHead ([] ++ ·) = pieces rest := by
  change (pieces rest).modifyHead ([] ++ ·) = pieces rest
  cases pieces rest <;> rfl

section Continuing

variable {character : Char} (previous : Option Char) (word rest : List Char)

/-- A separator ends the word in front of it. -/
theorem piecesBehind_separator (separates : isSeparator character = true) :
    (piecesBehind previous (character :: rest)).modifyHead (word ++ ·) = word :: pieces rest := by
  have flat : previous.any (humpFollows · (character :: rest)) = false := by
    cases previous with
    | none => rfl
    | some previous => exact humpFollows_separator separates previous rest
  rw [piecesBehind, flat, if_neg Bool.false_ne_true, pieces_cons, if_pos separates,
    List.modifyHead_cons, List.append_nil, piecesBehind, Option.any_some,
    humpFollows_of_isSeparator separates, if_neg Bool.false_ne_true]

variable (joins : ¬ isSeparator character = true)
include joins

/-- A hump ends the word in front of it, too, and begins another one. -/
theorem piecesBehind_hump (hump : previous.any (humpFollows · (character :: rest)) = true) :
    (piecesBehind previous (character :: rest)).modifyHead (word ++ ·) =
      word :: (piecesBehind (some character) rest).modifyHead ([character] ++ ·) := by
  rw [piecesBehind, if_pos hump, List.modifyHead_cons, List.append_nil, pieces_cons, if_neg joins]
  rfl

/-- Any other character is one more of the word. -/
theorem piecesBehind_inner (flat : ¬ previous.any (humpFollows · (character :: rest)) = true) :
    (piecesBehind previous (character :: rest)).modifyHead (word ++ ·) =
      (piecesBehind (some character) rest).modifyHead (word ++ [character] ++ ·) := by
  rw [piecesBehind, if_neg flat, pieces_cons, if_neg joins, List.modifyHead_modifyHead]
  congr 1
  funext piece
  simp

end Continuing

/-- What a scan remembers when it has reached the end of a word, or of a part of one, behind the
front of a text. -/
def Scan.reached (front word : List Char) (found : List String) : Scan where
  start? := if word.isEmpty then none else some (bytes front)
  found := found

namespace Scan

variable {text : String} (front word rest : List Char) (found : List String)

/-- Where a word has been reached, it can be ended. -/
theorem close_reached (parts : text.toList = front ++ word ++ rest) :
    (reached front word found).close text (bytes (front ++ word)) =
      some ⟨none, found ++ kept [word]⟩ := by
  cases word with
  | nil => simp [close, reached, kept]
  | cons first others =>
    have spelled : text = String.ofList front ++ String.ofList (first :: others) ++
        String.ofList rest := by
      rw [← String.ofList_append, ← String.ofList_append, ← parts, String.ofList_toList]
    have taken := slice?_append spelled
    rw [← String.ofList_append] at taken
    change (slice? text (bytes front) (bytes (front ++ first :: others))).map _ = _
    rw [bytes, bytes, taken]
    rfl

/-- Where a word has been reached, there is a character to look back to, and a hump is met exactly
if one begins behind it. -/
theorem meetsHump_reached (character : Char)
    (parts : text.toList = front ++ word ++ character :: rest) :
    (reached front word found).meetsHump (positioned 0 text.toList) (front ++ word).length
      character = some (word.getLast?.any (humpFollows · (character :: rest))) := by
  rcases List.eq_nil_or_concat' word with rfl | ⟨earlier, previous, rfl⟩
  · rfl
  · have behind : lookBehind? (positioned 0 text.toList) (front ++ (earlier ++ [previous])).length =
        some previous := by
      rw [← List.append_assoc, List.length_append, List.length_singleton, lookBehind?,
        getElem?_positioned, parts]
      simp
    have ahead : (positioned 0 text.toList)[(front ++ (earlier ++ [previous])).length + 1]?.map
        Prod.snd = rest.head? := by
      rw [getElem?_positioned, parts, List.getElem?_append_right (Nat.le_add_right _ 1),
        Nat.add_sub_cancel_left, List.getElem?_cons_succ, List.head?_eq_getElem?]
    have begun : (reached front (earlier ++ [previous]) found).start?.isSome = true := by
      simp [reached]
    rw [meetsHump, begun, Bool.true_and, List.getLast?_concat, Option.any_some, humpFollows, behind,
      ahead, Option.map_some]
    cases character.isUpper <;> rfl

/-- One character further, the scan has reached the character: behind a separator there is no word,
at a hump the character is the first one of the next word, and else it is one more of the word. -/
theorem advance_reached (character : Char)
    (parts : text.toList = front ++ word ++ character :: rest) :
    (reached front word found).advance text (positioned 0 text.toList)
        ((bytes (front ++ word), character), (front ++ word).length) =
      some (if isSeparator character then
          reached (front ++ word ++ [character]) [] (found ++ kept [word])
        else if word.getLast?.any (humpFollows · (character :: rest)) then
          reached (front ++ word) [character] (found ++ kept [word])
        else reached front (word ++ [character]) found) := by
  have ended := close_reached front word (character :: rest) found parts
  rw [advance]
  by_cases separates : isSeparator character = true
  · rw [if_pos separates, if_pos separates, ended]
    rfl
  · rw [if_neg separates, if_neg separates, meetsHump_reached front word rest found character parts]
    by_cases hump : word.getLast?.any (humpFollows · (character :: rest)) = true
    · rw [if_pos hump]
      simp only [hump, Option.bind_eq_bind, Option.bind_some, if_true, ended]
      rfl
    · rw [if_neg hump]
      simp only [hump, Option.bind_eq_bind, Option.bind_some]
      cases word with
      | nil => simp [reached]
      | cons first others => rfl

/-- From wherever a scan has got to, it runs to the end of the text, and finds the words that are
left of it.

The induction is on what is left of the text. -/
theorem run_reached (parts : text.toList = front ++ word ++ rest) :
    (((positioned (bytes (front ++ word)) rest).zipIdx (front ++ word).length).foldlM
        (advance text (positioned 0 text.toList)) (reached front word found) >>= fun scan =>
      scan.close text text.utf8ByteSize) =
    some ⟨none, found ++ kept ((piecesBehind word.getLast? rest).modifyHead (word ++ ·))⟩ := by
  induction rest generalizing front word found with
  | nil =>
    have size : text.utf8ByteSize = bytes (front ++ word) := by
      rw [bytes, ← List.append_nil (front ++ word), ← parts, String.ofList_toList]
    rw [piecesBehind_nil, size, List.modifyHead_cons, List.append_nil]
    exact close_reached front word [] found parts
  | cons character rest inductionHypothesis =>
    have position : bytes (front ++ word) + character.utf8Size =
        bytes (front ++ word ++ [character]) := (bytes_append_singleton _ _).symm
    have index : (front ++ word).length + 1 = (front ++ word ++ [character]).length := by
      simp only [List.length_append, List.length_singleton]
    rw [positioned, List.zipIdx_cons, List.foldlM_cons, advance_reached front word rest found
      character parts, Option.bind_eq_bind, Option.bind_some, position, index]
    by_cases separates : isSeparator character = true
    · have later := inductionHypothesis (front ++ word ++ [character]) [] (found ++ kept [word])
        (by simp [parts])
      rw [List.append_nil, List.getLast?_nil, piecesBehind_none, List.append_assoc found,
        ← kept_cons] at later
      rw [if_pos separates, piecesBehind_separator _ word rest separates]
      exact later
    · by_cases hump : word.getLast?.any (humpFollows · (character :: rest)) = true
      · have later := inductionHypothesis (front ++ word) [character] (found ++ kept [word])
          (by simp [parts])
        rw [List.append_assoc found, ← kept_cons] at later
        rw [if_neg separates, if_pos hump, piecesBehind_hump _ word rest separates hump]
        exact later
      · have later := inductionHypothesis front (word ++ [character]) found (by simp [parts])
        rw [← List.append_assoc, List.getLast?_concat] at later
        rw [if_neg separates, if_neg hump, piecesBehind_inner _ word rest separates hump]
        exact later

end Scan

/-- A scan over a text goes wrong nowhere, and finds the words of the text. -/
theorem wordsInPlace?_eq (text : String) :
    wordsInPlace? text = some ((words text.toList).map String.ofList) := by
  have run := Scan.run_reached [] [] text.toList [] rfl
  rw [List.getLast?_nil, piecesBehind_none, List.nil_append] at run
  exact congrArg (Option.map Scan.found) run

/-- Words are exactly what lies between the separators and humps of a text, wherever it is not
empty, and an in-place scan of the text finds them without going wrong. So words are not empty and
have no separators, they have all other characters of the text in order, and whichever casing they
are written in, they keep these characters up to the case of letters. -/
theorem words_exact (text : String) :
    words text.toList = ((humpsMarked text.toList).splitOnP isSeparator).filter
        (fun piece => !piece.isEmpty) ∧
      wordsInPlace? text = some ((words text.toList).map String.ofList) ∧
      (∀ word ∈ words text.toList, word ≠ [] ∧
        ∀ character ∈ word, isSeparator character = false) ∧
      (words text.toList).flatten = text.toList.filter (fun character => !isSeparator character) ∧
      ∀ casing : Casing, lowered ((casing.apply text).toList.filter (· != '_')) =
        lowered (text.toList.filter fun character => !isSeparator character) := by
  refine ⟨words_eq_splitOnP text.toList, wordsInPlace?_eq text, fun word listed => ?_,
    flatten_words text.toList, fun casing => lowered_filter_apply casing text⟩
  exact undivided_of_mem_words listed

end FixtureLiterals.Text
