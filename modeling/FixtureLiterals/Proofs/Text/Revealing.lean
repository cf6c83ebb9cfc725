import FixtureLiterals.Text.Numeral
import Mathlib.Data.List.Forall2

/-!
# Texts that reveal what is written

A text is made of parts without any mark of where one part ends and the next one begins.
It can still be told apart if each part can, whatever stands behind it. Two texts reveal a
fact about what is written in them if the fact follows wherever the texts agree at the
beginning of longer ones, and the longer ones then go on alike.

The statements here compose: a fixed text in front or behind reveals nothing new, and two
parts in a row reveal what each of them does. A word of some class of characters ends
where the class does, which is how numbers and identifiers are told apart.
-/

namespace FixtureLiterals.Text

/-- Where the texts begin two longer ones that agree, the conclusion follows and the rests
agree as well. What the rests may look like is up to `follows`. -/
def Reveals (follows : List Char → Prop) (first second : List Char) (conclusion : Prop) : Prop :=
  ∀ rest other, follows rest → follows other → first ++ rest = second ++ other →
    conclusion ∧ rest = other

/-- Texts of which neither begins like the other, whatever stands behind them. -/
def Apart (first second : List Char) : Prop := ∀ rest other, first ++ rest ≠ second ++ other

/-- Any rest of a text. -/
def Anything (_ : List Char) : Prop := True

/-- The rests that go on with a fixed text. -/
def Begins (opening rest : List Char) : Prop := ∃ tail, rest = opening ++ tail

/-- The rests that do not go on with a character of a class. -/
def Leaves (member : Char → Bool) (rest : List Char) : Prop :=
  ∀ character ∈ rest.head?, member character = false

/-- What is apart does so in either order. -/
theorem Apart.symm {first second : List Char} (apart : Apart first second) :
    Apart second first :=
  fun rest other same => apart other rest same.symm

/-- Texts behind the same beginning are as far apart as they are alone. -/
theorem Apart.prefixed {first second : List Char} (opening : List Char)
    (apart : Apart first second) : Apart (opening ++ first) (opening ++ second) := by
  intro rest other same
  simp only [List.append_assoc, List.append_cancel_left_eq] at same
  exact apart rest other same

/-- Whatever is appended, texts that begin apart stay apart. -/
theorem Apart.append {first second : List Char} (apart : Apart first second)
    (behind beyond : List Char) : Apart (first ++ behind) (second ++ beyond) := by
  intro rest other same
  simp only [List.append_assoc] at same
  exact apart _ _ same

/-- Whatever is appended to one of them, texts that begin apart stay apart. -/
theorem Apart.longer {first second : List Char} (apart : Apart first second)
    (behind : List Char) : Apart (first ++ behind) second := by
  intro rest other same
  rw [List.append_assoc] at same
  exact apart _ _ same

/-- Texts with different first characters are apart. -/
theorem Apart.of_heads {first second : Char} (different : first ≠ second)
    (left right : List Char) : Apart (first :: left) (second :: right) := by
  intro rest other same
  exact different (List.cons.inj same).1

/-- Texts that would reveal something wrong are apart. -/
theorem Apart.of_reveals {first second : List Char} (reveals : Reveals Anything first second False) :
    Apart first second :=
  fun rest other same => (reveals rest other trivial trivial same).1

/-- Whether two texts have different characters at some place before either of them ends. -/
def differ : List Char → List Char → Bool
  | first :: left, second :: right => if first = second then differ left right else true
  | _, _ => false

/-- Texts that differ are apart. -/
theorem Apart.of_differ {first second : List Char} (different : differ first second = true) :
    Apart first second := by
  induction first generalizing second with
  | nil => exact nomatch different
  | cons head first inductionHypothesis =>
    cases second with
    | nil => exact nomatch different
    | cons character second =>
      rw [differ] at different
      by_cases same : head = character
      · rw [if_pos same] at different
        rw [same]
        exact (inductionHypothesis different).prefixed [character]
      · exact Apart.of_heads same first second

namespace Reveals

variable {follows later : List Char → Prop} {first second third fourth : List Char}
  {conclusion consequence : Prop}

/-- Texts that are apart reveal everything, as they never agree. -/
theorem of_apart (apart : Apart first second) : Reveals follows first second conclusion :=
  fun rest other _ _ same => absurd same (apart rest other)

/-- Texts reveal the same in either order. -/
theorem symm (reveals : Reveals follows first second conclusion) :
    Reveals follows second first conclusion := by
  intro rest other permitted allowed same
  obtain ⟨holds, agree⟩ := reveals other rest allowed permitted same.symm
  exact ⟨holds, agree.symm⟩

/-- A text that agrees with itself reveals what holds anyway. -/
theorem refl (text : List Char) (holds : conclusion) : Reveals follows text text conclusion :=
  fun _ _ _ _ same => ⟨holds, List.append_cancel_left same⟩

/-- What follows from something revealed is revealed. -/
theorem imp (reveals : Reveals follows first second conclusion)
    (implied : conclusion → consequence) : Reveals follows first second consequence := by
  intro rest other permitted allowed same
  obtain ⟨holds, agree⟩ := reveals rest other permitted allowed same
  exact ⟨implied holds, agree⟩

/-- Fewer rests leave no more doubts. -/
theorem narrow (reveals : Reveals follows first second conclusion)
    (included : ∀ rest, later rest → follows rest) : Reveals later first second conclusion :=
  fun rest other permitted allowed => reveals rest other (included _ permitted) (included _ allowed)

/-- A fixed text in front makes no difference. -/
theorem prefixed (reveals : Reveals follows first second conclusion) (opening : List Char) :
    Reveals follows (opening ++ first) (opening ++ second) conclusion := by
  intro rest other permitted allowed same
  simp only [List.append_assoc, List.append_cancel_left_eq] at same
  exact reveals rest other permitted allowed same

/-- Two parts in a row reveal what each of them does, where the second may build on what the
first one reveals. -/
theorem andThen (reveals : Reveals follows first second conclusion)
    (revealsLater : conclusion → Reveals later third fourth consequence)
    (behind : ∀ rest, later rest → follows (third ++ rest))
    (beyond : ∀ rest, later rest → follows (fourth ++ rest)) :
    Reveals later (first ++ third) (second ++ fourth) (conclusion ∧ consequence) := by
  intro rest other permitted allowed same
  simp only [List.append_assoc] at same
  obtain ⟨holds, agree⟩ := reveals _ _ (behind rest permitted) (beyond other allowed) same
  obtain ⟨holdsLater, agreeLater⟩ := revealsLater holds rest other permitted allowed agree
  exact ⟨⟨holds, holdsLater⟩, agreeLater⟩

/-- Two parts in a row reveal what each of them does. -/
theorem append (reveals : Reveals follows first second conclusion)
    (revealsLater : Reveals later third fourth consequence)
    (behind : ∀ rest, later rest → follows (third ++ rest))
    (beyond : ∀ rest, later rest → follows (fourth ++ rest)) :
    Reveals later (first ++ third) (second ++ fourth) (conclusion ∧ consequence) :=
  reveals.andThen (fun _ => revealsLater) behind beyond

/-- A fixed text behind makes no difference, where the part may be followed by it. -/
theorem closed (reveals : Reveals follows first second conclusion) (closing : List Char)
    (behind : ∀ rest, follows (closing ++ rest)) :
    Reveals later (first ++ closing) (second ++ closing) conclusion := by
  intro rest other _ _ same
  simp only [List.append_assoc] at same
  obtain ⟨holds, agree⟩ := reveals _ _ (behind rest) (behind other) same
  exact ⟨holds, List.append_cancel_left agree⟩

/-- What is revealed by one part may be written again behind it. -/
theorem followed (reveals : Reveals Anything first second conclusion)
    (again : conclusion → third = fourth) :
    Reveals later (first ++ third) (second ++ fourth) conclusion := by
  have repeated (holds : conclusion) : Reveals later third fourth True := by
    rw [again holds]
    exact .refl _ trivial
  exact (reveals.andThen repeated (fun _ _ => trivial) fun _ _ => trivial).imp And.left

/-- A fixed string in front makes no difference. -/
theorem opened {left right : String}
    (reveals : Reveals follows left.toList right.toList conclusion) (opening : String) :
    Reveals follows (opening ++ left).toList (opening ++ right).toList conclusion := by
  rw [String.toList_append, String.toList_append]
  exact reveals.prefixed opening.toList

/-- A fixed string behind makes no difference, where the part may be followed by it. -/
theorem ended {left right : String}
    (reveals : Reveals follows left.toList right.toList conclusion) (closing : String)
    (behind : ∀ rest, follows (closing.toList ++ rest)) :
    Reveals later (left ++ closing).toList (right ++ closing).toList conclusion := by
  rw [String.toList_append, String.toList_append]
  exact reveals.closed closing.toList behind

/-- Texts that are the same show what they reveal, where nothing may follow them. -/
theorem of_eq {left right : String}
    (reveals : Reveals follows left.toList right.toList conclusion) (alone : follows [])
    (same : left = right) : conclusion :=
  (reveals [] [] alone alone (by rw [same])).1

end Reveals

/-- A text in front of one that leaves a class, leaves it too unless it is empty. -/
theorem leaves_append {member : Char → Bool} {character : Char} (text rest : List Char)
    (outside : member character = false) : Leaves member (character :: text ++ rest) := by
  intro head found
  obtain rfl : character = head := by simpa using found
  exact outside

/-- A word that something else follows does not start like that. -/
theorem apart_word {member : Char → Bool} {word : List Char}
    (within : ∀ character ∈ word, member character = true) {closing character : Char}
    (different : closing ≠ character) (outside : member character = false)
    (rest others : List Char) : Apart (word ++ closing :: rest) (character :: others) := by
  cases word with
  | nil => exact Apart.of_heads different rest others
  | cons first word =>
    refine Apart.of_heads ?_ _ others
    rintro rfl
    rw [within first List.mem_cons_self] at outside
    exact nomatch outside

/-- A word that something else follows does not start like a text that has neither this nor
the characters of the word alone. -/
theorem apart_foreign {member : Char → Bool} {word text : List Char}
    (within : ∀ character ∈ word, member character = true)
    (foreign : ∃ character ∈ text, member character = false) {closing : Char}
    (different : closing ∉ text) (rest : List Char) : Apart (word ++ closing :: rest) text := by
  induction word generalizing text with
  | nil =>
    cases text with
    | nil =>
      obtain ⟨character, listed, -⟩ := foreign
      exact nomatch listed
    | cons head text =>
      refine Apart.of_heads ?_ rest text
      rintro rfl
      exact different List.mem_cons_self
  | cons first word inductionHypothesis =>
    obtain ⟨inside, others⟩ := List.forall_mem_cons.mp within
    cases text with
    | nil =>
      obtain ⟨character, listed, -⟩ := foreign
      exact nomatch listed
    | cons head text =>
      by_cases same : first = head
      · rw [← same] at foreign different ⊢
        have outside : ∃ character ∈ text, member character = false := by
          obtain ⟨character, listed, outside⟩ := foreign
          rcases List.mem_cons.mp listed with rfl | later
          · rw [inside] at outside
            exact nomatch outside
          · exact ⟨character, later, outside⟩
        exact (inductionHypothesis others outside fun later => different (.tail _ later)).prefixed
          [first]
      · exact Apart.of_heads same _ text

/-- Two words of a class that are followed by something else are revealed. -/
theorem reveals_word {member : Char → Bool} {first second : List Char}
    (within : ∀ character ∈ first, member character = true)
    (inside : ∀ character ∈ second, member character = true) :
    Reveals (Leaves member) first second (first = second) := by
  intro rest other leaves stops same
  induction first generalizing second with
  | nil =>
    cases second with
    | nil => exact ⟨rfl, same⟩
    | cons character second =>
      have begun : rest = character :: (second ++ other) := same
      have outside : member character = false := leaves character (by rw [begun, List.head?_cons]; rfl)
      rw [inside character List.mem_cons_self] at outside
      exact nomatch outside
  | cons character first inductionHypothesis =>
    cases second with
    | nil =>
      have begun : character :: (first ++ rest) = other := same
      have outside : member character = false := stops character (by rw [← begun, List.head?_cons]; rfl)
      rw [within character List.mem_cons_self] at outside
      exact nomatch outside
    | cons head second =>
      obtain ⟨rfl, later⟩ := List.cons.inj same
      obtain ⟨rfl, agree⟩ := inductionHypothesis
        (fun other listed => within other (List.mem_cons_of_mem _ listed))
        (fun other listed => inside other (List.mem_cons_of_mem _ listed)) later
      exact ⟨rfl, agree⟩

/-- Different words of a class that are followed by something else are apart. -/
theorem Apart.of_words {member : Char → Bool} {first second : List Char}
    (within : ∀ character ∈ first, member character = true)
    (inside : ∀ character ∈ second, member character = true) (different : first ≠ second)
    {opening closing : Char} (outside : member opening = false) (stops : member closing = false)
    (behind beyond : List Char) :
    Apart (first ++ opening :: behind) (second ++ closing :: beyond) := by
  intro rest other same
  rw [List.append_assoc, List.append_assoc] at same
  have words := reveals_word within inside _ _ (leaves_append behind rest outside)
    (leaves_append beyond other stops) same
  exact different words.1

/-- A single character is revealed. -/
theorem reveals_character (first second : Char) :
    Reveals Anything [first] [second] (first = second) := by
  intro rest other _ _ same
  exact ⟨(List.cons.inj same).1, (List.cons.inj same).2⟩

/-- Items in a row are revealed one by one, as long as each of them may be followed by the next
one and by what follows the last one, and none starts like the latter. -/
theorem reveals_flatMap_between {α : Type} {between follows : List Char → Prop}
    {related : α → α → Prop} {item : α → List Char} {first second : List α}
    (each : ∀ left ∈ first, ∀ right ∈ second,
      Reveals between (item left) (item right) (related left right))
    (ends : ∀ rest, follows rest → between rest)
    (starts : ∀ element rest, between (item element ++ rest))
    (apart : ∀ element, element ∈ first ∨ element ∈ second →
      ∀ rest tail, follows rest → item element ++ tail ≠ rest) :
    Reveals follows (first.flatMap item) (second.flatMap item)
      (List.Forall₂ related first second) := by
  have behind (items : List α) (rest : List Char) (permitted : follows rest) :
      between (items.flatMap item ++ rest) := by
    cases items with
    | nil => exact ends rest permitted
    | cons element items =>
      rw [List.flatMap_cons, List.append_assoc]
      exact starts element _
  intro rest other permitted allowed same
  induction first generalizing second with
  | nil =>
    cases second with
    | nil => exact ⟨.nil, same⟩
    | cons right second =>
      rw [List.flatMap_cons, List.append_assoc] at same
      exact absurd same.symm (apart right (.inr List.mem_cons_self) rest _ permitted)
  | cons left first inductionHypothesis =>
    cases second with
    | nil =>
      rw [List.flatMap_cons, List.append_assoc] at same
      exact absurd same (apart left (.inl List.mem_cons_self) other _ allowed)
    | cons right second =>
      rw [List.flatMap_cons, List.flatMap_cons, List.append_assoc, List.append_assoc] at same
      obtain ⟨head, agree⟩ := each left List.mem_cons_self right List.mem_cons_self _ _
        (behind first rest permitted) (behind second other allowed) same
      have earlier : ∀ left ∈ first, ∀ right ∈ second,
          Reveals between (item left) (item right) (related left right) :=
        fun left member right listed =>
          each left (List.mem_cons_of_mem _ member) right (List.mem_cons_of_mem _ listed)
      have later : ∀ element, element ∈ first ∨ element ∈ second →
          ∀ rest tail, follows rest → item element ++ tail ≠ rest := by
        intro element listed
        refine apart element ?_
        rcases listed with inside | among
        · exact .inl (List.mem_cons_of_mem _ inside)
        · exact .inr (List.mem_cons_of_mem _ among)
      obtain ⟨tail, rests⟩ := inductionHypothesis earlier later agree
      exact ⟨.cons head tail, rests⟩

/-- Items that may be followed by anything are revealed one by one, as long as no item starts like
what follows the last one. -/
theorem reveals_flatMap {α : Type} {follows : List Char → Prop} {related : α → α → Prop}
    {item : α → List Char} {first second : List α}
    (each : ∀ left ∈ first, ∀ right ∈ second,
      Reveals Anything (item left) (item right) (related left right))
    (apart : ∀ element, element ∈ first ∨ element ∈ second →
      ∀ rest tail, follows rest → item element ++ tail ≠ rest) :
    Reveals follows (first.flatMap item) (second.flatMap item)
      (List.Forall₂ related first second) :=
  reveals_flatMap_between each (fun _ _ => trivial) (fun _ _ => trivial) apart

section Marks

/-- What stands behind the first mark of a text is seen from the text. -/
theorem behind_mark_eq {mark : Char} {front before rest after : List Char} (clean : mark ∉ front)
    (unmarked : mark ∉ before) (same : front ++ mark :: rest = before ++ mark :: after) :
    rest = after := by
  have free {characters : List Char} (none : mark ∉ characters) :
      ∀ character ∈ characters, (character != mark) = true :=
    fun character listed => bne_iff_ne.mpr fun equal => none (equal ▸ listed)
  have stops (tail : List Char) : Leaves (· != mark) (mark :: tail) :=
    leaves_append [] tail (bne_self_eq_false mark)
  exact (List.cons.inj (reveals_word (free clean) (free unmarked) _ _ (stops rest) (stops after)
    same).2).2

/-- Where each item of a row has a mark in front and there is no other mark, one of the items
stands behind whichever mark is found.

The induction is on the items. If the mark that was found is not the one of the first item, it is
behind that item, which then belongs to the opening. -/
theorem exists_item_behind_mark {α : Type} {mark : Char} {lead closing : List Char}
    {item : α → List Char} {items : List α} {opening before after : List Char}
    (led : mark ∉ lead) (closed : mark ∉ closing) (each : ∀ element ∈ items, mark ∉ item element)
    (opened : mark ∉ opening)
    (parts : opening ++ (items.flatMap (fun element => lead ++ mark :: item element) ++ closing) =
      before ++ mark :: after) :
    ∃ element ∈ items, Begins (item element) after := by
  induction items generalizing opening before with
  | nil =>
    have found : mark ∈ opening ++ closing := by
      rw [List.flatMap_nil, List.nil_append] at parts
      exact parts ▸ List.mem_append_right before List.mem_cons_self
    exact absurd found (List.not_mem_append opened closed)
  | cons first items inductionHypothesis =>
    obtain ⟨head, tail⟩ := List.forall_mem_cons.mp each
    have front : mark ∉ opening ++ lead := List.not_mem_append opened led
    have start : opening ++ lead ++ mark :: (item first ++
        (items.flatMap (fun element => lead ++ mark :: item element) ++ closing)) =
        before ++ mark :: after := by
      simpa only [List.flatMap_cons, List.append_assoc, List.cons_append] using parts
    by_cases earlier : mark ∈ before
    · obtain ⟨outer, inner, rfl, clean⟩ := List.eq_append_cons_of_mem earlier
      rw [List.append_assoc outer, List.cons_append] at start
      obtain ⟨element, listed, begins⟩ :=
        inductionHypothesis tail head (behind_mark_eq front clean start)
      exact ⟨element, List.mem_cons_of_mem _ listed, begins⟩
    · exact ⟨first, List.mem_cons_self, _, (behind_mark_eq front earlier start).symm⟩

end Marks

section Numbers

/-- The characters of hexadecimal digits. -/
def isHexadecimal (character : Char) : Bool :=
  character ∈ ['0', '1', '2', '3', '4', '5', '6', '7', '8', '9', 'a', 'b', 'c', 'd', 'e', 'f']

/-- The digit of a hexadecimal character. -/
def hexadecimalDigit (character : Char) : Nat :=
  if character.isDigit then character.toNat - '0'.toNat else character.toNat - 'a'.toNat + 10

/-- The number that hexadecimal characters stand for. -/
def hexadecimalValue (characters : List Char) : Nat :=
  characters.foldl (fun value character => 16 * value + hexadecimalDigit character) 0

/-- A digit below sixteen has a hexadecimal character, which tells the digit. -/
theorem hexadecimal_digitChar {digit : Nat} (bounded : digit < 16) :
    isHexadecimal digit.digitChar = true ∧ hexadecimalDigit digit.digitChar = digit := by
  have decided : ∀ digit : Fin 16, isHexadecimal digit.val.digitChar = true ∧
      hexadecimalDigit digit.val.digitChar = digit := by decide
  exact decided ⟨digit, bounded⟩

/-- All digits of a number have hexadecimal characters. -/
theorem isHexadecimal_of_mem_toDigits {number : Nat} {character : Char}
    (listed : character ∈ Nat.toDigits 16 number) : isHexadecimal character = true := by
  induction number using Nat.strongRecOn with
  | _ number inductionHypothesis =>
    rw [Nat.toDigits_eq_if (by decide)] at listed
    by_cases single : number < 16
    · rw [if_pos single, List.mem_singleton] at listed
      rw [listed]
      exact (hexadecimal_digitChar single).1
    · rw [if_neg single, List.mem_append, List.mem_singleton] at listed
      rcases listed with higher | rfl
      · exact inductionHypothesis _ (Nat.div_lt_self (by omega) (by decide)) higher
      · exact (hexadecimal_digitChar (Nat.mod_lt _ (by decide))).1

/-- The digits of a number stand for the number. -/
theorem hexadecimalValue_toDigits (number : Nat) :
    hexadecimalValue (Nat.toDigits 16 number) = number := by
  induction number using Nat.strongRecOn with
  | _ number inductionHypothesis =>
    rw [Nat.toDigits_eq_if (by decide)]
    by_cases single : number < 16
    · rw [if_pos single]
      simp [hexadecimalValue, (hexadecimal_digitChar single).2]
    · have higher : hexadecimalValue (Nat.toDigits 16 (number / 16)) = number / 16 :=
        inductionHypothesis _ (Nat.div_lt_self (by omega) (by decide))
      have lowest : hexadecimalDigit (number % 16).digitChar = number % 16 :=
        (hexadecimal_digitChar (Nat.mod_lt _ (by decide))).2
      rw [if_neg single, hexadecimalValue, List.foldl_append, ← hexadecimalValue, higher]
      simp only [List.foldl_cons, List.foldl_nil, lowest]
      omega

/-- Zeros in front make no difference to a number. -/
theorem hexadecimalValue_leftpad (width : Nat) (characters : List Char) :
    hexadecimalValue (characters.leftpad width '0') = hexadecimalValue characters := by
  have zeros (count : Nat) : hexadecimalValue (List.replicate count '0') = 0 := by
    induction count with
    | zero => rfl
    | succ count inductionHypothesis =>
      rw [List.replicate_succ', hexadecimalValue, List.foldl_append, ← hexadecimalValue,
        inductionHypothesis]
      rfl
  rw [List.leftpad, hexadecimalValue, List.foldl_append, ← hexadecimalValue, zeros]
  rfl

/-- A decimal has digits only. -/
theorem isDigit_of_mem_decimal {number : Nat} {character : Char}
    (listed : character ∈ (decimal number).toList) : character.isDigit = true := by
  rw [decimal, String.toList_ofList] at listed
  exact Nat.isDigit_of_mem_toDigits (by decide) (by decide) listed

/-- A decimal starts with a digit. -/
theorem decimal_eq_cons (number : Nat) :
    ∃ first others, (decimal number).toList = first :: others ∧ first.isDigit = true := by
  cases digits : (decimal number).toList with
  | nil =>
    rw [decimal, String.toList_ofList] at digits
    exact absurd digits Nat.toDigits_ne_nil
  | cons first others =>
    exact ⟨first, others, rfl, isDigit_of_mem_decimal (digits ▸ List.mem_cons_self)⟩

/-- A decimal does not start like a text that starts with something else than a digit. -/
theorem apart_decimal (number : Nat) {other : Char} (outside : other.isDigit = false)
    (text : List Char) : Apart (decimal number).toList (other :: text) := by
  obtain ⟨first, others, spelled, digit⟩ := decimal_eq_cons number
  rw [spelled]
  refine Apart.of_heads ?_ others text
  rintro rfl
  exact Bool.false_ne_true (outside.symm.trans digit)

/-- A decimal reveals its number. -/
theorem reveals_decimal (first second : Nat) :
    Reveals (Leaves Char.isDigit) (decimal first).toList (decimal second).toList
      (first = second) := by
  have digits (number : Nat) : ∀ character ∈ (decimal number).toList, character.isDigit = true :=
    fun _ => isDigit_of_mem_decimal
  refine (reveals_word (digits first) (digits second)).imp fun same => ?_
  simp only [decimal, String.toList_ofList] at same
  rw [← Nat.ofDigitChars_ten_toDigits (n := first), same, Nat.ofDigitChars_ten_toDigits]

/-- A decimal with a sign reveals its number. -/
theorem reveals_signedDecimal (first second : Int) :
    Reveals (Leaves Char.isDigit) (signedDecimal first).toList (signedDecimal second).toList
      (first = second) := by
  have unsigned (number : Nat) (text : List Char) : Apart (decimal number).toList ('-' :: text) :=
    apart_decimal number (by decide) text
  cases first with
  | ofNat number =>
    cases second with
    | ofNat size => exact (reveals_decimal number size).imp (congrArg Int.ofNat)
    | negSucc predecessor =>
      rw [signedDecimal, signedDecimal, String.toList_append]
      exact .of_apart (unsigned number _)
  | negSucc predecessor =>
    cases second with
    | ofNat size =>
      rw [signedDecimal, signedDecimal, String.toList_append]
      exact .of_apart (unsigned size _).symm
    | negSucc earlier =>
      rw [signedDecimal, signedDecimal, String.toList_append, String.toList_append]
      refine ((reveals_decimal _ _).prefixed _).imp fun same => ?_
      rw [Nat.succ.inj same]

/-- A hexadecimal reveals its number. -/
theorem reveals_hexadecimal (first second : Nat) :
    Reveals (Leaves isHexadecimal) (hexadecimal first).toList (hexadecimal second).toList
      (first = second) := by
  simp only [hexadecimal, String.toList_ofList]
  have word : Reveals (Leaves isHexadecimal) (Nat.toDigits 16 first) (Nat.toDigits 16 second)
      (Nat.toDigits 16 first = Nat.toDigits 16 second) :=
    reveals_word (fun _ => isHexadecimal_of_mem_toDigits) fun _ => isHexadecimal_of_mem_toDigits
  refine word.imp fun same => ?_
  rw [← hexadecimalValue_toDigits first, same, hexadecimalValue_toDigits]

/-- A padded hexadecimal reveals its number. -/
theorem reveals_paddedHexadecimal (width first second : Nat) :
    Reveals (Leaves isHexadecimal) (paddedHexadecimal width first).toList
      (paddedHexadecimal width second).toList (first = second) := by
  have within (number : Nat) : ∀ character ∈ (Nat.toDigits 16 number).leftpad width '0',
      isHexadecimal character = true := by
    intro character listed
    rcases List.mem_append.mp listed with padding | digit
    · rw [List.eq_of_mem_replicate padding]
      rfl
    · exact isHexadecimal_of_mem_toDigits digit
  simp only [paddedHexadecimal, String.toList_ofList]
  refine (reveals_word (within first) (within second)).imp fun same => ?_
  have values := congrArg hexadecimalValue same
  simpa only [hexadecimalValue_leftpad, hexadecimalValue_toDigits] using values

end Numbers

end FixtureLiterals.Text
