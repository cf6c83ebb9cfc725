import FixtureLiterals.Emission.Block
import FixtureLiterals.Proofs.Emission.GoStrings
import FixtureLiterals.Proofs.Text.Casing

/-!
# Go source, character by character

What is written for Go consists of code and of interpreted string literals. A scan from the start of
a text knows of each character whether it stands in code, in a string literal, or behind a backslash
in one. Rune literals, raw string literals and comments are not written, so the scan fails at the
characters that open them, and it fails at a line end that would stand in a string literal.

Code has line ends and visible ASCII characters only. A string literal has no line ends, and no
other control characters, but it may have any other character of its string.
-/

namespace FixtureLiterals.Emission

open Text Document

/-- Where a scan of Go source stands. -/
inductive GoPosition where
  | code
  | literal
  /-- In a string literal, behind the backslash of an escape. -/
  | escape
deriving DecidableEq, Repr

namespace GoPosition

/-- Where a scan stands behind one more character. -/
def next : GoPosition → Char → Option GoPosition
  | .code, '"' => some .literal
  | .code, '\x27' | .code, '\x60' | .code, '/' => none
  | .code, _ => some .code
  | .literal, '"' => some .code
  | .literal, '\\' => some .escape
  | .literal, '\n' | .escape, '\n' => none
  | .literal, _ | .escape, _ => some .literal

/-- Where a scan stands behind a text. -/
def after (position : GoPosition) (text : List Char) : Option GoPosition :=
  text.foldlM next position

/-- A scan goes over one text after the other. -/
theorem after_append (position : GoPosition) (first second : List Char) :
    position.after (first ++ second) = (position.after first).bind (after · second) :=
  List.foldlM_append

/-- A text that does not move the scan may be skipped. -/
theorem after_append_of_eq {position : GoPosition} {first : List Char}
    (stays : position.after first = some position) (second : List Char) :
    position.after (first ++ second) = position.after second := by
  rw [after_append, stays, Option.bind_some]

/-- Texts whose characters do not move the scan do not move it either. -/
theorem after_of_forall {position : GoPosition} {text : List Char}
    (stays : ∀ character ∈ text, position.next character = some position) :
    position.after text = some position := by
  induction text with
  | nil => rfl
  | cons character text inductionHypothesis =>
    obtain ⟨first, others⟩ := List.forall_mem_cons.mp stays
    rw [after, List.foldlM_cons, first]
    exact inductionHypothesis others

/-- A line ends in code only. -/
theorem eq_code_of_newline {position following : GoPosition}
    (moves : position.next '\n' = some following) : position = .code := by
  cases position with
  | code => rfl
  | literal | escape => exact nomatch moves

end GoPosition

open GoPosition GoString

/-- A Go text in which all string literals are closed, no line ends inside of one, and line ends
are the only control characters. -/
structure LegalGo (text : String) : Prop where
  closed : code.after text.toList = some .code
  lineEnds : ∀ front behind, text.toList = front ++ '\n' :: behind → code.after front = some .code
  controls : ∀ character ∈ text.toList, isControl character = true → character = '\n'

/-- The characters of code: line ends, and what is visible and opens neither a literal nor a
comment. -/
def isCode (character : Char) : Bool :=
  character == '\n' ||
    isVisible character && !(['"', '\x27', '\x60', '/', '\\'].contains character)

/-- A text of code. -/
def IsCode (text : String) : Prop := ∀ character ∈ text.toList, isCode character = true

instance (text : String) : Decidable (IsCode text) :=
  decidable_of_iff (text.toList.all isCode = true) List.all_eq_true

section Characters

/-- The character that marks the order of bytes at the start of a file. -/
def byteOrderMark : Char := '\uFEFF'

/-- Of the control characters, code has line ends only. -/
theorem eq_newline_of_isControl {character : Char} (plain : isCode character = true)
    (control : isControl character = true) : character = '\n' := by
  rw [isCode, Bool.or_eq_true, beq_iff_eq, Bool.and_eq_true] at plain
  rcases plain with newline | ⟨visible, -⟩
  · exact newline
  · rw [isControl_of_isVisible visible] at control
    exact nomatch control

/-- A scan that is in code stays there. -/
theorem next_code {character : Char} (plain : isCode character = true) :
    code.next character = some .code := by
  have refused : ['"', '\x27', '\x60', '/'].all (fun opener => !isCode opener) = true := by decide
  have apart (opener : Char) (listed : opener ∈ ['"', '\x27', '\x60', '/']) :
      character ≠ opener := by
    rintro rfl
    have outside := List.all_eq_true.mp refused character listed
    rw [plain] at outside
    exact nomatch outside
  unfold next
  split <;> simp_all

/-- A scan of a literal stays there, unless the literal or its line ends or an escape begins. -/
theorem next_literal {character : Char} (quote : character ≠ '"') (backslash : character ≠ '\\')
    (newline : character ≠ '\n') : literal.next character = some .literal := by
  unfold next
  split <;> simp_all

/-- Hexadecimal digits stand for themselves in a literal. -/
theorem next_literal_of_isHexadecimal {digit : Char} (hexadecimal : isHexadecimal digit = true) :
    literal.next digit = some .literal := by
  apply next_literal <;> (rintro rfl; exact absurd hexadecimal (by decide))

/-- Letters and digits are code. -/
theorem isCode_of_isAlphanum {character : Char} (word : character.isAlphanum = true) :
    isCode character = true := by
  have decided : ∀ number : Fin 128, (Char.ofNat number).isAlphanum = true →
      isCode (Char.ofNat number) = true := by decide
  exact of_isAlphanum (isCode · = true) decided word

/-- Decimal digits are code. -/
theorem isCode_of_isDigit {digit : Char} (decimal : digit.isDigit = true) : isCode digit = true :=
  isCode_of_isAlphanum (by rw [Char.isAlphanum, decimal, Bool.or_true])

/-- The digits of hexadecimal numbers are code. -/
theorem isCode_of_isHexadecimal {digit : Char} (hexadecimal : isHexadecimal digit = true) :
    isCode digit = true := by
  have decided : ['0', '1', '2', '3', '4', '5', '6', '7', '8', '9', 'a', 'b', 'c', 'd', 'e', 'f'].all
      isCode = true := by decide
  exact List.all_eq_true.mp decided digit (of_decide_eq_true hexadecimal)

end Characters

section Escapes

/-- An escaped character leaves a scan in the literal. -/
theorem after_goEscape (character : Char) : literal.after (goEscape character) = some .literal := by
  have digits (width number : Nat) :
      literal.after (paddedHexadecimal width number).toList = some .literal :=
    after_of_forall fun _ listed =>
      next_literal_of_isHexadecimal (isHexadecimal_of_mem_padded listed)
  unfold goEscape
  split
  case h_1 | h_2 | h_3 | h_4 | h_5 => rfl
  case h_6 quote backslash newline _ _ =>
    split
    case isTrue => exact (after_append_of_eq rfl _).trans (digits 2 _)
    case isFalse =>
      split
      case isTrue => exact (after_append_of_eq rfl _).trans (digits 4 _)
      case isFalse =>
        refine after_of_forall fun written listed => ?_
        rw [List.mem_singleton.mp listed]
        exact next_literal quote backslash newline

/-- The escapes of a text leave a scan in the literal. -/
theorem after_flatMap_goEscape (content : List Char) :
    literal.after (content.flatMap goEscape) = some .literal := by
  induction content with
  | nil => rfl
  | cons character content inductionHypothesis =>
    rw [List.flatMap_cons, after_append_of_eq (after_goEscape character)]
    exact inductionHypothesis

/-- The characters of a quoted text. -/
theorem toList_goQuoted (content : String) :
    (goQuoted content).toList = ['"'] ++ content.toList.flatMap goEscape ++ ['"'] := by
  rw [goQuoted, quoted, String.toList_ofList]
  rfl

/-- The literal of a quoted text is closed. -/
theorem after_goQuoted (content : String) : code.after (goQuoted content).toList = some .code := by
  have opens : code.after ['"'] = some .literal := rfl
  rw [toList_goQuoted, after_append, after_append, opens, Option.bind_some, after_flatMap_goEscape]
  rfl

/-- A quoted text has no control characters, not even line ends. -/
theorem isControl_of_mem_goQuoted {content : String} {written : Char}
    (listed : written ∈ (goQuoted content).toList) : isControl written = false := by
  rw [toList_goQuoted, List.mem_append, List.mem_append, List.mem_flatMap,
    List.mem_singleton] at listed
  rcases listed with (rfl | ⟨character, -, escaped⟩) | rfl
  · decide
  · exact isControl_of_mem_goEscape escaped
  · decide

/-- A quoted text has a byte order mark exactly if the text has one. -/
theorem byteOrderMark_mem_goQuoted (content : String) :
    byteOrderMark ∈ (goQuoted content).toList ↔ byteOrderMark ∈ content.toList := by
  have invisible : isVisible byteOrderMark = false := by decide
  have quote : byteOrderMark ≠ '"' := by decide
  simp only [toList_goQuoted, List.mem_append, List.mem_flatMap, List.mem_singleton, quote,
    false_or, or_false]
  constructor
  · rintro ⟨character, listed, escaped⟩
    rcases isVisible_of_mem_goEscape escaped with visible | ⟨rfl, -⟩
    · rw [invisible] at visible
      exact nomatch visible
    · exact listed
  · intro listed
    exact ⟨byteOrderMark, listed, List.mem_singleton_self _⟩

end Escapes

/-- A text that consists of code and of string literals of certain strings. -/
inductive GoSource (strings : String → Prop) : String → Prop where
  | plain {text : String} (code : IsCode text) : GoSource strings text
  | quoted {content : String} (listed : strings content) : GoSource strings (goQuoted content)
  | append {first second : String} (front : GoSource strings first)
      (behind : GoSource strings second) : GoSource strings (first ++ second)

namespace GoSource

variable {strings : String → Prop} {text : String}

/-- All literals of source are closed. -/
theorem after_code (source : GoSource strings text) : code.after text.toList = some .code := by
  induction source with
  | plain code => exact after_of_forall fun character listed => next_code (code character listed)
  | quoted => exact after_goQuoted _
  | append _ _ front behind =>
    rw [String.toList_append, after_append_of_eq front]
    exact behind

/-- Of the control characters, source has line ends only. -/
theorem controls (source : GoSource strings text) :
    ∀ character ∈ text.toList, isControl character = true → character = '\n' := by
  induction source with
  | plain code => exact fun character listed => eq_newline_of_isControl (code character listed)
  | quoted =>
    intro character listed control
    rw [isControl_of_mem_goQuoted listed] at control
    exact nomatch control
  | append _ _ front behind =>
    rw [String.toList_append]
    exact List.forall_mem_append.mpr ⟨front, behind⟩

/-- Source is legal as far as its literals and control characters are concerned. -/
theorem legal (source : GoSource strings text) : LegalGo text where
  closed := source.after_code
  lineEnds := by
    intro front behind same
    have closed := source.after_code
    rw [same, after_append] at closed
    obtain ⟨position, reached, rest⟩ := Option.bind_eq_some_iff.mp closed
    rw [after, List.foldlM_cons] at rest
    obtain ⟨following, moves, -⟩ := Option.bind_eq_some_iff.mp rest
    rw [reached, eq_code_of_newline moves]
  controls := source.controls

/-- A byte order mark in source stems from one of its strings. -/
theorem exists_of_byteOrderMark (source : GoSource strings text)
    (marked : byteOrderMark ∈ text.toList) :
    ∃ content, strings content ∧ byteOrderMark ∈ content.toList := by
  induction source with
  | plain code => exact absurd (code byteOrderMark marked) (by decide)
  | quoted listed => exact ⟨_, listed, (byteOrderMark_mem_goQuoted _).mp marked⟩
  | append _ _ front behind =>
    rw [String.toList_append, List.mem_append] at marked
    exact marked.elim front behind

/-- Source with some strings is source with these and others. -/
theorem imp {more : String → Prop} (source : GoSource strings text)
    (weaken : ∀ content, strings content → more content) : GoSource more text := by
  induction source with
  | plain code => exact .plain code
  | quoted listed => exact .quoted (weaken _ listed)
  | append _ _ front behind => exact .append front behind

/-- Texts in a row are source if each of them is. -/
theorem join {texts : List String} (each : ∀ text ∈ texts, GoSource strings text) :
    GoSource strings (String.join texts) := by
  induction texts with
  | nil => exact .plain (by decide)
  | cons text texts inductionHypothesis =>
    obtain ⟨first, others⟩ := List.forall_mem_cons.mp each
    rw [String.join_cons]
    exact .append first (inductionHypothesis others)

/-- A block is source if its items are, and what stands around them. -/
theorem block {opener closer : String} {items : List String} (opens : IsCode opener)
    (closes : IsCode closer) (each : ∀ item ∈ items, GoSource strings item) :
    GoSource strings (block opener items closer) := by
  have line (item : String) (listed : item ∈ items) : GoSource strings (item ++ ",\n") :=
    .append (each item listed) (.plain (by decide))
  cases items with
  | nil => exact .append (.plain opens) (.plain closes)
  | cons item items =>
    have lines := join (List.forall_mem_map.mpr line)
    exact .append (.append (.append (.plain opens) (.plain (by decide))) lines) (.plain closes)

end GoSource

end FixtureLiterals.Emission
