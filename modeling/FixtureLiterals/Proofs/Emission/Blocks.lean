import FixtureLiterals.Emission.Block
import FixtureLiterals.Proofs.Text.Revealing

/-!
# Reading blocks

Each item of a block ends in a comma and a line end, and the closer follows the last one.
So a block reveals its items where each item is revealed when a comma follows it and none
starts like the closer. A block of bytes has other line ends, but every byte takes the same
number of characters, with one character behind it, so the bytes are revealed as well.
-/

namespace FixtureLiterals.Emission

open Text

/-- The lines of a block's items. -/
def lines (items : List String) : List Char := items.flatMap fun item => item.toList ++ [',', '\n']

/-- What stands between the opener and the closer of a block. -/
def content (items : List String) : List Char := if items.isEmpty then [] else '\n' :: lines items

/-- The characters of a block. -/
theorem toList_block (opener : String) (items : List String) (closer : String) :
    (block opener items closer).toList = opener.toList ++ (content items ++ closer.toList) := by
  cases items with
  | nil => simp [block, content]
  | cons item items =>
    simp [block, content, lines, String.toList_join, List.flatMap_map]

/-- A text that starts with a line is one that starts with a comma after the item. -/
theorem line_append (item rest : List Char) :
    item ++ [',', '\n'] ++ rest = item ++ (',' :: '\n' :: rest) := by
  rw [List.append_assoc]
  rfl

/-- A block with lines is not mistaken for one without. -/
theorem apart_inside {closer : List Char} (inline : Apart ['\n'] closer) (text : List Char) :
    Apart ('\n' :: text ++ closer) closer :=
  inline.longer (text ++ closer)

/-- Lines that end where the closer begins are revealed by the block that they stand in. -/
theorem reveals_inside {closer first second : List Char} {conclusion : Prop}
    (reveals : Reveals (Begins closer) first second conclusion) :
    Reveals Anything ('\n' :: first ++ closer) ('\n' :: second ++ closer) conclusion :=
  (reveals.closed closer fun rest => ⟨rest, rfl⟩).prefixed ['\n']

/-- A block reveals what its lines do, whatever stands behind it. -/
theorem reveals_block_of_lines (opener : String) {closer : String}
    (inline : Apart ['\n'] closer.toList) {first second : List String} {conclusion : Prop}
    (reveals : Reveals (Begins closer.toList) (lines first) (lines second) conclusion) :
    Reveals Anything (block opener first closer).toList (block opener second closer).toList
      conclusion := by
  rw [toList_block, toList_block]
  refine Reveals.prefixed ?_ _
  cases first with
  | nil =>
    cases second with
    | nil => exact reveals.closed _ fun rest => ⟨rest, rfl⟩
    | cons right second => exact .of_apart (apart_inside inline _).symm
  | cons left first =>
    cases second with
    | nil => exact .of_apart (apart_inside inline _)
    | cons right second => exact reveals_inside reveals

/-- A line reveals what its item does. -/
theorem reveals_line {first second : String} {conclusion : Prop}
    (reveals : Reveals (Begins [',']) first.toList second.toList conclusion) :
    Reveals Anything (first.toList ++ [',', '\n']) (second.toList ++ [',', '\n']) conclusion :=
  reveals.closed [',', '\n'] fun rest => ⟨'\n' :: rest, rfl⟩

section Items

variable {α : Type} {related : α → α → Prop} {write : α → String} {first second : List α}
  (each : ∀ left ∈ first, ∀ right ∈ second,
    Reveals (Begins [',']) (write left).toList (write right).toList (related left right))
include each

/-- Lines reveal the items on them, as long as no item starts like what follows the lines. -/
theorem reveals_lines {follows : List Char → Prop}
    (apart : ∀ element, element ∈ first ∨ element ∈ second →
      ∀ rest tail, follows rest → (write element).toList ++ (',' :: tail) ≠ rest) :
    Reveals follows (lines (first.map write)) (lines (second.map write))
      (List.Forall₂ related first second) := by
  rw [lines, lines, List.flatMap_map, List.flatMap_map]
  refine reveals_flatMap (fun left member right listed => ?_)
    fun element listed rest tail permitted => ?_
  · exact reveals_line (each left member right listed)
  · rw [line_append]
    exact apart element listed rest _ permitted

/-- A block reveals its items, whatever stands behind it, as long as no item starts like the
closer. -/
theorem reveals_block (opener : String) {closer : String} (inline : Apart ['\n'] closer.toList)
    (apart : ∀ element, element ∈ first ∨ element ∈ second →
      Apart ((write element).toList ++ [',']) closer.toList) :
    Reveals Anything (block opener (first.map write) closer).toList
      (block opener (second.map write) closer).toList (List.Forall₂ related first second) := by
  refine reveals_block_of_lines opener inline (reveals_lines each ?_)
  rintro element member rest tail ⟨others, rfl⟩ same
  refine apart element member tail others ?_
  rw [List.append_assoc]
  exact same

end Items

/-- A block reveals the list of its items where each item is revealed by itself and none starts like
the closer. -/
theorem reveals_block_eq {α : Type} {write : α → String}
    (each : ∀ left right, Reveals Anything (write left).toList (write right).toList (left = right))
    (opener : String) {closer : String} (inline : Apart ['\n'] closer.toList)
    (apart : ∀ element, Apart (write element).toList closer.toList) (first second : List α) :
    Reveals Anything (block opener (first.map write) closer).toList
      (block opener (second.map write) closer).toList (first = second) := by
  have items : ∀ left ∈ first, ∀ right ∈ second,
      Reveals (Begins [',']) (write left).toList (write right).toList (left = right) :=
    fun left _ right _ => (each left right).narrow fun _ _ => trivial
  have reveals := reveals_block items opener inline fun element _ => (apart element).longer [',']
  rwa [List.forall₂_eq_eq_eq] at reveals

/-- Lines in a row are the lines of both. -/
theorem lines_append (first second : List String) :
    lines (first ++ second) = lines first ++ lines second :=
  List.flatMap_append

/-- A line that is left out for an empty list reveals the list, as long as it does not start
like what follows. -/
theorem reveals_line_unless_empty {α : Type} {follows : List Char → Prop} {first second : List α}
    {entry other : String}
    (reveals : Reveals (Begins [',']) entry.toList other.toList (first = second))
    (apart : ∀ rest tail, follows rest → entry.toList ++ (',' :: tail) ≠ rest)
    (beside : ∀ rest tail, follows rest → other.toList ++ (',' :: tail) ≠ rest) :
    Reveals follows (lines (if first.isEmpty then [] else [entry]))
      (lines (if second.isEmpty then [] else [other])) (first = second) := by
  have single (item : String) : lines [item] = item.toList ++ [',', '\n'] := by
    rw [lines, List.flatMap_singleton]
  cases first with
  | nil =>
    cases second with
    | nil => exact .refl _ rfl
    | cons right second =>
      intro rest tail permitted _ same
      change rest = lines [other] ++ tail at same
      rw [single, line_append] at same
      exact absurd same.symm (beside rest _ permitted)
  | cons left first =>
    cases second with
    | nil =>
      intro rest tail _ allowed same
      change lines [entry] ++ rest = tail at same
      rw [single, line_append] at same
      exact absurd same (apart tail _ allowed)
    | cons right second =>
      change Reveals follows (lines [entry]) (lines [other]) _
      rw [single, single]
      exact (reveals_line reveals).narrow fun _ _ => trivial

/-- Lines reveal what the first one of them does, and what the others do. -/
theorem reveals_lines_cons {follows : List Char → Prop} {first second : String}
    {behind beyond : List String} {conclusion consequence : Prop}
    (reveals : Reveals (Begins [',']) first.toList second.toList conclusion)
    (revealsLater : Reveals follows (lines behind) (lines beyond) consequence) :
    Reveals follows (lines (first :: behind)) (lines (second :: beyond))
      (conclusion ∧ consequence) := by
  rw [lines, lines, List.flatMap_cons, List.flatMap_cons]
  exact (reveals_line reveals).append revealsLater (fun _ _ => trivial) fun _ _ => trivial

/-- A block of two items reveals what both of them do. -/
theorem reveals_pair (opener : String) {closer : String} (inline : Apart ['\n'] closer.toList)
    {first second third fourth : String} {conclusion consequence : Prop}
    (reveals : Reveals (Begins [',']) first.toList second.toList conclusion)
    (revealsLater : Reveals (Begins [',']) third.toList fourth.toList consequence) :
    Reveals Anything (block opener [first, third] closer).toList
      (block opener [second, fourth] closer).toList (conclusion ∧ consequence) := by
  have last : Reveals (Begins closer.toList) (lines [third]) (lines [fourth])
      (consequence ∧ True) := reveals_lines_cons revealsLater (.refl _ trivial)
  exact reveals_block_of_lines opener inline (reveals_lines_cons reveals (last.imp And.left))

section Bytes

/-- Whatever the width, the lines of a block have all of its bytes, in order. -/
theorem flatten_byteLines (width : Nat) (bytes : List UInt8) :
    (byteLines width bytes).flatten = bytes := by
  induction bytes using byteLines.induct width with
  | case1 => simp [byteLines]
  | case2 first rest inductionHypothesis =>
    rw [byteLines, List.flatten_cons, inductionHypothesis, List.cons_append,
      List.take_append_drop]

/-- No line of a block is empty. -/
theorem ne_nil_of_mem_byteLines {width : Nat} {bytes line : List UInt8}
    (listed : line ∈ byteLines width bytes) : line ≠ [] := by
  induction bytes using byteLines.induct width with
  | case1 =>
    rw [byteLines] at listed
    exact nomatch listed
  | case2 first rest inductionHypothesis =>
    rw [byteLines] at listed
    rcases List.mem_cons.mp listed with rfl | later
    · exact List.cons_ne_nil _ _
    · exact inductionHypothesis later

/-- A byte with the character behind it. -/
def byteText (entry : UInt8 × Char) : List Char := (byteItem entry.1).toList ++ [entry.2]

/-- Every byte starts with a zero. -/
theorem byteText_eq_cons (entry : UInt8 × Char) : byteText entry =
    '0' :: 'x' :: ((paddedHexadecimal 2 entry.1.toNat).toList ++ [',', entry.2]) := by
  simp [byteText, byteItem]

/-- On a line, there is one character behind each byte. -/
theorem exists_entries_of_line {line : List UInt8} (nonempty : line ≠ []) :
    ∃ entries : List (UInt8 × Char), entries.map Prod.fst = line ∧
      (byteLine line).toList = entries.flatMap byteText := by
  induction line with
  | nil => exact absurd rfl nonempty
  | cons first rest inductionHypothesis =>
    cases rest with
    | nil =>
      refine ⟨[(first, '\n')], rfl, ?_⟩
      simp [byteLine, byteText]
    | cons second rest =>
      obtain ⟨entries, bytes, text⟩ := inductionHypothesis (List.cons_ne_nil _ _)
      refine ⟨(first, ' ') :: entries, by rw [List.map_cons, bytes], ?_⟩
      rw [List.flatMap_cons, ← text]
      simp [byteLine, byteText, String.toList_intercalate]

/-- On several lines, there is one character behind each byte. -/
theorem exists_entries_of_lines {lines : List (List UInt8)} (nonempty : ∀ line ∈ lines, line ≠ []) :
    ∃ entries : List (UInt8 × Char), entries.map Prod.fst = lines.flatten ∧
      (String.join (lines.map byteLine)).toList = entries.flatMap byteText := by
  induction lines with
  | nil => exact ⟨[], rfl, by simp⟩
  | cons line lines inductionHypothesis =>
    obtain ⟨first, others⟩ := List.forall_mem_cons.mp nonempty
    obtain ⟨entries, bytes, text⟩ := exists_entries_of_line first
    obtain ⟨later, contents, tail⟩ := inductionHypothesis others
    refine ⟨entries ++ later, by rw [List.map_append, bytes, contents, List.flatten_cons], ?_⟩
    rw [List.flatMap_append, ← text, ← tail]
    simp [String.toList_join]

/-- The character behind a byte is revealed, and so is the byte. -/
theorem reveals_byteText (first second : UInt8 × Char) :
    Reveals Anything (byteText first) (byteText second) (first = second) := by
  have digits : Reveals Anything (byteItem first.1).toList (byteItem second.1).toList
      (first.1.toNat = second.1.toNat) := by
    simp only [byteItem, String.toList_append]
    refine ((reveals_paddedHexadecimal 2 _ _).prefixed _).closed _ fun rest => ?_
    exact leaves_append [] rest (by decide)
  refine (digits.append (reveals_character first.2 second.2) (fun _ _ => trivial)
    (fun _ _ => trivial)).imp ?_
  rintro ⟨bytes, characters⟩
  exact Prod.ext (UInt8.toNat_inj.mp bytes) characters

/-- A block of bytes reveals its bytes, whatever stands behind it. -/
theorem reveals_byteBlock (width : Nat) (opener : String) {closer : String}
    (inline : Apart ['\n'] closer.toList) (bytewise : Apart ['0'] closer.toList)
    (first second : List UInt8) :
    Reveals Anything (byteBlock width opener first closer).toList
      (byteBlock width opener second closer).toList (first = second) := by
  have spelled (bytes : List UInt8) : ∃ entries : List (UInt8 × Char),
      entries.map Prod.fst = bytes ∧ (byteBlock width opener bytes closer).toList =
        opener.toList ++ ((if bytes.isEmpty then [] else '\n' :: entries.flatMap byteText) ++
          closer.toList) := by
    have nonempty : ∀ line ∈ byteLines width bytes, line ≠ [] := fun _ => ne_nil_of_mem_byteLines
    obtain ⟨entries, contents, text⟩ := exists_entries_of_lines nonempty
    rw [flatten_byteLines] at contents
    refine ⟨entries, contents, ?_⟩
    cases bytes with
    | nil => simp [byteBlock]
    | cons byte bytes => simp [byteBlock, text]
  obtain ⟨entries, rfl, text⟩ := spelled first
  obtain ⟨others, rfl, words⟩ := spelled second
  rw [text, words]
  refine Reveals.prefixed ?_ _
  have listed : Reveals (Begins closer.toList) (entries.flatMap byteText) (others.flatMap byteText)
      (entries.map Prod.fst = others.map Prod.fst) := by
    refine (reveals_flatMap (fun left _ right _ => reveals_byteText left right) ?_).imp fun same => ?_
    · rintro entry - rest tail ⟨behind, rfl⟩ same
      rw [byteText_eq_cons] at same
      exact bytewise _ _ same
    · rw [List.forall₂_eq_eq_eq] at same
      rw [same]
  cases entries with
  | nil =>
    cases others with
    | nil => exact .refl _ rfl
    | cons right others => exact .of_apart (apart_inside inline _).symm
  | cons left entries =>
    cases others with
    | nil => exact .of_apart (apart_inside inline _)
    | cons right others => exact reveals_inside listed

end Bytes

end FixtureLiterals.Emission
