import FixtureLiterals.Proofs.Emission.Absence
import FixtureLiterals.Proofs.Emission.Signedness
import FixtureLiterals.Proofs.Fitting.Rights

/-!
# Which target shows the rights of a handle

Rust copies a handle with the rights that the value expects, so values that differ in the rights of
one handle have different texts. The texts even differ at a character, and not only in length:
what stands behind the handle cannot make up for it, however deep the handle is.

Go writes handles by their index and leaves the rights out, so the texts are the same.
-/

namespace FixtureLiterals

open Emission Text

namespace Emission

/-- Items that are the same or apart, one by one, are the same or make lines that are apart. -/
theorem same_or_apart_lines {α : Type} {write : α → String} {first second : List α}
    (each : List.Forall₂ (fun left right => left = right ∨
      Apart (write left).toList (write right).toList) first second) :
    first = second ∨ Apart (lines (first.map write)) (lines (second.map write)) := by
  induction each with
  | nil => exact .inl rfl
  | @cons left right first second head _ inductionHypothesis =>
    simp only [lines, List.map_cons, List.flatMap_cons] at inductionHypothesis ⊢
    rcases head with rfl | apart
    · rcases inductionHypothesis with rfl | later
      · exact .inl rfl
      · exact .inr (later.prefixed _)
    · exact .inr ((apart.append _ _).append _ _)

/-- Nothing is apart from the empty text. -/
theorem ne_nil_of_apart {first second : List Char} (apart : Apart first second) : first ≠ [] := by
  rintro rfl
  exact apart second [] (List.append_nil _).symm

/-- Blocks are apart if their lines are. -/
theorem apart_block (opener closer : String) {first second : List String}
    (apart : Apart (lines first) (lines second)) :
    Apart (block opener first closer).toList (block opener second closer).toList := by
  have content_eq {items : List String} (some : lines items ≠ []) :
      content items = '\n' :: lines items := by
    cases items with
    | nil => exact absurd rfl some
    | cons item items => rfl
  rw [toList_block, toList_block, content_eq (ne_nil_of_apart apart),
    content_eq (ne_nil_of_apart apart.symm)]
  exact ((apart.prefixed ['\n']).append _ _).prefixed _

end Emission

namespace RustWriter

variable (writer : RustWriter)

/-- Two literals are the same, or their texts differ at a character. -/
def SameOrApart (first second : Literal) : Prop :=
  first = second ∨ Apart (writer.expression first).toList (writer.expression second).toList

/-- Fields are the same or their entries are apart, whatever stands between the name and the
value. -/
theorem same_or_apart_fields (front : String → String) (behind : String)
    {write : String × Literal → String}
    (written : ∀ field, write field = front field.1 ++ writer.expression field.2 ++ behind)
    {fields others : List (String × Literal)}
    (each : List.Forall₂ (SameName writer.SameOrApart) fields others) :
    fields = others ∨ Apart (lines (fields.map write)) (lines (others.map write)) := by
  refine same_or_apart_lines (each.imp ?_)
  rintro ⟨name, literal⟩ ⟨_, other⟩ ⟨rfl, rfl | apart⟩
  · exact .inl rfl
  · right
    simp only [written, String.toList_append]
    exact (apart.prefixed _).append _ _

/-- A literal is told apart by its parts. -/
def apartness : Likeness where
  faults := Eq
  literals := writer.SameOrApart
  faults_refl _ := rfl
  literals_refl _ := .inl rfl
  list type elements others each := by
    rcases same_or_apart_lines each with rfl | apart
    · exact .inl rfl
    · right
      simp only [expression, expressions_eq_map]
      cases type with
      | vector element nullable =>
        exact .of_reveals (reveals_optional (.of_apart (apart_block _ _ apart)) nullable)
      | _ => exact apart_block _ _ apart
  struct name nullable fields others each := by
    have written (field : String × Literal) : writer.entry field =
        (fieldName field.1 ++ ": ") ++ writer.expression field.2 ++ "" := by
      rw [entry, String.append_empty]
    rcases writer.same_or_apart_fields (fieldName · ++ ": ") "" written each with rfl | apart
    · exact .inl rfl
    · right
      rw [expression_struct, expression_struct]
      exact .of_reveals (reveals_boxed (.of_apart (apart_block _ _ apart)) nullable)
  union name nullable field ordinal value other same := by
    rcases same with rfl | apart
    · exact .inl rfl
    · right
      rw [expression_union, expression_union]
      simp only [variant]
      refine .of_reveals (reveals_boxed (.of_apart ?_) nullable)
      simp only [String.toList_append]
      exact ((apart.prefixed _).append _ _).prefixed _
  table name nullable fields others unknown each := by
    have written (field : String × Literal) : writer.someEntry field =
        (fieldName field.1 ++ ": Some(") ++ writer.expression field.2 ++ ")" := by
      rw [someEntry, someExpression, show ": Some(" = ": " ++ "Some(" from rfl]
      simp only [String.append_assoc]
    rcases writer.same_or_apart_fields (fieldName · ++ ": Some(") ")" written each with rfl | apart
    · exact .inl rfl
    · right
      rw [expression_table, expression_table]
      refine .of_reveals (reveals_boxed (.of_apart ?_) nullable)
      rw [toList_table, toList_table, lines_append, lines_append]
      exact ((apart.append _ _).append _ _).prefixed _

/-- Handles with other rights have texts that are apart. -/
theorem apart_of_otherRights (index : UInt64) (subtype : HandleSubtype) {first second : Option Rights}
    (different : first ≠ second) : Apart (writer.expression (.handle index subtype first)).toList
      (writer.expression (.handle index subtype second)).toList := by
  simp only [expression]
  exact .of_reveals ((writer.reveals_handle subtype index index first second).imp
    fun same => different same.2)

end RustWriter

/-- With other rights at one place, a value is fitted to a literal that is not told apart from the
first one, where handles with other rights are not. -/
theorem exists_fit_of_otherRights (likeness : Likeness)
    (handles : ∀ index subtype first second,
      likeness.literals (.handle index subtype first) (.handle index subtype second))
    {environment : Environment} {declaration : Declaration} {value changed : Value}
    (differ : OtherRights value changed) {literal : Literal}
    (fits : Literal.fit environment declaration value = .ok literal) :
    ∃ other, Literal.fit environment declaration changed = .ok other ∧
      likeness.literals literal other ∧ literal ≠ other := by
  have same := Literal.same_of_otherRights environment likeness handles differ declaration
  rw [fits] at same
  rcases same.ok_or_error with ⟨_, other, ⟨⟩, again, related⟩ | ⟨_, _, ⟨⟩, -⟩
  refine ⟨other, again, related, ?_⟩
  rintro rfl
  exact Literal.fit_ne_of_otherRights environment differ fits again

namespace Writer

/-- Values that differ in the rights of one handle, at whatever depth, are written as different
texts in Rust, and as the same text in Go. -/
theorem shows_rights_iff (writer : Writer) (handles : HandleTable) {declaration : Declaration}
    {value changed : Value} (differ : OtherRights value changed) {text : String}
    (written : writer.encode handles declaration value = .ok text) :
    ∃ other, writer.encode handles declaration changed = .ok other ∧
      (text ≠ other ↔ writer.target = .rust) := by
  obtain ⟨literal, fits, rfl⟩ := (encode_eq_ok_iff ..).mp written
  cases writer with
  | go writer =>
    have alike (index : UInt64) (subtype : HandleSubtype) (first second : Option Rights) :
        (Writer.go writer).likeness.literals (.handle index subtype first)
          (.handle index subtype second) := by
      simp only [likeness, expression, GoWriter.expression]
    obtain ⟨other, again, same, -⟩ := exists_fit_of_otherRights _ alike differ fits
    refine ⟨_, (encode_eq_ok_iff ..).mpr ⟨other, again, rfl⟩, ?_⟩
    exact ⟨fun different => absurd same different, nofun⟩
  | rust writer =>
    have alike (index : UInt64) (subtype : HandleSubtype) (first second : Option Rights) :
        writer.apartness.literals (.handle index subtype first)
          (.handle index subtype second) := by
      by_cases same : first = second
      · exact .inl (by rw [same])
      · exact .inr (writer.apart_of_otherRights index subtype same)
    obtain ⟨other, again, same, different⟩ := exists_fit_of_otherRights _ alike differ fits
    refine ⟨_, (encode_eq_ok_iff ..).mpr ⟨other, again, rfl⟩, fun _ => rfl, fun _ equal => ?_⟩
    exact same.resolve_left different [] [] (congrArg (·.toList ++ []) equal)

/-- In a table in a list, the rights of a handle are shown in Rust. -/
theorem shows_rights_iff_table :
    let sample : Declaration := .record ⟨"lib/Sample", .table, false, .resource, .strict⟩
      [⟨"end", 1, .handle .channel ⟨6⟩ false⟩]
    let declaration : Declaration := .vector sample false
    let value (rights : Option Rights) : Value :=
      .list [.record [Value.named "end" (.handle ⟨0, rights⟩)]]
    let table : HandleTable := [⟨.channel, ⟨6⟩⟩]
    OtherRights (value (some ⟨2⟩)) (value none) ∧
      ∃ text other, (Writer.standard .rust).encode table declaration (value (some ⟨2⟩)) = .ok text ∧
        (Writer.standard .rust).encode table declaration (value none) = .ok other ∧
        text ≠ other := by
  intro sample declaration value table
  have differ : OtherRights (value (some ⟨2⟩)) (value none) :=
    @OtherRights.inItem [] [] _ _ (@OtherRights.inField [] [] _ _ _ (.handle (by decide)))
  have written : ∃ text,
      (Writer.standard .rust).encode table declaration (value (some ⟨2⟩)) = .ok text := ⟨_, rfl⟩
  obtain ⟨text, written⟩ := written
  obtain ⟨other, again, shows⟩ := shows_rights_iff _ table differ written
  exact ⟨differ, text, other, written, again, shows.mpr rfl⟩

/-- In Go, a handle that is to have fewer rights is written like one that is to keep its rights. -/
theorem go_rights_lost :
    let declaration : Declaration := .handle .channel ⟨6⟩ false
    let table : HandleTable := [⟨.channel, ⟨6⟩⟩]
    OtherRights (.handle ⟨0, some ⟨2⟩⟩) (.handle ⟨0, none⟩) ∧
      (Writer.standard .go).encode table declaration (.handle ⟨0, some ⟨2⟩⟩) =
        .ok "zx.Channel(handles[0])" ∧
      (Writer.standard .go).encode table declaration (.handle ⟨0, none⟩) =
        .ok "zx.Channel(handles[0])" :=
  ⟨.handle (by decide), by decide, by decide⟩

end Writer

end FixtureLiterals
