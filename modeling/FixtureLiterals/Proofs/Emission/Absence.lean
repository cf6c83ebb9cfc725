import FixtureLiterals.Proofs.Emission.Determined

/-!
# Absent values in writing

Whether a value is absent, and whether its declaration lets it be, can be read off the text of
the value: there is one text for all absent values, and one mark in front of all present ones
that might be absent. Handles have no mark. An absent handle is written like a handle, but not
like any of those that are present.
-/

namespace FixtureLiterals

open Emission Text

/-- The text of a value tells the absent value from the present ones, and the present values
that might be absent from those that might not. -/
structure ShowsPresence (target : Target) (handles : HandleTable) (declaration : Declaration)
    (value : Value) (text : String) : Prop where
  absent : declaration.isHandle = false → (text = target.absentText ↔ value = .null)
  present : declaration.isHandle = false →
    (Begins target.presentMark.toList text.toList ↔ value ≠ .null ∧ declaration.isNullable = true)
  handle : declaration.isHandle = true → text ≠ "nil" ∧ text ≠ "None"
  /-- Of any declaration, handles included, no present value is written like the absent one. -/
  distinct : value ≠ .null → ∀ absent,
    (Writer.standard target).encode handles declaration .null = .ok absent → text ≠ absent

namespace Literal

variable {environment : Environment} {declaration : Declaration} {value : Value}
  {literal : Literal}

/-- The absent value is settled before any rule of the declaration's own. -/
theorem fit_null (environment : Environment) (declaration : Declaration) :
    fit environment declaration .null = fitNull environment declaration := by
  cases declaration <;> rfl

/-- A literal other than a handle is the absent one exactly if the value is absent. -/
theorem eq_null_iff (plain : declaration.isHandle = false)
    (fits : fit environment declaration value = .ok literal) :
    literal = .null ↔ value = .null := by
  constructor
  · rintro rfl
    exact eq_null_of_isAbsent fits trivial
  · rintro rfl
    rw [fit_null, fitNull_eq_ok_iff] at fits
    cases declaration with
    | handle => exact absurd plain.symm Bool.false_ne_true
    | _ => exact fits.2.symm

/-- A present handle is fitted to one that is no absent one. -/
theorem exists_handle_of_fit {subtype : HandleSubtype} {rights : Rights} {nullable : Bool}
    (fits : fit environment (.handle subtype rights nullable) value = .ok literal)
    (held : value ≠ .null) : ∃ index expected, literal = .handle index subtype expected := by
  rw [fit_handle_eq_ok_iff, fitHandle_eq_ok_iff] at fits
  rcases fits with ⟨absent, -⟩ | ⟨reference, -, -, -, rfl⟩
  · exact absurd absent held
  · exact ⟨_, _, rfl⟩

/-- An absent handle is fitted to the absent one. -/
theorem eq_invalidHandle_of_fit {subtype : HandleSubtype} {rights : Rights} {nullable : Bool}
    (fits : fit environment (.handle subtype rights nullable) .null = .ok literal) :
    literal = .invalidHandle subtype := by
  rw [fit_null, fitNull_eq_ok_iff] at fits
  exact fits.2.2.symm

end Literal

/-- A value is written by the expression of its literal. -/
theorem Writer.encode_eq_ok_iff (writer : Writer) (handles : HandleTable)
    (declaration : Declaration) (value : Value) (text : String) :
    writer.encode handles declaration value = .ok text ↔
      ∃ literal, writer.fit handles declaration value = .ok literal ∧
        writer.expression literal = text := by
  rw [Writer.encode, bind_eq_ok_iff]
  simp only [pure_eq_ok_iff]

/-- What the expressions of a target open with. -/
def Target.openings : Target → Openings
  | .go => GoWriter.openings
  | .rust => RustWriter.openings

/-- The openings of a target are those of its standard writer. -/
theorem governs_standard (environment : Environment) (target : Target) :
    target.openings.Governs environment (Writer.standard target).expression := by
  cases target with
  | go => exact GoWriter.governs
  | rust => exact RustWriter.governs

/-- No handle is written like what is absent otherwise, in either target. -/
theorem handle_ne_absent (target missing : Target) {environment : Environment}
    {declaration : Declaration} (spelled : NameSpelled declaration)
    (handle : declaration.isHandle = true) {literal : Literal}
    (fitted : WellFormed environment declaration literal) :
    (Writer.standard target).expression literal ≠ missing.absentText := by
  have foreign : target.openings.IsForeign (missing.absentText.toList ++ [',']) := by
    cases target <;> cases missing <;> decide
  have bare := Declaration.isOptional_of_isHandle handle
  have opens := (governs_standard environment target).bare spelled bare fitted
  intro same
  rw [same] at opens
  exact opens.apart foreign [','] [] (List.append_nil _).symm

/-- No present value is written like the absent one of the same declaration. -/
theorem expression_ne_of_null {target : Target} {environment : Environment}
    {declaration : Declaration} (spelled : NameSpelled declaration) {value : Value}
    {literal missing : Literal}
    (fits : Literal.fit environment declaration value = .ok literal)
    (absent : Literal.fit environment declaration .null = .ok missing) (held : value ≠ .null) :
    (Writer.standard target).expression literal ≠ (Writer.standard target).expression missing := by
  have governs := governs_standard environment target
  intro same
  cases kind : declaration.isHandle with
  | false =>
    rw [(Literal.eq_null_iff kind absent).mpr rfl, governs.absent] at same
    have gone := (governs.eq_absent_iff spelled (Literal.wellFormed_of_fit fits)).mp same
    exact held ((Literal.eq_null_iff kind fits).mp gone)
  | true =>
    cases declaration with
    | handle subtype rights nullable =>
      obtain ⟨index, expected, rfl⟩ := Literal.exists_handle_of_fit fits held
      rw [Literal.eq_invalidHandle_of_fit absent] at same
      exact (revealsNodes_standard environment target).invalidHandle subtype index expected [] []
        (by rw [same])
    | _ => exact absurd kind Bool.false_ne_true

/-- The text of an accepted value shows whether the value is absent and whether its declaration
lets it be. -/
theorem showsPresence_of_encode {target : Target} {handles : HandleTable}
    {declaration : Declaration} (spelled : NameSpelled declaration) {value : Value} {text : String}
    (written : (Writer.standard target).encode handles declaration value = .ok text) :
    ShowsPresence target handles declaration value text := by
  obtain ⟨literal, fits, rfl⟩ := (Writer.encode_eq_ok_iff ..).mp written
  have fitted := Literal.wellFormed_of_fit fits
  have governs := governs_standard ((Writer.standard target).environment handles) target
  have absentText : target.openings.absent = target.absentText := by cases target <;> rfl
  have presentMark : target.openings.mark = target.presentMark := by cases target <;> rfl
  constructor
  case absent =>
    intro other
    rw [← absentText, governs.eq_absent_iff spelled fitted, Literal.eq_null_iff other fits]
  case present =>
    intro other
    rw [← presentMark, governs.begins_mark_iff spelled fitted, ne_eq,
      Literal.eq_null_iff other fits, Declaration.isOptional_eq other]
  case handle =>
    intro handle
    exact ⟨handle_ne_absent target .go spelled handle fitted,
      handle_ne_absent target .rust spelled handle fitted⟩
  case distinct =>
    intro held absent missing
    obtain ⟨other, suits, rfl⟩ := (Writer.encode_eq_ok_iff ..).mp missing
    exact expression_ne_of_null spelled fits suits held

/-- In Rust, an empty table is present where the table might be absent. -/
theorem showsPresence_of_encode_table :
    let declaration : Declaration :=
      .record ⟨"a.lib/empty table", .table, true, .value, .flexible⟩ []
    let text := "Some(Box::new(a_lib::EmptyTable \x7b\n..a_lib::EmptyTable::EMPTY\n\x7d))"
    NameSpelled declaration ∧
      (Writer.standard .rust).encode [] declaration (.record []) = .ok text ∧
      ShowsPresence .rust [] declaration (.record []) text := by
  intro declaration text
  have spelled : NameSpelled declaration := by decide
  have written : (Writer.standard .rust).encode [] declaration (.record []) = .ok text := by rfl
  exact ⟨spelled, written, showsPresence_of_encode spelled written⟩

end FixtureLiterals
