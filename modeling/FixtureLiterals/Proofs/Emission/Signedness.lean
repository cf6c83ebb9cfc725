import FixtureLiterals.Fixture
import FixtureLiterals.Proofs.Emission.GoRecords
import FixtureLiterals.Proofs.Emission.RustRecords
import FixtureLiterals.Proofs.Fitting.Likeness
import FixtureLiterals.Proofs.Fitting.Success
import Mathlib.Logic.Relation

/-!
# The sign that a number is written in is of no account

A number of the lower half of the unsigned words may be written with a sign or without. A literal
remembers which, and so does the message of a failure. But the text of the literal does not, nor do
the category of the failure and its place.

The check of a number's range is another one for each sign, and the number may also stand where no
number is wanted: for another type, in a field that is unknown, or in a record that fails before
the number is looked at.
-/

namespace FixtureLiterals

/-- One step of writing a number in the other sign, at one place in a value. -/
inductive Respelling : Value → Value → Prop
  | number {first second : Integer} (same : first.toInt = second.toInt) :
      Respelling (.integer first) (.integer second)
  | inItem {before after : List Value} {item changed : Value} (inside : Respelling item changed) :
      Respelling (.list (before ++ item :: after)) (.list (before ++ changed :: after))
  | inField {before after : List (Field Value)} {key : FieldKey} {value changed : Value}
      (inside : Respelling value changed) :
      Respelling (.record (before ++ ⟨key, value⟩ :: after))
        (.record (before ++ ⟨key, changed⟩ :: after))

/-- A value is written with other signs at any number of places. -/
abbrev Respelled : Value → Value → Prop := Relation.ReflTransGen Respelling

/-- Both sides of a step are present. -/
theorem Respelling.isNull {value changed : Value} (respelling : Respelling value changed) :
    value.isNull = changed.isNull := by
  cases respelling <;> rfl

/-- Neither side of a step is unknown data. -/
theorem Respelling.ne_unknownData {value changed : Value} (respelling : Respelling value changed)
    (data : UnknownData) : value ≠ .unknownData data ∧ changed ≠ .unknownData data := by
  cases respelling <;> exact ⟨nofun, nofun⟩

namespace Writer

variable (writer : Writer)

/-- Fields of the same names and texts are the same in writing. -/
theorem fieldTexts_eq {fields others : List (String × Literal)}
    (each : List.Forall₂
      (SameName fun value other => writer.expression value = writer.expression other) fields others) :
    fields.map (fun field => (field.1, writer.expression field.2)) =
      others.map fun field => (field.1, writer.expression field.2) :=
  map_eq_map_of_forall₂ (fun _ _ same => Prod.ext same.1 same.2) each

/-- To a writer, faults of one category are alike, and so are literals of one text. -/
def likeness : Likeness where
  faults first second := first.category = second.category
  literals first second := writer.expression first = writer.expression second
  faults_refl _ := rfl
  literals_refl _ := rfl
  list type elements others each := by
    have texts : elements.map writer.expression = others.map writer.expression :=
      map_eq_map_of_forall₂ (fun _ _ same => same) each
    cases writer <;>
      simp only [expression, GoWriter.expression, GoWriter.expressions_eq_map,
        RustWriter.expression, RustWriter.expressions_eq_map] at texts ⊢ <;>
      rw [texts]
  struct name nullable fields others each := by
    have texts := writer.fieldTexts_eq each
    cases writer <;>
      simp only [expression, GoWriter.expression, GoWriter.fieldExpressions_eq_map,
        RustWriter.expression, RustWriter.fieldExpressions_eq_map] at texts ⊢ <;>
      rw [texts]
  union name nullable field ordinal value other same := by
    cases writer <;>
      simp only [expression, GoWriter.expression, RustWriter.expression] at same ⊢ <;>
      rw [same]
  table name nullable fields others unknown each := by
    have texts := writer.fieldTexts_eq each
    cases writer <;>
      simp only [expression, GoWriter.expression, GoWriter.fieldExpressions_eq_map,
        RustWriter.expression, RustWriter.fieldExpressions_eq_map] at texts ⊢ <;>
      rw [texts]

section Numbers

variable {first second : Integer} (same : first.toInt = second.toInt)
include same

/-- An integer is written by its number alone. -/
theorem expression_integer (subtype : Primitive) :
    writer.expression (.integer first subtype) = writer.expression (.integer second subtype) := by
  cases writer <;>
    simp only [expression, GoWriter.expression, RustWriter.expression, Integer.text, same]

/-- A value of a bits type is written by its number alone. -/
theorem expression_bits (name : QualifiedName) :
    writer.expression (.bits name first) = writer.expression (.bits name second) := by
  cases writer <;>
    simp only [expression, GoWriter.expression, RustWriter.expression, Integer.text, same]

/-- A value of an enum is written by its number alone. -/
theorem expression_enumeration (name : QualifiedName) :
    writer.expression (.enumeration name first) = writer.expression (.enumeration name second) := by
  cases writer <;>
    simp only [expression, GoWriter.expression, RustWriter.expression, Integer.text, same]

end Numbers

end Writer

namespace Literal

open Writer

variable (writer : Writer) (environment : Environment)

section Numbers

variable {first second : Integer} (same : first.toInt = second.toInt) (declaration : Declaration)
include same

/-- A number passes the check for either sign, or is out of range in both. -/
theorem fitInteger_same (subtype : Primitive) :
    Matches writer.likeness.faults (fun number other => number.toInt = other.toInt)
      (fitInteger declaration subtype (.integer first))
      (fitInteger declaration subtype (.integer second)) := by
  simp only [fitInteger, holdsInteger_eq, same]
  split
  · exact .ok same
  · exact .error rfl

/-- A number is a named scalar in either sign or in neither. -/
theorem fitScalar_same (scalar : NamedScalar) {build : QualifiedName → Integer → Literal}
    (built : ∀ name {number other : Integer}, number.toInt = other.toInt →
      writer.expression (build name number) = writer.expression (build name other)) :
    writer.likeness.Same (fitScalar declaration scalar build (.integer first))
      (fitScalar declaration scalar build (.integer second)) := by
  apply Matches.bind (writer.likeness.outcome_refl (QualifiedName.ofDeclared scalar.name))
  rintro name _ rfl
  exact .map (fitInteger_same writer same declaration scalar.subtype) fun _ _ => built name

/-- A number is fitted alike in either sign, or refused alike. -/
theorem fit_integer_same :
    writer.likeness.Same (fit environment declaration (.integer first))
      (fit environment declaration (.integer second)) := by
  cases declaration with
  | primitive subtype =>
    simp only [fit, fitPresent, fitPrimitive]
    split
    · apply Matches.map (fitInteger_same writer same _ subtype)
      intro number other same
      exact writer.expression_integer same subtype
    · exact .error rfl
  | bits scalar =>
    simp only [fit, fitPresent]
    apply fitScalar_same writer same _ scalar
    intro name number other same
    exact writer.expression_bits same name
  | enumeration scalar =>
    simp only [fit, fitPresent]
    apply fitScalar_same writer same _ scalar
    intro name number other same
    exact writer.expression_enumeration same name
  | handle | string | array | vector | record =>
    simp only [fit, fitPresent]
    exact .error rfl

end Numbers

/-- One step of writing a number in the other sign does not change what is written for a value,
or how and where it fails. -/
theorem same_of_respelling {value changed : Value} (respelling : Respelling value changed)
    (declaration : Declaration) :
    writer.likeness.Same (fit environment declaration value)
      (fit environment declaration changed) := by
  induction respelling generalizing declaration with
  | number same => exact fit_integer_same writer environment same declaration
  | inItem inside inductionHypothesis =>
    cases declaration with
    | array element size =>
      exact fit_array_same environment _ _ (inductionHypothesis element) size
    | vector element nullable =>
      exact fit_vector_same environment _ _ (inductionHypothesis element) nullable
    | _ => exact writer.likeness.same_refl _
  | @inField before after key value changed inside inductionHypothesis =>
    cases declaration with
    | record header members =>
      apply fit_record_same header environment before after
      cases key with
      | declared name =>
        apply Likeness.Fields.declared
        constructor
        · exact inside.isNull
        · exact List.forall_mem_map.mpr fun member _ _ => inductionHypothesis member.content
      | unknown ordinal =>
        apply Likeness.Fields.unknown
        constructor
        · intro data
          obtain ⟨before, after⟩ := inside.ne_unknownData data
          exact ⟨fun same => absurd same before, fun same => absurd same after⟩
        · rfl
    | _ => exact writer.likeness.same_refl _

end Literal

/-- One step of writing a number in the other sign leaves the text, or the category and the place of
the failure. -/
theorem matches_encode (writer : Writer) (handles : HandleTable) (declaration : Declaration)
    {value changed : Value} (respelling : Respelling value changed) :
    Matches writer.likeness.faults Eq (writer.encode handles declaration value)
      (writer.encode handles declaration changed) :=
  .map (Literal.same_of_respelling writer (writer.environment handles) respelling declaration)
    fun _ _ same => same

/-- Whatever signs the numbers in a value are written in, the value is written as the same text, or
fails by a fault of the same category at the same place. -/
theorem encode_of_respelled {value changed : Value} (respelled : Respelled value changed)
    (writer : Writer) (handles : HandleTable) (declaration : Declaration) :
    (∃ text, writer.encode handles declaration value = .ok text ∧
      writer.encode handles declaration changed = .ok text) ∨
    ∃ failure other, writer.encode handles declaration value = .error failure ∧
      writer.encode handles declaration changed = .error other ∧
      failure.fault.category = other.fault.category ∧ failure.place = other.place := by
  have matched : Matches writer.likeness.faults Eq (writer.encode handles declaration value)
      (writer.encode handles declaration changed) := by
    induction respelled with
    | refl => exact writer.likeness.outcome_refl _
    | tail _ respelling inductionHypothesis =>
      have step := matches_encode writer handles declaration respelling
      exact inductionHypothesis.trans (fun left right => left.trans right)
        (fun left right => left.trans right) step
  rcases matched.ok_or_error with ⟨text, _, written, again, rfl⟩ | failed
  · exact .inl ⟨text, written, again⟩
  · exact .inr failed

/-- In a table, two numbers are written without a sign: the greatest of an enum on a signed type, and
one of an unsigned type that is beyond the signed type of its width. -/
theorem encode_of_respelled_table :
    let declaration : Declaration := .record ⟨"lib/Sample", .table, false, .value, .strict⟩
      [⟨"mode", 1, .enumeration ⟨"lib/Mode", .int8⟩⟩, ⟨"level", 2, .primitive .uint8⟩]
    let value : Value := .record [Value.named "mode" (.integer (.signed 127)),
      Value.named "level" (.integer (.signed 128))]
    let changed : Value := .record [Value.named "mode" (.integer (.unsigned 127)),
      Value.named "level" (.integer (.unsigned 128))]
    Respelled value changed ∧
      ((∃ text, (Writer.standard .go).encode [] declaration value = .ok text ∧
        (Writer.standard .go).encode [] declaration changed = .ok text) ∨
      ∃ failure other, (Writer.standard .go).encode [] declaration value = .error failure ∧
        (Writer.standard .go).encode [] declaration changed = .error other ∧
        failure.fault.category = other.fault.category ∧ failure.place = other.place) := by
  intro declaration value changed
  have mode : Respelling value (.record ([] ++ Value.named "mode" (.integer (.unsigned 127)) ::
      [Value.named "level" (.integer (.signed 128))])) :=
    @Respelling.inField [] _ _ _ _ (.number rfl)
  have level : Respelling (.record ([Value.named "mode" (.integer (.unsigned 127))] ++
      Value.named "level" (.integer (.signed 128)) :: [])) changed :=
    @Respelling.inField [_] [] _ _ _ (.number rfl)
  have respelled : Respelled value changed := .tail (.single mode) level
  exact ⟨respelled, encode_of_respelled respelled (Writer.standard .go) [] declaration⟩

end FixtureLiterals
