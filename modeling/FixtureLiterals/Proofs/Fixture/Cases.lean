import FixtureLiterals.Fixture
import FixtureLiterals.Proofs.Fitting.Failures
import FixtureLiterals.Proofs.Literal.Handles

/-!
# Cases are written completely or not at all

A test case passes through four stages: its declaration is looked up, its value is fitted, its
handles are defined, and what it expects is written. The stages share one handle table, but each
has a rule of its own for it. A literal may refer to any entry of the table; an entry may be held
by the target's bindings and yet be impossible to create in a test; and a disposition is checked
against the length of the table only.

So two things have to be shown. A case is written exactly if it passes all stages, and then
nothing in its text refers past the definitions that are written with it. Otherwise its failure
is the first one in the order of the stages, and within a stage the first one in the order of
the definitions or dispositions.
-/

namespace FixtureLiterals

/-- The dispositions that an expectation comes with. A refusal moves no handles. -/
def Expectation.dispositions : Expectation → List HandleDisposition
  | .bytes _ dispositions => dispositions
  | .error _ => []

namespace Writer

/-- The handle subtypes that a test for a target can create. -/
def creatable : Target → List HandleSubtype
  | .go => [.channel, .event]
  | .rust => [.channel, .event, .eventpair, .socket, .vmo]

/-- The definitions of handles, one by one, from position `position` on. -/
def definitionLines : Writer → Nat → List HandleDefinition → Except Failure (List String)
  | .go writer => writer.definitionLines
  | .rust _ => RustWriter.definitionLines

/-- A table of handle definitions. -/
def definitionTable : Writer → List String → String
  | .go _, [] => "\"\""
  | .go _, lines => GoWriter.composite "[]handleDef" lines
  | .rust _, lines => Emission.block "&[" lines "]"

/-- The assertion for an expectation, whatever it refers to. -/
def assertion (writer : Writer) : Expectation → Outcome
  | .bytes bytes dispositions => .bytes (writer.bytes bytes) (writer.dispositions dispositions)
  | .error code => .error (writer.errorIdentifier code)

variable (writer : Writer)

section Definitions

variable (position : Nat) (definition : HandleDefinition) (definitions : List HandleDefinition)

/-- A definition that can be created gets a line in front of the others. -/
theorem definitionLines_of_creatable (created : definition.subtype ∈ creatable writer.target) :
    ∃ line, writer.definitionLines position (definition :: definitions) =
      (writer.definitionLines (position + 1) definitions >>= fun lines => pure (line :: lines)) := by
  obtain ⟨subtype, rights⟩ := definition
  cases writer with
  | go writer =>
    cases subtype with
    | channel | event => exact ⟨_, rfl⟩
    | _ => exact absurd created (by simp [creatable, target])
  | rust writer =>
    cases subtype with
    | channel | event | eventpair | socket | vmo => exact ⟨_, rfl⟩
    | _ => exact absurd created (by simp [creatable, target])

/-- A definition that cannot be created fails at its position, whatever follows it. -/
theorem definitionLines_of_uncreatable
    (uncreatable : definition.subtype ∉ creatable writer.target) :
    writer.definitionLines position (definition :: definitions) =
      .error ⟨.unsupportedHandle definition.subtype writer.target, .handleDefinition position⟩ := by
  obtain ⟨subtype, rights⟩ := definition
  cases writer with
  | go writer =>
    cases subtype with
    | channel | event => exact absurd (by simp [creatable, target]) uncreatable
    | _ => rfl
  | rust writer =>
    cases subtype with
    | channel | event | eventpair | socket | vmo =>
      exact absurd (by simp [creatable, target]) uncreatable
    | _ => rfl

/-- Definitions are written if each can be created, one line for each. -/
theorem exists_definitionLines
    (created : ∀ definition ∈ definitions, definition.subtype ∈ creatable writer.target) :
    ∃ lines, writer.definitionLines position definitions = .ok lines ∧
      lines.length = definitions.length := by
  induction definitions generalizing position with
  | nil => cases writer <;> exact ⟨[], rfl, rfl⟩
  | cons definition definitions inductionHypothesis =>
    obtain ⟨first, others⟩ := List.forall_mem_cons.mp created
    obtain ⟨line, step⟩ := writer.definitionLines_of_creatable position definition definitions first
    obtain ⟨lines, rest, counted⟩ := inductionHypothesis (position + 1) others
    refine ⟨line :: lines, ?_, congrArg Nat.succ counted⟩
    rw [step, rest]
    rfl

/-- Definitions fail exactly at the first one that cannot be created. -/
theorem definitionLines_eq_error_iff (failure : Failure) :
    writer.definitionLines position definitions = .error failure ↔
      ∃ before definition after, definitions = before ++ definition :: after ∧
        (∀ earlier ∈ before, earlier.subtype ∈ creatable writer.target) ∧
        definition.subtype ∉ creatable writer.target ∧
        failure = ⟨.unsupportedHandle definition.subtype writer.target,
          .handleDefinition (position + before.length)⟩ := by
  induction definitions generalizing position with
  | nil =>
    constructor
    · intro fails
      cases writer <;> exact nomatch fails
    · rintro ⟨before, definition, after, listed, -⟩
      exact absurd listed (by simp)
  | cons first definitions inductionHypothesis =>
    by_cases created : first.subtype ∈ creatable writer.target
    · obtain ⟨line, step⟩ := writer.definitionLines_of_creatable position first definitions created
      rw [step, bind_eq_error_iff, inductionHypothesis]
      constructor
      · rintro (⟨before, definition, after, rfl, earlier, uncreatable, rfl⟩ | ⟨_, _, impossible⟩)
        · refine ⟨first :: before, definition, after, rfl,
            List.forall_mem_cons.mpr ⟨created, earlier⟩, uncreatable, ?_⟩
          rw [List.length_cons, Nat.add_assoc, Nat.add_comm 1]
        · exact nomatch impossible
      · rintro ⟨before, definition, after, listed, earlier, uncreatable, rfl⟩
        cases before with
        | nil =>
          obtain ⟨rfl, -⟩ := List.cons.inj listed
          exact absurd created uncreatable
        | cons _ before =>
          obtain ⟨rfl, rfl⟩ := List.cons.inj listed
          obtain ⟨-, others⟩ := List.forall_mem_cons.mp earlier
          refine .inl ⟨before, definition, after, rfl, others, uncreatable, ?_⟩
          rw [List.length_cons, Nat.add_assoc, Nat.add_comm 1]
    · rw [writer.definitionLines_of_uncreatable position first definitions created]
      constructor
      · intro fails
        exact ⟨[], first, definitions, rfl, nofun, created, (Except.error.inj fails).symm⟩
      · rintro ⟨before, definition, after, listed, earlier, -, rfl⟩
        cases before with
        | nil =>
          obtain ⟨rfl, -⟩ := List.cons.inj listed
          rfl
        | cons _ before =>
          obtain ⟨rfl, -⟩ := List.cons.inj listed
          exact absurd (earlier _ List.mem_cons_self) created

/-- Where definitions were written, each can be created, and there is one line for each. -/
theorem definitionLines_eq_ok {lines : List String}
    (written : writer.definitionLines position definitions = .ok lines) :
    (∀ definition ∈ definitions, definition.subtype ∈ creatable writer.target) ∧
      lines.length = definitions.length := by
  induction definitions generalizing position lines with
  | nil =>
    cases writer <;> cases written <;> exact ⟨nofun, rfl⟩
  | cons definition definitions inductionHypothesis =>
    by_cases created : definition.subtype ∈ creatable writer.target
    · obtain ⟨line, step⟩ :=
        writer.definitionLines_of_creatable position definition definitions created
      rw [step, bind_eq_ok_iff] at written
      obtain ⟨others, rest, same⟩ := written
      obtain ⟨later, counted⟩ := inductionHypothesis (position + 1) rest
      obtain rfl := (pure_eq_ok_iff ..).mp same
      exact ⟨List.forall_mem_cons.mpr ⟨created, later⟩, congrArg Nat.succ counted⟩
    · rw [writer.definitionLines_of_uncreatable position definition definitions created] at written
      exact nomatch written

/-- A handle table is written from the lines of its definitions. -/
theorem handleDefinitions_eq (handles : HandleTable) :
    writer.handleDefinitions handles =
      (writer.definitionLines 0 handles >>= fun lines => pure (writer.definitionTable lines)) := by
  cases writer with
  | rust writer => rfl
  | go writer =>
    cases handles with
    | nil => rfl
    | cons definition handles =>
      have opened : (Writer.go writer).handleDefinitions (definition :: handles) =
          ((Writer.go writer).definitionLines 0 (definition :: handles) >>= fun lines =>
            pure (GoWriter.composite "[]handleDef" lines)) := rfl
      rw [opened]
      by_cases created : definition.subtype ∈ creatable (Writer.go writer).target
      · -- The table is not empty, so neither are its lines.
        obtain ⟨line, step⟩ :=
          (Writer.go writer).definitionLines_of_creatable 0 definition handles created
        rw [step]
        cases (Writer.go writer).definitionLines (0 + 1) handles <;> rfl
      · rw [(Writer.go writer).definitionLines_of_uncreatable 0 definition handles created]
        rfl

end Definitions

section Expectations

variable (handles : HandleTable) (expectation : Expectation)

/-- An expectation is written exactly if its dispositions are in the handle table. -/
theorem outcome_eq_ok_iff (outcome : Outcome) :
    writer.outcome handles expectation = .ok outcome ↔
      (∀ disposition ∈ expectation.dispositions, disposition.handle.toNat < handles.length) ∧
        outcome = writer.assertion expectation := by
  cases expectation with
  | error code =>
    simp only [Writer.outcome, Expectation.dispositions, List.not_mem_nil, false_implies,
      implies_true, true_and, Except.ok.injEq, assertion]
    exact eq_comm
  | bytes bytes dispositions =>
    simp only [Writer.outcome, Expectation.dispositions, assertion]
    split
    case h_1 disposition found =>
      have outside := List.find?_some found
      have listed := List.mem_of_find?_eq_some found
      simp only [fail_ne_ok, false_iff]
      rintro ⟨inTable, -⟩
      exact absurd (inTable disposition listed) (Nat.not_lt.mpr (of_decide_eq_true outside))
    case h_2 none =>
      have inTable : ∀ disposition ∈ dispositions, disposition.handle.toNat < handles.length := by
        intro disposition listed
        have passed := List.find?_eq_none.mp none disposition listed
        exact Nat.not_le.mp fun outside => passed (decide_eq_true outside)
      constructor
      · intro written
        exact ⟨inTable, (Except.ok.inj written).symm⟩
      · rintro ⟨-, rfl⟩
        rfl

/-- An expectation fails exactly at its first disposition outside the handle table. -/
theorem outcome_eq_error_iff (failure : Failure) :
    writer.outcome handles expectation = .error failure ↔
      ∃ before disposition after, expectation.dispositions = before ++ disposition :: after ∧
        (∀ earlier ∈ before, earlier.handle.toNat < handles.length) ∧
        handles.length ≤ disposition.handle.toNat ∧
        failure = ⟨.handleOutOfRange disposition.handle handles.length, .root⟩ := by
  cases expectation with
  | error code =>
    constructor
    · intro fails
      exact nomatch fails
    · rintro ⟨before, disposition, after, listed, -⟩
      exact absurd listed (by simp [Expectation.dispositions])
  | bytes bytes dispositions =>
    simp only [Writer.outcome, Expectation.dispositions]
    constructor
    · intro fails
      split at fails
      case h_1 disposition found =>
        obtain ⟨outside, before, after, listed, passed⟩ := List.find?_eq_some_iff_append.mp found
        refine ⟨before, disposition, after, listed, fun earlier member => ?_,
          of_decide_eq_true outside, (Except.error.inj fails).symm⟩
        have inside := passed earlier member
        exact Nat.not_le.mp fun other => by simp [other] at inside
      case h_2 => cases fails
    · rintro ⟨before, disposition, after, rfl, passed, outside, rfl⟩
      have found : (before ++ disposition :: after).find? (fun disposition =>
          decide (handles.length ≤ disposition.handle.toNat)) = some disposition := by
        refine List.find?_eq_some_iff_append.mpr
          ⟨decide_eq_true outside, before, after, rfl, fun earlier member => ?_⟩
        simpa using passed earlier member
      rw [found]
      rfl

end Expectations

section Cases

variable (suite : Suite) (testCase : TestCase)

/-- The value of a test case is fitted to the declaration of its type. -/
def Fitted : Prop :=
  ∃ declaration literal, suite.declaration? testCase.typeName = some declaration ∧
    writer.fit testCase.handles declaration testCase.value = .ok literal

/-- What a test case has to satisfy to be written. Nothing is asked of a refusal that it
expects. -/
structure Encodable : Prop where
  fitted : writer.Fitted suite testCase
  created : ∀ definition ∈ testCase.handles, definition.subtype ∈ creatable writer.target
  inTable : ∀ disposition ∈ testCase.expectation.dispositions,
    disposition.handle.toNat < testCase.handles.length

/-- A test case in writing, with all of its parts. Whatever the literal and the dispositions refer
to is one of the definitions that are written with them. -/
structure Complete (fixture : Fixture) (literal : Literal) (definitions : List String) : Prop where
  fitted : ∃ declaration, suite.declaration? testCase.typeName = some declaration ∧
    writer.fit testCase.handles declaration testCase.value = .ok literal
  defined : writer.definitionLines 0 testCase.handles = .ok definitions
  counted : definitions.length = testCase.handles.length
  written : fixture = ⟨testCase.name, writer.expression literal,
    writer.definitionTable definitions, writer.assertion testCase.expectation⟩
  literalHandles : ∀ index ∈ literal.handleIndices, index.toNat < definitions.length
  movedHandles : ∀ disposition ∈ testCase.expectation.dispositions,
    disposition.handle.toNat < definitions.length

/-- The first fault of a test case, in the order of the stages, and within a stage in the order
of the definitions or dispositions. -/
inductive FirstFault : Failure → Prop
  | undeclared (missing : suite.declaration? testCase.typeName = none) :
      FirstFault ⟨.missingDeclaration testCase.typeName, .root⟩
  | value {declaration : Declaration} {failure : Failure}
      (declared : suite.declaration? testCase.typeName = some declaration)
      (fails : writer.fit testCase.handles declaration testCase.value = .error failure) :
      FirstFault failure
  | definition {before after : List HandleDefinition} {definition : HandleDefinition}
      (fitted : writer.Fitted suite testCase)
      (listed : testCase.handles = before ++ definition :: after)
      (created : ∀ earlier ∈ before, earlier.subtype ∈ creatable writer.target)
      (uncreatable : definition.subtype ∉ creatable writer.target) :
      FirstFault ⟨.unsupportedHandle definition.subtype writer.target,
        .handleDefinition before.length⟩
  | disposition {before after : List HandleDisposition} {disposition : HandleDisposition}
      (fitted : writer.Fitted suite testCase)
      (created : ∀ definition ∈ testCase.handles, definition.subtype ∈ creatable writer.target)
      (listed : testCase.expectation.dispositions = before ++ disposition :: after)
      (inTable : ∀ earlier ∈ before, earlier.handle.toNat < testCase.handles.length)
      (outside : testCase.handles.length ≤ disposition.handle.toNat) :
      FirstFault ⟨.handleOutOfRange disposition.handle testCase.handles.length, .root⟩

variable {suite testCase}

/-- The stages behind the look-up of a declaration, in the order in which they are passed. -/
theorem parts_eq {declaration : Declaration}
    (declared : suite.declaration? testCase.typeName = some declaration) :
    writer.parts suite testCase =
      (writer.fit testCase.handles declaration testCase.value >>= fun literal =>
        writer.definitionLines 0 testCase.handles >>= fun definitions =>
        writer.outcome testCase.handles testCase.expectation >>= fun outcome =>
        pure ⟨testCase.name, writer.expression literal, writer.definitionTable definitions,
          outcome⟩) := by
  rw [Writer.parts, declared]
  simp only [Writer.encode, handleDefinitions_eq, bind_assoc, pure_bind]

/-- A test case that is written is complete. -/
theorem complete_of_parts {fixture : Fixture} (written : writer.parts suite testCase = .ok fixture) :
    ∃ literal definitions, writer.Complete suite testCase fixture literal definitions := by
  cases found : suite.declaration? testCase.typeName with
  | none =>
    rw [Writer.parts, found] at written
    exact nomatch written
  | some declaration =>
    rw [writer.parts_eq found] at written
    simp only [bind_eq_ok_iff, outcome_eq_ok_iff, pure_eq_ok_iff] at written
    obtain ⟨literal, fits, definitions, defined, outcome, ⟨moved, rfl⟩, rfl⟩ := written
    obtain ⟨created, counted⟩ := writer.definitionLines_eq_ok 0 testCase.handles defined
    have inTable := Literal.inTable_of_wellFormed (Literal.wellFormed_of_fit fits)
    exact ⟨literal, definitions, ⟨declaration, found, fits⟩, defined, counted, rfl,
      fun index referred => counted ▸ inTable index referred,
      fun disposition listed => counted ▸ moved disposition listed⟩

/-- A complete test case satisfies what is asked of it. -/
theorem Complete.encodable {writer : Writer} {fixture : Fixture} {literal : Literal}
    {definitions : List String}
    (complete : writer.Complete suite testCase fixture literal definitions) :
    writer.Encodable suite testCase where
  fitted := by
    obtain ⟨declaration, declared, fits⟩ := complete.fitted
    exact ⟨declaration, literal, declared, fits⟩
  created := (writer.definitionLines_eq_ok 0 testCase.handles complete.defined).1
  inTable disposition listed := complete.counted ▸ complete.movedHandles disposition listed

/-- A test case that satisfies what is asked of it is written. -/
theorem exists_parts_of_encodable (encodable : writer.Encodable suite testCase) :
    ∃ fixture, writer.parts suite testCase = .ok fixture := by
  obtain ⟨declaration, literal, declared, fits⟩ := encodable.fitted
  obtain ⟨definitions, defined, -⟩ :=
    writer.exists_definitionLines 0 testCase.handles encodable.created
  have asserted := (writer.outcome_eq_ok_iff testCase.handles testCase.expectation _).mpr
    ⟨encodable.inTable, rfl⟩
  rw [writer.parts_eq declared, fits, defined, asserted]
  exact ⟨_, rfl⟩

/-- A test case fails exactly by its first fault. -/
theorem parts_eq_error_iff (failure : Failure) :
    writer.parts suite testCase = .error failure ↔ writer.FirstFault suite testCase failure := by
  constructor
  · intro fails
    cases found : suite.declaration? testCase.typeName with
    | none =>
      rw [Writer.parts, found] at fails
      obtain rfl := Except.error.inj fails
      exact .undeclared found
    | some declaration =>
      rw [writer.parts_eq found] at fails
      simp only [bind_eq_error_iff, definitionLines_eq_error_iff, outcome_eq_error_iff] at fails
      rcases fails with unfitted | ⟨literal, fits, undefined | ⟨definitions, defined, unlisted⟩⟩
      · exact .value found unfitted
      · obtain ⟨before, definition, after, listed, created, uncreatable, rfl⟩ := undefined
        rw [Nat.zero_add]
        exact .definition ⟨declaration, literal, found, fits⟩ listed created uncreatable
      · rcases unlisted with ⟨before, disposition, after, listed, inTable, outside, rfl⟩ | passed
        · exact .disposition ⟨declaration, literal, found, fits⟩
            (writer.definitionLines_eq_ok 0 testCase.handles defined).1 listed inTable outside
        · obtain ⟨outcome, -, impossible⟩ := passed
          exact nomatch impossible
  · intro fault
    cases fault with
    | undeclared missing =>
      rw [Writer.parts, missing]
      rfl
    | value declared fails =>
      rw [writer.parts_eq declared, fails]
      rfl
    | definition fitted listed created uncreatable =>
      obtain ⟨declaration, literal, declared, fits⟩ := fitted
      have undefined := (writer.definitionLines_eq_error_iff 0 testCase.handles _).mpr
        ⟨_, _, _, listed, created, uncreatable, rfl⟩
      rw [writer.parts_eq declared, fits, undefined, Nat.zero_add]
      rfl
    | disposition fitted created listed inTable outside =>
      obtain ⟨declaration, literal, declared, fits⟩ := fitted
      obtain ⟨definitions, defined, -⟩ := writer.exists_definitionLines 0 testCase.handles created
      have unlisted := (writer.outcome_eq_error_iff testCase.handles testCase.expectation _).mpr
        ⟨_, _, _, listed, inTable, outside, rfl⟩
      rw [writer.parts_eq declared, fits, defined, unlisted]
      rfl

/-- A test case has a fixture exactly if its parts are written. -/
theorem fixture_eq_ok_iff (fixture : Fixture) :
    writer.fixture suite testCase = .ok fixture ↔ writer.parts suite testCase = .ok fixture := by
  rw [Writer.fixture]
  cases writer.parts suite testCase <;> simp

/-- A test case fails exactly if its parts do, and then under its own name. -/
theorem fixture_eq_error_iff (failed : CaseFailure) :
    writer.fixture suite testCase = .error failed ↔
      failed.caseName = testCase.name ∧ writer.parts suite testCase = .error failed.failure := by
  obtain ⟨name, failure⟩ := failed
  rw [Writer.fixture]
  cases writer.parts suite testCase with
  | ok fixture => simp
  | error other =>
    simp only [Except.error.injEq, CaseFailure.mk.injEq]
    rw [eq_comm (a := name)]

end Cases

/-- A test case is written exactly if its type is declared, its value is fitted, its handles can
be created, and its dispositions are in the handle table. Then it is complete: the literal and
the dispositions refer to nothing but the definitions that are written with them. Otherwise it
fails under its own name and by its first fault. -/
theorem fixture_complete_or_first_fault (writer : Writer) (suite : Suite) (testCase : TestCase) :
    ((∃ fixture, writer.fixture suite testCase = .ok fixture) ↔
      writer.Encodable suite testCase) ∧
    (∀ fixture, writer.fixture suite testCase = .ok fixture →
      ∃ literal definitions, writer.Complete suite testCase fixture literal definitions) ∧
    ∀ failed, writer.fixture suite testCase = .error failed ↔
      failed.caseName = testCase.name ∧ writer.FirstFault suite testCase failed.failure := by
  simp only [fixture_eq_ok_iff]
  refine ⟨⟨?_, writer.exists_parts_of_encodable⟩, ?_, ?_⟩
  · rintro ⟨fixture, written⟩
    obtain ⟨literal, definitions, complete⟩ := writer.complete_of_parts written
    exact complete.encodable
  · intro fixture written
    exact writer.complete_of_parts written
  · intro failed
    rw [fixture_eq_error_iff, parts_eq_error_iff]

end Writer

end FixtureLiterals
