import FixtureLiterals.Emission.ErrorIdentifiers
import FixtureLiterals.Emission.Expressions
import FixtureLiterals.Literal.Fitting
import FixtureLiterals.Suite

/-!
# Written fixtures

A writer for either target turns values, handle tables and whole test cases into source
text. A case is written completely or not at all: its declaration is looked up, its value
is fitted and written, its handles are defined, and last its expectation is written. The
first of these to fail decides the failure of the case. A suite is written case by case,
and the first failing case decides.
-/

namespace FixtureLiterals

/-- A writer for one of the targets. -/
inductive Writer where
  | go (writer : GoWriter)
  | rust (writer : RustWriter)

/-- What a written test asserts after it has built its value. -/
inductive Outcome where
  | bytes (bytes dispositions : String)
  | error (identifier : String)
deriving DecidableEq, Repr

/-- A test case in writing. -/
structure Fixture where
  name : String
  value : String
  handles : String
  outcome : Outcome
deriving DecidableEq, Repr

namespace Writer

/-- The writer for a target with its standard settings. -/
def standard : Target → Writer
  | .go => .go .standard
  | .rust => .rust .standard

/-- The target that a writer writes for. -/
def target : Writer → Target
  | .go _ => .go
  | .rust _ => .rust

/-- Whether handles of a subtype can be spelled for a target. -/
def supportsHandle : Target → HandleSubtype → Bool
  | .go => GoWriter.supportsHandle
  | .rust => RustWriter.supportsHandle

/-- The surroundings of a value that is written with a handle table. -/
def environment (writer : Writer) (handles : HandleTable) : Environment where
  target := writer.target
  supports := supportsHandle writer.target
  handleCount := handles.length

/-- A literal as an expression. -/
def expression : Writer → Literal → String
  | .go writer => writer.expression
  | .rust writer => writer.expression

/-- The definitions of a handle table. -/
def handleDefinitions : Writer → HandleTable → Except Failure String
  | .go writer => writer.handleDefinitions
  | .rust _ => RustWriter.handleDefinitions

/-- Expected bytes. -/
def bytes : Writer → List UInt8 → String
  | .go writer => writer.bytes
  | .rust writer => writer.bytes

/-- The handles that are expected to move. -/
def dispositions : Writer → List HandleDisposition → String
  | .go writer => writer.dispositions
  | .rust writer => writer.dispositions

/-- The identifier of an error code. -/
def errorIdentifier : Writer → ErrorCode → String
  | .go writer => writer.errorIdentifier
  | .rust writer => writer.errorIdentifier

/-- Fit a value to its declaration, with a handle table. -/
def fit (writer : Writer) (handles : HandleTable) (declaration : Declaration) (value : Value) :
    Except Failure Literal :=
  Literal.fit (writer.environment handles) declaration value

/-- A value as an expression of its declared type. -/
def encode (writer : Writer) (handles : HandleTable) (declaration : Declaration) (value : Value) :
    Except Failure String := do
  return writer.expression (← writer.fit handles declaration value)

/-- The assertion for an expectation. A disposition has to refer to an entry of the
handle table. -/
def outcome (writer : Writer) (handles : HandleTable) : Expectation → Except Failure Outcome
  | .bytes bytes dispositions =>
    match dispositions.find? fun disposition => decide (handles.length ≤ disposition.handle.toNat) with
    | some disposition => fail (.handleOutOfRange disposition.handle handles.length)
    | none => .ok (.bytes (writer.bytes bytes) (writer.dispositions dispositions))
  | .error code => .ok (.error (writer.errorIdentifier code))

/-- The parts of a test case in writing. -/
def parts (writer : Writer) (suite : Suite) (testCase : TestCase) : Except Failure Fixture := do
  match suite.declaration? testCase.typeName with
  | none => fail (.missingDeclaration testCase.typeName)
  | some declaration =>
    let value ← writer.encode testCase.handles declaration testCase.value
    let handles ← writer.handleDefinitions testCase.handles
    let outcome ← writer.outcome testCase.handles testCase.expectation
    return ⟨testCase.name, value, handles, outcome⟩

/-- A test case in writing. A failure carries the name of the case. -/
def fixture (writer : Writer) (suite : Suite) (testCase : TestCase) : Except CaseFailure Fixture :=
  match writer.parts suite testCase with
  | .ok fixture => .ok fixture
  | .error failure => .error ⟨testCase.name, failure⟩

/-- All test cases of a suite in writing. The first failure in the order of the cases
decides. -/
def fixtures (writer : Writer) (suite : Suite) : Except CaseFailure (List Fixture) :=
  suite.cases.mapM (writer.fixture suite)

end Writer

end FixtureLiterals
