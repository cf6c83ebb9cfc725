import FixtureLiterals.ErrorCode
import FixtureLiterals.Schema.Declaration
import FixtureLiterals.Value

/-!
# Suites of fixtures

A suite names declarations and lists test cases on them. It is sound if its
declarations are named like their keys and put bits and enums on integers only, if no
two cases share a name, and if every case refers to a declaration of the suite. The
first fault is reported, declarations before cases and each in order.
-/

namespace FixtureLiterals

/-- What a test checks after it has built its value. -/
inductive Expectation where
  /-- The value is encoded as exactly these bytes and moves exactly these handles. -/
  | bytes (bytes : List UInt8) (dispositions : List HandleDisposition)
  /-- The value is refused. -/
  | error (code : ErrorCode)
deriving DecidableEq, Repr

/-- One test case. -/
structure TestCase where
  name : String
  /-- The qualified name of the declaration that the value is for. -/
  typeName : String
  value : Value
  handles : HandleTable
  expectation : Expectation

/-- Named declarations, in order, and the test cases on them. -/
structure Suite where
  declarations : List (String × Declaration)
  cases : List TestCase

/-- Why a suite is not sound. -/
inductive SuiteFault where
  | unknownType (caseName typeName : String)
  | invalidBacking (name : String) (subtype : Primitive)
  | nameMismatch (key name : String)
  | duplicateCase (caseName : String)
deriving DecidableEq, Repr

/-- The wording of a suite's fault. -/
def SuiteFault.message : SuiteFault → String
  | .unknownType caseName typeName =>
    "case `" ++ caseName ++ "` refers to unknown type `" ++ typeName ++ "`"
  | .invalidBacking name subtype =>
    "`" ++ name ++ "` is backed by `" ++ subtype.word ++ "`, expected an integer primitive"
  | .nameMismatch key name => "declaration keyed `" ++ key ++ "` is named `" ++ name ++ "`"
  | .duplicateCase caseName => "duplicate case name `" ++ caseName ++ "`"

namespace Declaration

mutual

/-- The named scalars of a declaration, in the order in which they are written. -/
def scalars : Declaration → List NamedScalar
  | .primitive _ | .handle _ _ _ | .string _ => []
  | .bits scalar | .enumeration scalar => [scalar]
  | .array element _ | .vector element _ => scalars element
  | .record _ members => memberScalars members

/-- The named scalars of a list of members. -/
def memberScalars : List (Member Declaration) → List NamedScalar
  | [] => []
  | ⟨_, _, content⟩ :: members => scalars content ++ memberScalars members

end

/-- The first named scalar that sits on something else than an integer. -/
def misbacked? (declaration : Declaration) : Option NamedScalar :=
  declaration.scalars.find? fun scalar => !scalar.subtype.isInteger

end Declaration

namespace Suite

/-- The declaration of a name. -/
def declaration? (suite : Suite) (name : String) : Option Declaration :=
  suite.declarations.lookup name

/-- The fault of a declaration that puts bits or an enum on something else than an
integer. -/
def backingFault? (declaration : Declaration) : Option SuiteFault :=
  declaration.misbacked?.map fun scalar => .invalidBacking scalar.name scalar.subtype

/-- The fault of a named declaration whose name is not its key. -/
def nameFault? (key : String) (declaration : Declaration) : Option SuiteFault :=
  match declaration.name? with
  | some name => if name = key then none else some (.nameMismatch key name)
  | none => none

/-- The first fault of a declaration with its key. -/
def declarationFault? (key : String) (declaration : Declaration) : Option SuiteFault :=
  (nameFault? key declaration).or (backingFault? declaration)

/-- The first fault of the test cases that follow those with the names in `earlier`. -/
def caseFault? (suite : Suite) (earlier : List String) : List TestCase → Option SuiteFault
  | [] => none
  | testCase :: rest =>
    if testCase.name ∈ earlier then some (.duplicateCase testCase.name)
    else if (suite.declaration? testCase.typeName).isNone then
      some (.unknownType testCase.name testCase.typeName)
    else caseFault? suite (testCase.name :: earlier) rest

/-- The first fault of a suite. -/
def fault? (suite : Suite) : Option SuiteFault :=
  (suite.declarations.findSome? fun (key, declaration) => declarationFault? key declaration).or
    (suite.caseFault? [] suite.cases)

/-- Accept a suite without a fault. -/
def validate (suite : Suite) : Except SuiteFault Unit :=
  match suite.fault? with
  | some fault => .error fault
  | none => .ok ()

end Suite

end FixtureLiterals
