import FixtureLiterals.Document.Declarations
import FixtureLiterals.Document.Values
import FixtureLiterals.Suite

/-!
# Suites in documents

A test case is a structure whose handles may be left out. Its expectation is an object
with a single member, which tells success from failure. A suite has a map of its
declarations and an array of its cases, both of which may be left out.
-/

namespace FixtureLiterals

open Document

instance : Documented Expectation where
  ofTree?
    | depth + 2, reading, .object [(some sort, content)] =>
      match sort with
      | "bytes" => do
        let members ← members? ["bytes", "handle_dispositions"] content
        let bytes ← members.required "bytes" (Documented.ofTree? depth reading)
        let dispositions ←
          members.withDefault "handle_dispositions" [] (Documented.ofTree? depth reading)
        return .bytes bytes dispositions
      | "error" => do
        let members ← members? ["code"] content
        return .error (← members.required "code" (Documented.ofTree? depth reading))
      | _ => none
    | _, _, _ => none
  toTree
    | .bytes bytes dispositions => ofMembers [("bytes", ofMembers [
        ("bytes", Documented.toTree bytes),
        ("handle_dispositions", Documented.toTree dispositions)])]
    | .error code => ofMembers [("error", ofMembers [("code", Documented.toTree code)])]

instance : Documented TestCase where
  ofTree?
    | 0, _, _ => none
    | depth + 1, reading, tree => do
      let members ← members? ["name", "type", "value", "handle_defs", "expect"] tree
      return {
        name := ← members.required "name" (Documented.ofTree? depth reading)
        typeName := ← members.required "type" (Documented.ofTree? depth reading)
        value := ← members.required "value" (Documented.ofTree? depth reading)
        handles := ← members.withDefault "handle_defs" [] (Documented.ofTree? depth reading)
        expectation := ← members.required "expect" (Documented.ofTree? depth reading)
      }
  toTree testCase := ofMembers [
    ("name", Documented.toTree testCase.name),
    ("type", Documented.toTree testCase.typeName),
    ("value", Documented.toTree testCase.value),
    ("handle_defs", Documented.toTree testCase.handles),
    ("expect", Documented.toTree testCase.expectation)]

instance : Documented Suite where
  ofTree?
    | 0, _, _ => none
    | depth + 1, reading, tree => do
      let members ← members? ["declarations", "cases"] tree
      return {
        declarations := ← members.withDefault "declarations" []
          (entries? (fun depth => Declaration.ofTree? depth reading) depth)
        cases := ← members.withDefault "cases" [] (Documented.ofTree? depth reading)
      }
  toTree suite := ofMembers [
    ("declarations", ofEntries Declaration.toTree suite.declarations),
    ("cases", Documented.toTree suite.cases)]

/-- Why a document holds no sound suite. -/
inductive LoadFault where
  /-- The document is no suite at all. -/
  | malformed
  | unsound (fault : SuiteFault)
deriving DecidableEq, Repr

/-- The sound suite that a document holds. -/
def Suite.load (text : String) : Except LoadFault Suite :=
  match (read? text : Option Suite) with
  | none => .error .malformed
  | some suite =>
    match suite.validate with
    | .error fault => .error (.unsound fault)
    | .ok () => .ok suite

end FixtureLiterals
