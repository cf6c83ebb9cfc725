import FixtureLiterals.Document.Suites
import FixtureLiterals.Proofs.Document.DeclarationDrafts
import FixtureLiterals.Proofs.Document.ValueDrafts

/-!
# Suites are recovered from their documents

Every member of a suite's document that has a default may be left out where it holds the
default: in test cases and expectations the handles that there are none of, in the suite itself
the declarations or the cases, and in declarations and values what their own drafts say. Any
choice of such members gives a document of the same suite.

A suite is recovered as a whole if its maps have distinct names, as maps do, and if no value in
it is a float, which may be rounded when it is written in decimal. Its document may nest as deep
as readers go. What is left out makes the document no deeper.
-/

namespace FixtureLiterals

open Document Document.Draft

namespace Expectation

/-- The draft of an expectation. -/
def draft : Expectation → Draft
  | .bytes encoded dispositions => .object [⟨"bytes", none, .object [
      ⟨"bytes", none, ofItems leaf encoded⟩,
      ⟨"handle_dispositions", some (Documented.toTree ([] : List HandleDisposition)),
        ofItems HandleDisposition.draft dispositions⟩]⟩]
  | .error code => .object [⟨"error", none, .object [
      ⟨"code", none, .leaf code⟩]⟩]

/-- An expectation is recovered. -/
theorem drafts (expectation : Expectation) : expectation.draft.Drafts expectation := by
  cases expectation with
  | bytes encoded dispositions =>
    have numbers := drafts_items fun byte (_ : byte ∈ encoded) => drafts_uint8 byte
    have moved := drafts_items fun disposition (_ : disposition ∈ dispositions) => disposition.drafts
    have full : (object [⟨"bytes", none, ofItems leaf encoded⟩, ⟨"handle_dispositions",
        some (Documented.toTree ([] : List HandleDisposition)),
        ofItems HandleDisposition.draft dispositions⟩]).full =
          ofMembers [("bytes", Documented.toTree encoded),
            ("handle_dispositions", Documented.toTree dispositions)] := by
      simp only [Draft.full, fullMembers, numbers.full, moved.full]
      rfl
    have inner := @recovers_object Expectation _ _
      (fun depth reading part =>
        Documented.ofTree? (depth + 1) reading (.object [(some "bytes", part)]))
      (.bytes encoded dispositions) ["bytes", "handle_dispositions"] rfl (by decide) full
      ⟨numbers.plain_full, moved.plain_full⟩ _ (fun _ _ _ => rfl)
      fun depth reading members answered => by
        rw [answered.1.required (numbers.yields depth reading),
          answered.2.withDefault (moved.yields depth reading) (moved.eq_of_full_eq drafts_empty)]
        rfl
    exact recovers_single inner rfl fun _ _ _ read => read
  | error code =>
    have word := drafts_word code
    have inner := @recovers_object Expectation [⟨"code", none, .leaf code⟩] _
      (fun depth reading part =>
        Documented.ofTree? (depth + 1) reading (.object [(some "error", part)]))
      (.error code) ["code"] rfl (by decide) rfl word.plain _ (fun _ _ _ => rfl)
      fun depth reading members answered => by
        rw [answered.required (word.yields depth reading)]
        rfl
    exact recovers_single inner rfl fun _ _ _ read => read

end Expectation

namespace TestCase

/-- The draft of a test case. -/
def draft (testCase : TestCase) : Draft := .object [
  ⟨"name", none, .leaf testCase.name⟩,
  ⟨"type", none, .leaf testCase.typeName⟩,
  ⟨"value", none, testCase.value.draft⟩,
  ⟨"handle_defs", some (Documented.toTree ([] : HandleTable)),
    ofItems HandleDefinition.draft testCase.handles⟩,
  ⟨"expect", none, testCase.expectation.draft⟩]

/-- A test case is recovered if there is no float in its value. -/
theorem drafts {testCase : TestCase} (floatless : testCase.value.Floatless) :
    testCase.draft.Drafts testCase := by
  have name := drafts_string testCase.name
  have type := drafts_string testCase.typeName
  have value := floatless.drafts
  have handles := drafts_items fun definition (_ : definition ∈ testCase.handles) =>
    definition.drafts
  have expectation := testCase.expectation.drafts
  have full : testCase.draft.full = Documented.toTree testCase := by
    simp only [draft, Draft.full, fullMembers, value.full, handles.full, expectation.full]
    rfl
  refine recovers_object ["name", "type", "value", "handle_defs", "expect"] rfl (by decide) full
    ⟨name.plain, type.plain, value.plain_full, handles.plain_full, expectation.plain_full⟩ _
    (fun _ _ _ => rfl) fun depth reading members answered => ?_
  obtain ⟨nameAnswered, typeAnswered, valueAnswered, handlesAnswered, expectationAnswered⟩ := answered
  rw [nameAnswered.required (name.yields depth reading),
    typeAnswered.required (type.yields depth reading),
    valueAnswered.required (value.yields depth reading),
    handlesAnswered.withDefault (handles.yields depth reading)
      (handles.eq_of_full_eq drafts_empty),
    expectationAnswered.required (expectation.yields depth reading)]
  rfl

end TestCase

namespace Suite

/-- The entry of a named declaration. -/
def declarationEntry (named : String × Declaration) : Entry Draft :=
  ⟨named.1, none, named.2.draft⟩

/-- The draft of a suite. -/
def draft (suite : Suite) : Draft := .object [
  ⟨"declarations", some (ofEntries Declaration.toTree []),
    .object (suite.declarations.map declarationEntry)⟩,
  ⟨"cases", some (Documented.toTree ([] : List TestCase)), ofItems TestCase.draft suite.cases⟩]

/-- A suite is recovered if its maps have distinct names and its values have no floats. -/
theorem drafts {suite : Suite} (names : (suite.declarations.map Prod.fst).Nodup)
    (apart : ∀ named ∈ suite.declarations, named.2.Distinct)
    (floatless : ∀ testCase ∈ suite.cases, testCase.value.Floatless) :
    suite.draft.Drafts suite := by
  have each : List.Forall₂ (Entry.Maps Declaration.toTree Declaration.ofTree?)
      (suite.declarations.map declarationEntry) suite.declarations :=
    List.forall₂_map_left_iff.mpr (List.forall₂_same.mpr fun named listed =>
      ⟨rfl, rfl, named.2.drafts_of_distinct (apart named listed)⟩)
  have declarations := recovers_map names each
  have cases := drafts_items fun testCase (listed : testCase ∈ suite.cases) =>
    TestCase.drafts (floatless testCase listed)
  have full : suite.draft.full = Documented.toTree suite := by
    have inside := declarations.full
    rw [Draft.full] at inside
    simp only [draft, Draft.full, fullMembers, inside, cases.full]
    rfl
  refine recovers_object ["declarations", "cases"] rfl (by decide) full
    ⟨declarations.plain_full, cases.plain_full⟩ _ (fun _ _ _ => rfl)
    fun depth reading members answered => ?_
  have nothing := @recovers_map _ Declaration.toTree Declaration.ofTree? [] [] List.nodup_nil .nil
  rw [answered.1.withDefault (declarations.yields depth reading)
      (declarations.eq_of_full_eq nothing),
    answered.2.withDefault (cases.yields depth reading) (cases.eq_of_full_eq drafts_empty)]
  rfl

/-- A suite whose document does not nest too deep is read from its document, and from every
document that leaves out members which hold their defaults. -/
theorem read_of_shows {suite : Suite} (names : (suite.declarations.map Prod.fst).Nodup)
    (apart : ∀ named ∈ suite.declarations, named.2.Distinct)
    (floatless : ∀ testCase ∈ suite.cases, testCase.value.Floatless)
    (shallow : (Documented.toTree suite).height ≤ nestingLimit) :
    suite.draft.full = Documented.toTree suite ∧
      ∀ tree, suite.draft.Shows tree → read? tree.compact = some suite := by
  have drafts := drafts names apart floatless
  exact ⟨drafts.full, fun tree shows => drafts.read? shallow shows⟩

/-- The document of a table with a vector of handles in it, and of a case that fills the table:
whatever has a default is left out. -/
theorem read_of_shows_table :
    let element : Declaration := .vector (.handle .event .same false) false
    let suite : Suite := {
      declarations := [("a.T", .record ⟨"a.T", .table, false, .value, .strict⟩ [⟨"h", 1, element⟩])]
      cases := [{
        name := "one"
        typeName := "a.T"
        value := .record [Value.named "h" (.list [.handle ⟨0, none⟩])]
        handles := []
        expectation := .bytes [7] []
      }]
    }
    let type := ofMembers [("type", Documented.toTree DeclarationTag.vector),
      ("elem", ofMembers [("type", Documented.toTree DeclarationTag.handle),
        ("subtype", Documented.toTree HandleSubtype.event)])]
    let declared := ofMembers [("type", Documented.toTree DeclarationTag.record),
      ("name", Documented.toTree "a.T"), ("kind", Documented.toTree RecordKind.table),
      ("fields", ofMembers [("h", ofMembers
        [("ordinal", Documented.toTree (1 : UInt64)), ("type", type)])])]
    let value := ofMembers [("kind", Documented.toTree ValueKind.record),
      ("value", ofMembers [("fields", .array [ofMembers
        [("key", ofMembers [("name", Documented.toTree "h")]),
          ("value", ofMembers [("kind", Documented.toTree ValueKind.list), ("value", .array
            [ofMembers [("kind", Documented.toTree ValueKind.handle),
              ("value", ofMembers [("index", Documented.toTree (0 : UInt64))])]])])]])])]
    let tree := ofMembers [("declarations", ofMembers [("a.T", declared)]),
      ("cases", .array [ofMembers [("name", Documented.toTree "one"),
        ("type", Documented.toTree "a.T"), ("value", value),
        ("expect", ofMembers [("bytes", ofMembers [("bytes", .array [Documented.toTree (7 : UInt8)])])])]])]
    (Documented.toTree suite).height ≤ nestingLimit ∧ suite.draft.Shows tree ∧
      read? tree.compact = some suite := by
  intro element suite type declared value tree
  have shallow : (Documented.toTree suite).height ≤ nestingLimit := by decide
  have names : (suite.declarations.map Prod.fst).Nodup := by decide
  have apart : ∀ named ∈ suite.declarations, named.2.Distinct := by
    rintro named listed
    obtain rfl := List.mem_singleton.mp listed
    exact ⟨by simp [Declaration.NamesApart], ⟨trivial, trivial⟩, trivial⟩
  have floatless : ∀ testCase ∈ suite.cases, testCase.value.Floatless := by
    rintro testCase listed
    obtain rfl := List.mem_singleton.mp listed
    exact .record (List.forall_mem_singleton.mpr
      (.list (List.forall_mem_singleton.mpr (.handle ⟨0, none⟩))))
  -- Of every entry, either the member is there or the entry may be left out.
  have shows : suite.draft.Shows tree := by
    repeat constructor
  exact ⟨shallow, shows, (read_of_shows names apart floatless shallow).2 tree shows⟩

end Suite

end FixtureLiterals
