import FixtureLiterals.Proofs.Fixture.Cases
import FixtureLiterals.Proofs.Fixture.Validation
import FixtureLiterals.Proofs.Pairwise

/-!
# Suites are written in order, and their failures name one case

The cases of a suite are written independently of each other, in any order and possibly side by
side. Each result is put into the slot of its case, and the slots are collected in the order of
the cases once all of them are filled. The first failure among them decides.

That a failure can be traced to its case rests on two checks that were made before: the names of
the cases of a sound suite differ, and their types are declared. The second also rules out one
cause of failure altogether, since no value is ever blamed for a declaration that is missing.
-/

namespace FixtureLiterals

namespace Writer

/-- The results of the cases of a suite, as far as they are there. -/
abbrev Slots := List (Option (Except CaseFailure Fixture))

variable (writer : Writer) (suite : Suite)

/-- Write the case at a position into its slot. -/
def fill (slots : Slots) (position : Nat) : Slots :=
  slots.set position (suite.cases[position]?.map (writer.fixture suite))

/-- The slots of the cases once those at the positions in `order` are written, one after the
other. -/
def fillAll (order : List Nat) : Slots :=
  order.foldl (writer.fill suite) (List.replicate suite.cases.length none)

/-- The fixtures of all slots once each of them is filled. The first failure decides. -/
def collect (slots : Slots) : Option (Except CaseFailure (List Fixture)) :=
  (slots.mapM id).map fun results => results.mapM id

/-- The cases at the positions in `taken` are written into their slots, and no others. -/
def Filled (taken : List Nat) (slots : Slots) : Prop :=
  ∀ position, slots[position]? = suite.cases[position]?.map fun testCase =>
    if position ∈ taken then some (writer.fixture suite testCase) else none

/-- A case at a position fails with `failed`, and no case in front of it fails. Its name belongs to
no other case, and it has a declaration. -/
structure FailsFirst (position : Nat) (failed : CaseFailure) : Prop where
  fails : ∃ testCase, suite.cases[position]? = some testCase ∧
    writer.fixture suite testCase = .error failed
  earlier : ∀ other < position, ∀ testCase, suite.cases[other]? = some testCase →
    ∃ fixture, writer.fixture suite testCase = .ok fixture
  named : ∀ other testCase, suite.cases[other]? = some testCase →
    (testCase.name = failed.caseName ↔ other = position)
  declared : ∀ typeName, failed.failure.fault ≠ .missingDeclaration typeName

/-- What holds of a suite in writing. -/
structure InOrder : Prop where
  /-- It is written exactly if each of its cases is. -/
  written_iff : (∃ fixtures, writer.fixtures suite = .ok fixtures) ↔
    ∀ testCase ∈ suite.cases, ∃ fixture, writer.fixture suite testCase = .ok fixture
  /-- Its fixtures are those of its cases, one by one. -/
  caseByCase : ∀ fixtures, writer.fixtures suite = .ok fixtures →
    suite.cases.map (writer.fixture suite) = fixtures.map .ok
  /-- It fails exactly by the first of its cases that fails. -/
  fails_iff : ∀ failed, writer.fixtures suite = .error failed ↔
    ∃ position, writer.FailsFirst suite position failed
  /-- It may be written in any order of its cases. -/
  anyOrder : ∀ order : List Nat, order.Perm (List.range suite.cases.length) →
    collect (writer.fillAll suite order) = some (writer.fixtures suite)
  /-- Each case is written the same among any other cases. -/
  alone : ∀ others testCase,
    writer.fixture { suite with cases := others } testCase = writer.fixture suite testCase
  /-- A case that is in two suites has the same fixture in both, wherever it stands in them. -/
  amongOthers : ∀ others fixtures otherFixtures, writer.fixtures suite = .ok fixtures →
    writer.fixtures { suite with cases := others } = .ok otherFixtures →
    ∀ position other : Nat, suite.cases[position]? = others[other]? →
      fixtures[position]? = otherFixtures[other]?

section Filling

variable {suite} {taken : List Nat} {slots : Slots}

/-- There is a slot for each case. -/
theorem Filled.length_eq {writer : Writer} (filled : writer.Filled suite taken slots) :
    slots.length = suite.cases.length := by
  have absent (position : Nat) : slots.length ≤ position ↔ suite.cases.length ≤ position := by
    rw [← List.getElem?_eq_none_iff, ← List.getElem?_eq_none_iff, filled position,
      Option.map_eq_none_iff]
  have fewer := (absent suite.cases.length).mpr (Nat.le_refl _)
  have more := (absent slots.length).mp (Nat.le_refl _)
  omega

/-- Nothing is written at first. -/
theorem filled_nil :
    writer.Filled suite [] (List.replicate suite.cases.length none) := by
  intro position
  rw [List.getElem?_replicate]
  split
  case isTrue inside => simp [List.getElem?_eq_getElem inside]
  case isFalse outside => simp [List.getElem?_eq_none (Nat.not_lt.mp outside)]

/-- Writing one more case changes its slot and no other. -/
theorem Filled.fill {writer : Writer} (filled : writer.Filled suite taken slots)
    (position : Nat) :
    writer.Filled suite (position :: taken) (writer.fill suite slots position) := by
  intro other
  rw [Writer.fill, List.getElem?_set, filled.length_eq]
  by_cases same : position = other
  · subst same
    by_cases inside : position < suite.cases.length
    · simp [inside]
    · simp [inside]
  · have apart : other ≠ position := Ne.symm same
    simp [same, apart, filled other]

/-- Once cases are written in some order, the slots of those cases are filled. -/
theorem Filled.foldl {writer : Writer} (filled : writer.Filled suite taken slots)
    (order : List Nat) :
    writer.Filled suite (order.reverse ++ taken) (order.foldl (writer.fill suite) slots) := by
  induction order generalizing taken slots with
  | nil => exact filled
  | cons position order inductionHypothesis =>
    rw [List.reverse_cons, List.append_assoc]
    exact inductionHypothesis (filled.fill position)

/-- Slots that are all filled are collected into what the suite is written as. -/
theorem Filled.collect_eq {writer : Writer} (filled : writer.Filled suite taken slots)
    (all : ∀ position < suite.cases.length, position ∈ taken) :
    collect slots = some (writer.fixtures suite) := by
  have complete : slots = suite.cases.map fun testCase => some (writer.fixture suite testCase) := by
    apply List.ext_getElem?
    intro position
    rw [filled position, List.getElem?_map]
    by_cases inside : position < suite.cases.length
    · simp [all position inside]
    · simp [inside]
  have gathered : slots.mapM id = some (suite.cases.map (writer.fixture suite)) := by
    rw [complete, List.mapM_map]
    exact List.mapM_pure
  rw [collect, gathered, Option.map_some, List.mapM_map, Function.id_comp, Writer.fixtures]

/-- In whatever order the cases of a suite are written, the same is collected. -/
theorem collect_fillAll {order : List Nat}
    (complete : order.Perm (List.range suite.cases.length)) :
    collect (writer.fillAll suite order) = some (writer.fixtures suite) := by
  have initial : writer.Filled suite [] (List.replicate suite.cases.length none) := writer.filled_nil
  apply (initial.foldl order).collect_eq
  intro position inside
  have listed : position ∈ order := complete.mem_iff.mpr (List.mem_range.mpr inside)
  exact List.mem_append_left _ (List.mem_reverse.mpr listed)

end Filling

/-- A suite that is written has the fixtures of its cases, one by one. -/
theorem map_fixture_of_fixtures {fixtures : List Fixture}
    (written : writer.fixtures suite = .ok fixtures) :
    suite.cases.map (writer.fixture suite) = fixtures.map .ok :=
  map_eq_map_of_forall₂ (fun _ _ same => same) ((mapM_eq_ok_iff ..).mp written)

section Failures

variable {writer} {suite}

/-- The first fault of a case of a declared type is not that its declaration is missing. -/
theorem FirstFault.ofValue {testCase : TestCase} {failure : Failure}
    (declared : suite.declaration? testCase.typeName ≠ none)
    (fault : writer.FirstFault suite testCase failure) : failure.fault.OfValue := by
  cases fault with
  | undeclared missing => exact absurd missing declared
  | value _ fails => exact Literal.fit_blamesValue _ _ _ _ fails
  | definition => trivial
  | disposition => trivial

/-- Where the names of cases differ, a name leads to one position. -/
theorem name_eq_iff (apart : (suite.cases.map TestCase.name).Nodup) {position : Nat}
    {testCase : TestCase} (here : suite.cases[position]? = some testCase) {other : Nat}
    {otherCase : TestCase} (there : suite.cases[other]? = some otherCase) :
    otherCase.name = testCase.name ↔ other = position := by
  constructor
  · intro same
    obtain ⟨inside, -⟩ := List.getElem?_eq_some_iff.mp there
    apply (List.getElem?_inj (by simpa using inside) apart).mp
    rw [List.getElem?_map, List.getElem?_map, here, there, Option.map_some, Option.map_some, same]
  · rintro rfl
    rw [Option.some.inj (there.symm.trans here)]

/-- A sound suite fails exactly by the first of its cases that does. -/
theorem fixtures_eq_error_iff (sound : suite.validate = .ok ()) (failed : CaseFailure) :
    writer.fixtures suite = .error failed ↔ ∃ position, writer.FailsFirst suite position failed := by
  obtain ⟨apart, declared⟩ := (suite.validate_eq_ok_iff.mp sound).cases
  rw [Writer.fixtures, mapM_eq_error_iff]
  constructor
  · rintro ⟨before, testCase, after, listed, passed, fails⟩
    have here : suite.cases[before.length]? = some testCase := by simp [listed]
    obtain ⟨named, fault⟩ := (writer.fixture_eq_error_iff failed).mp fails
    have found : suite.declaration? testCase.typeName ≠ none := fun missing =>
      (suite.declaration?_eq_none_iff _).mp missing (declared testCase (List.mem_of_getElem? here))
    have ofValue := ((writer.parts_eq_error_iff failed.failure).mp fault).ofValue found
    refine ⟨before.length, ⟨testCase, here, fails⟩, ?_, ?_, ?_⟩
    · intro other first otherCase there
      rw [listed, List.getElem?_append_left first] at there
      exact passed otherCase (List.mem_of_getElem? there)
    · intro other otherCase there
      rw [named]
      exact name_eq_iff apart here there
    · intro typeName missing
      rw [missing] at ofValue
      exact ofValue
  · rintro ⟨position, first⟩
    obtain ⟨testCase, here, fails⟩ := first.fails
    obtain ⟨inside, rfl⟩ := List.getElem?_eq_some_iff.mp here
    refine ⟨suite.cases.take position, _, suite.cases.drop (position + 1), ?_, ?_, fails⟩
    · rw [← List.drop_eq_getElem_cons inside, List.take_append_drop]
    · intro earlier listed
      obtain ⟨other, inside, rfl⟩ := List.mem_take_iff_getElem.mp listed
      have smaller := Nat.lt_of_lt_of_le inside (Nat.min_le_left ..)
      exact first.earlier other smaller _ (List.getElem?_eq_getElem _)

end Failures

/-- A sound suite is written exactly if each of its cases is, and then case by case. Otherwise it
fails by the first of its cases that fails, under the name of that case only and never for a
missing declaration. It makes no difference in which order the cases are written, and no case is
written otherwise for the cases next to it. -/
theorem fixtures_inOrder_of_validate (writer : Writer) (suite : Suite)
    (sound : suite.validate = .ok ()) : writer.InOrder suite where
  written_iff := by
    simp only [Writer.fixtures, mapM_eq_ok_iff]
    exact exists_forall₂_iff _ _
  caseByCase _ written := writer.map_fixture_of_fixtures _ written
  fails_iff := fixtures_eq_error_iff sound
  anyOrder _ complete := writer.collect_fillAll complete
  alone _ _ := rfl
  amongOthers others fixtures otherFixtures written otherwise position other same := by
    have left := congrArg (·[position]?) (writer.map_fixture_of_fixtures _ written)
    have right := congrArg (·[other]?) (writer.map_fixture_of_fixtures _ otherwise)
    simp only [List.getElem?_map] at left right
    apply Option.map_injective (fun _ _ => Except.ok.inj)
    exact left.symm.trans ((congrArg _ same).trans right)

/-- Three cases on a byte, of which the second and the third are out of range. -/
theorem fixtures_inOrder_of_validate_bytes :
    let testCase (name : String) (number : Int64) : TestCase :=
      ⟨name, "a.Byte", .integer (.signed number), [], .error .countExceedsLimit⟩
    let suite : Suite := ⟨[("a.Byte", .primitive .uint8)],
      [testCase "low" 7, testCase "high" 256, testCase "higher" 257]⟩
    suite.validate = .ok () ∧ (Writer.standard .go).InOrder suite := by
  intro testCase suite
  have sound : suite.validate = .ok () := by decide
  exact ⟨sound, fixtures_inOrder_of_validate _ suite sound⟩

end Writer

end FixtureLiterals
