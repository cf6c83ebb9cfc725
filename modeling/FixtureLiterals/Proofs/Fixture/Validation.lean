import FixtureLiterals.Proofs.Schema.Memberwise
import FixtureLiterals.Suite

/-!
# Validation finds the first fault of a suite

A suite is sound if its named declarations stand under their names, if bits and enums sit on
integers wherever they occur in a declaration, if the names of its cases differ, and if the types
of its cases are declared. None of these conditions knows an order. Validation goes through
the declarations first and through the cases after them, and stops at the first fault it meets.

What it meets first inside a declaration is settled by the order in which the declaration is
written: the whole before its parts, and the parts of a record in the order of its members.
-/

namespace FixtureLiterals

namespace Declaration

mutual

/-- A declaration and everything in it, the whole before its parts and the parts in order. -/
def preorder : Declaration → List Declaration
  | .array element size => .array element size :: preorder element
  | .vector element nullable => .vector element nullable :: preorder element
  | .record header members => .record header members :: membersPreorder members
  | declaration => [declaration]

/-- The declarations of members and everything in them, in the order of the members. -/
def membersPreorder : List (Member Declaration) → List Declaration
  | [] => []
  | ⟨_, _, content⟩ :: members => preorder content ++ membersPreorder members

end

/-- The scalar that bits or an enum give a name to. -/
def scalar? : Declaration → Option NamedScalar
  | .bits scalar | .enumeration scalar => some scalar
  | _ => none

/-- If a declaration is one of bits or of an enum, it is backed by an integer. -/
def IntegerBacked (declaration : Declaration) : Prop :=
  ∀ scalar, declaration.scalar? = some scalar → scalar.subtype.isInteger = true

/-- If a declaration has a name, the name is its key. -/
def NamedLike (key : String) (declaration : Declaration) : Prop :=
  ∀ name, declaration.name? = some name → name = key

/-- What holds of everything in a declaration holds along its preorder. -/
theorem all_iff_preorder (property : Declaration → Prop) (declaration : Declaration) :
    All property declaration ↔ ∀ part ∈ declaration.preorder, property part := by
  induction declaration using Declaration.memberwise with
  | primitive subtype | bits scalar | enumeration scalar | handle subtype rights nullable
  | string nullable => simp [All, preorder]
  | array element size inductionHypothesis | vector element nullable inductionHypothesis =>
    simp [All, preorder, inductionHypothesis]
  | record header members inductionHypothesis =>
    have each : AllMembers property members ↔ ∀ part ∈ membersPreorder members, property part := by
      clear header
      induction members with
      | nil => simp [AllMembers, membersPreorder]
      | cons member members later =>
        obtain ⟨first, others⟩ := List.forall_mem_cons.mp inductionHypothesis
        simp only [AllMembers, membersPreorder, List.forall_mem_append, first, later others]
    simp only [All, preorder, List.forall_mem_cons, each]

/-- The scalars of a declaration are those along its preorder. -/
theorem scalars_eq_filterMap (declaration : Declaration) :
    declaration.scalars = declaration.preorder.filterMap scalar? := by
  induction declaration using Declaration.memberwise with
  | primitive subtype | bits scalar | enumeration scalar | handle subtype rights nullable
  | string nullable => simp [scalars, preorder, scalar?]
  | array element size inductionHypothesis | vector element nullable inductionHypothesis =>
    rw [scalars, preorder, List.filterMap_cons_none rfl, inductionHypothesis]
  | record header members inductionHypothesis =>
    have each : memberScalars members = (membersPreorder members).filterMap scalar? := by
      clear header
      induction members with
      | nil => rfl
      | cons member members later =>
        obtain ⟨first, others⟩ := List.forall_mem_cons.mp inductionHypothesis
        simp only [memberScalars, membersPreorder, List.filterMap_append, first, later others]
    rw [scalars, preorder, List.filterMap_cons_none rfl, each]

/-- Whether a declaration is backed by an integer can be read off its scalar. -/
theorem integerBacked_iff (declaration : Declaration) :
    IntegerBacked declaration ↔
      declaration.scalar?.any (fun scalar => !scalar.subtype.isInteger) = false := by
  unfold IntegerBacked
  cases declaration.scalar? <;> simp

/-- The first badly backed scalar of a declaration is the one that comes first along its preorder. -/
theorem misbacked?_eq_some_iff (declaration : Declaration) (scalar : NamedScalar) :
    declaration.misbacked? = some scalar ↔
      ∃ before part after, declaration.preorder = before ++ part :: after ∧
        (∀ earlier ∈ before, IntegerBacked earlier) ∧
        part.scalar? = some scalar ∧ scalar.subtype.isInteger = false := by
  simp only [misbacked?, scalars_eq_filterMap, List.find?_filterMap, Option.bind_eq_some_iff,
    List.find?_eq_some_iff_append, integerBacked_iff, Bool.not_eq_true']
  constructor
  · rintro ⟨part, ⟨misbacked, before, after, listed, earlier⟩, found⟩
    rw [found] at misbacked
    exact ⟨before, part, after, listed, earlier, found, by simpa using misbacked⟩
  · rintro ⟨before, part, after, listed, earlier, found, misbacked⟩
    exact ⟨part, ⟨by simp [found, misbacked], before, after, listed, earlier⟩, found⟩

/-- A declaration has no badly backed scalar exactly if everything in it is backed by integers. -/
theorem misbacked?_eq_none_iff (declaration : Declaration) :
    declaration.misbacked? = none ↔ declaration.All IntegerBacked := by
  rw [misbacked?, List.find?_eq_none, scalars_eq_filterMap, all_iff_preorder]
  constructor
  · intro backed part listed scalar found
    simpa using backed scalar (List.mem_filterMap.mpr ⟨part, listed, found⟩)
  · intro backed scalar listed
    obtain ⟨part, inside, found⟩ := List.mem_filterMap.mp listed
    simpa using backed part inside scalar found

end Declaration

namespace Suite

open Declaration

/-- A declaration that stands under its name if it has one, with bits and enums on integers. -/
structure DeclarationSound (key : String) (declaration : Declaration) : Prop where
  named : NamedLike key declaration
  backed : declaration.All IntegerBacked

/-- The fault of a single declaration. Its name is looked at before what it is made of. -/
inductive DeclarationFault (key : String) (declaration : Declaration) : SuiteFault → Prop
  | name {name : String} (named : declaration.name? = some name) (differs : name ≠ key) :
      DeclarationFault key declaration (.nameMismatch key name)
  | backing {before after : List Declaration} {part : Declaration} {scalar : NamedScalar}
      (named : NamedLike key declaration)
      (listed : declaration.preorder = before ++ part :: after)
      (earlier : ∀ other ∈ before, IntegerBacked other)
      (found : part.scalar? = some scalar) (misbacked : scalar.subtype.isInteger = false) :
      DeclarationFault key declaration (.invalidBacking scalar.name scalar.subtype)

/-- The fault of a single case behind those with the names in `taken`. Its name is looked at before
its type. -/
inductive CaseFault (suite : Suite) (taken : List String) (testCase : TestCase) : SuiteFault → Prop
  | duplicate (repeated : testCase.name ∈ taken) :
      CaseFault suite taken testCase (.duplicateCase testCase.name)
  | unknownType (new : testCase.name ∉ taken)
      (undeclared : testCase.typeName ∉ suite.declarations.map Prod.fst) :
      CaseFault suite taken testCase (.unknownType testCase.name testCase.typeName)

/-- Cases with names of their own whose types are declared. -/
structure CasesSound (suite : Suite) (cases : List TestCase) : Prop where
  apart : (cases.map TestCase.name).Nodup
  declared : ∀ testCase ∈ cases, testCase.typeName ∈ suite.declarations.map Prod.fst

/-- A suite without a fault. -/
structure Sound (suite : Suite) : Prop where
  declarations : ∀ entry ∈ suite.declarations, DeclarationSound entry.1 entry.2
  cases : CasesSound suite suite.cases

/-- The first fault of a suite: of its declarations in order, or of its cases in order once all
declarations are sound. -/
inductive FirstFault (suite : Suite) : SuiteFault → Prop
  | declaration {before after : List (String × Declaration)} {key : String}
      {declaration : Declaration} {fault : SuiteFault}
      (listed : suite.declarations = before ++ (key, declaration) :: after)
      (sound : ∀ entry ∈ before, DeclarationSound entry.1 entry.2)
      (first : DeclarationFault key declaration fault) : FirstFault suite fault
  | testCase {before after : List TestCase} {testCase : TestCase} {fault : SuiteFault}
      (declarations : ∀ entry ∈ suite.declarations, DeclarationSound entry.1 entry.2)
      (listed : suite.cases = before ++ testCase :: after)
      (sound : CasesSound suite before)
      (first : CaseFault suite (before.map TestCase.name) testCase fault) : FirstFault suite fault

section Declarations

variable (key : String) (declaration : Declaration)

/-- A declaration has no fault in its name exactly if it stands under it. -/
theorem nameFault?_eq_none_iff : nameFault? key declaration = none ↔ NamedLike key declaration := by
  unfold nameFault? NamedLike
  cases declaration.name? <;> simp

/-- A declaration has a fault in its name exactly if it stands under another key. -/
theorem nameFault?_eq_some_iff (fault : SuiteFault) :
    nameFault? key declaration = some fault ↔
      ∃ name, declaration.name? = some name ∧ name ≠ key ∧ fault = .nameMismatch key name := by
  unfold nameFault?
  cases declaration.name? with
  | none => simp
  | some name => simp [eq_comm]

/-- A declaration has no fault exactly if it is sound. -/
theorem declarationFault?_eq_none_iff :
    declarationFault? key declaration = none ↔ DeclarationSound key declaration := by
  rw [declarationFault?, Option.or_eq_none_iff, nameFault?_eq_none_iff, backingFault?,
    Option.map_eq_none_iff, misbacked?_eq_none_iff]
  exact ⟨fun ⟨named, backed⟩ => ⟨named, backed⟩, fun sound => ⟨sound.named, sound.backed⟩⟩

/-- The fault that is found in a declaration is the first one of its name and its parts. -/
theorem declarationFault?_eq_some_iff (fault : SuiteFault) :
    declarationFault? key declaration = some fault ↔ DeclarationFault key declaration fault := by
  rw [declarationFault?, Option.or_eq_some_iff, nameFault?_eq_none_iff, nameFault?_eq_some_iff,
    backingFault?, Option.map_eq_some_iff]
  constructor
  · rintro (⟨name, named, differs, rfl⟩ | ⟨named, scalar, found, rfl⟩)
    · exact .name named differs
    · obtain ⟨before, part, after, listed, earlier, scalar, misbacked⟩ :=
        (misbacked?_eq_some_iff ..).mp found
      exact .backing named listed earlier scalar misbacked
  · rintro (⟨named, differs⟩ | ⟨named, listed, earlier, scalar, misbacked⟩)
    · exact .inl ⟨_, named, differs, rfl⟩
    · exact .inr ⟨named, _, (misbacked?_eq_some_iff ..).mpr
        ⟨_, _, _, listed, earlier, scalar, misbacked⟩, rfl⟩

end Declarations

section Cases

variable (suite : Suite)

/-- A name has no declaration exactly if it is no key. -/
theorem declaration?_eq_none_iff (name : String) :
    suite.declaration? name = none ↔ name ∉ suite.declarations.map Prod.fst := by
  rw [declaration?, List.lookup_eq_none_iff, List.mem_map]
  constructor
  · rintro differs ⟨entry, listed, rfl⟩
    simpa using differs entry listed
  · intro absent entry listed
    exact bne_iff_ne.mpr fun same => absent ⟨entry, listed, same.symm⟩

variable {suite} {taken : List String} {testCase : TestCase}

/-- The fault of a case depends on which names are taken only, not on their order. -/
theorem CaseFault.congr {others : List String} (same : ∀ name, name ∈ taken ↔ name ∈ others)
    {fault : SuiteFault} (first : CaseFault suite taken testCase fault) :
    CaseFault suite others testCase fault := by
  cases first with
  | duplicate repeated => exact .duplicate ((same _).mp repeated)
  | unknownType new undeclared => exact .unknownType (fun again => new ((same _).mpr again)) undeclared

/-- A case has a fault unless its name is new and its type is declared. -/
theorem new_and_declared_or_caseFault (suite : Suite) (taken : List String) (testCase : TestCase) :
    (testCase.name ∉ taken ∧ testCase.typeName ∈ suite.declarations.map Prod.fst) ∨
      ∃ fault, CaseFault suite taken testCase fault := by
  by_cases repeated : testCase.name ∈ taken
  · exact .inr ⟨_, .duplicate repeated⟩
  by_cases declared : testCase.typeName ∈ suite.declarations.map Prod.fst
  · exact .inl ⟨repeated, declared⟩
  · exact .inr ⟨_, .unknownType repeated declared⟩

/-- A case with a fault has none of the two. -/
theorem CaseFault.refuses {fault : SuiteFault} (first : CaseFault suite taken testCase fault) :
    ¬ (testCase.name ∉ taken ∧ testCase.typeName ∈ suite.declarations.map Prod.fst) := by
  rintro ⟨new, declared⟩
  cases first with
  | duplicate repeated => exact new repeated
  | unknownType _ undeclared => exact undeclared declared

/-- A case with a fault ends the search, whatever follows it. -/
theorem caseFault?_of_caseFault {fault : SuiteFault}
    (first : CaseFault suite taken testCase fault) (cases : List TestCase) :
    suite.caseFault? taken (testCase :: cases) = some fault := by
  cases first with
  | duplicate repeated => rw [caseFault?, if_pos repeated]
  | unknownType new undeclared =>
    rw [caseFault?, if_neg new, (declaration?_eq_none_iff suite _).mpr undeclared]
    rfl

/-- Behind a case without a fault the search goes on, and its name is taken. -/
theorem caseFault?_of_passed
    (passed : testCase.name ∉ taken ∧ testCase.typeName ∈ suite.declarations.map Prod.fst)
    (cases : List TestCase) :
    suite.caseFault? taken (testCase :: cases) = suite.caseFault? (testCase.name :: taken) cases := by
  have found : suite.declaration? testCase.typeName ≠ none := fun missing =>
    (declaration?_eq_none_iff suite _).mp missing passed.2
  rw [caseFault?, if_neg passed.1, if_neg (by simpa using found)]

/-- Cases have no fault exactly if they are sound and none of their names is taken. -/
theorem caseFault?_eq_none_iff (taken : List String) (cases : List TestCase) :
    suite.caseFault? taken cases = none ↔
      CasesSound suite cases ∧ ∀ testCase ∈ cases, testCase.name ∉ taken := by
  induction cases generalizing taken with
  | nil => exact ⟨fun _ => ⟨⟨List.nodup_nil, nofun⟩, nofun⟩, fun _ => rfl⟩
  | cons testCase cases inductionHypothesis =>
    rcases new_and_declared_or_caseFault suite taken testCase with passed | ⟨fault, first⟩
    · rw [caseFault?_of_passed passed, inductionHypothesis]
      constructor
      · rintro ⟨⟨apart, declared⟩, new⟩
        have unique : testCase.name ∉ cases.map TestCase.name := by
          intro again
          obtain ⟨other, listed, same⟩ := List.mem_map.mp again
          exact new other listed (same ▸ List.mem_cons_self)
        exact ⟨⟨List.nodup_cons.mpr ⟨unique, apart⟩, List.forall_mem_cons.mpr ⟨passed.2, declared⟩⟩,
          List.forall_mem_cons.mpr ⟨passed.1, fun other listed again =>
            new other listed (List.mem_cons_of_mem _ again)⟩⟩
      · rintro ⟨⟨apart, declared⟩, new⟩
        obtain ⟨unique, others⟩ := List.nodup_cons.mp apart
        refine ⟨⟨others, (List.forall_mem_cons.mp declared).2⟩, fun other listed again => ?_⟩
        rcases List.mem_cons.mp again with same | earlier
        · exact unique (same ▸ List.mem_map_of_mem listed)
        · exact new other (List.mem_cons_of_mem _ listed) earlier
    · rw [caseFault?_of_caseFault first]
      refine ⟨nofun, fun ⟨sound, new⟩ => absurd ?_ first.refuses⟩
      exact ⟨new testCase List.mem_cons_self, sound.declared testCase List.mem_cons_self⟩

/-- The fault that is found in cases is that of a case behind cases without a fault. -/
theorem caseFault?_eq_some_iff (taken : List String) (cases : List TestCase) (fault : SuiteFault) :
    suite.caseFault? taken cases = some fault ↔
      ∃ before testCase after, cases = before ++ testCase :: after ∧
        suite.caseFault? taken before = none ∧
        CaseFault suite (before.map TestCase.name ++ taken) testCase fault := by
  induction cases generalizing taken with
  | nil => simp [caseFault?]
  | cons testCase cases inductionHypothesis =>
    rcases new_and_declared_or_caseFault suite taken testCase with passed | ⟨found, first⟩
    · -- A case that passed belongs to those in front of the fault, and its name to those taken.
      have names (before : List TestCase) (name : String) :
          name ∈ before.map TestCase.name ++ testCase.name :: taken ↔
            name ∈ (testCase :: before).map TestCase.name ++ taken := by
        simp [or_left_comm]
      rw [caseFault?_of_passed passed, inductionHypothesis]
      constructor
      · rintro ⟨before, other, after, rfl, clean, later⟩
        exact ⟨testCase :: before, other, after, rfl, (caseFault?_of_passed passed before).trans clean,
          later.congr (names before)⟩
      · rintro ⟨before, other, after, listed, clean, later⟩
        cases before with
        | nil =>
          obtain ⟨rfl, -⟩ := List.cons.inj listed
          exact absurd passed later.refuses
        | cons head before =>
          obtain ⟨rfl, rfl⟩ := List.cons.inj listed
          rw [caseFault?_of_passed passed] at clean
          exact ⟨before, other, after, rfl, clean, later.congr fun name => (names before name).symm⟩
    · constructor
      · intro same
        rw [caseFault?_of_caseFault first] at same
        obtain rfl := Option.some.inj same
        exact ⟨[], testCase, cases, rfl, rfl, first⟩
      · rintro ⟨before, other, after, listed, clean, later⟩
        cases before with
        | nil =>
          obtain ⟨rfl, rfl⟩ := List.cons.inj listed
          exact caseFault?_of_caseFault later _
        | cons head before =>
          obtain ⟨rfl, -⟩ := List.cons.inj listed
          rw [caseFault?_of_caseFault first] at clean
          exact nomatch clean

end Cases

section Suites

variable (suite : Suite)

/-- The declarations of a suite have no fault exactly if each of them is sound. -/
theorem declarations_eq_none_iff :
    (suite.declarations.findSome? fun (key, declaration) => declarationFault? key declaration) =
        none ↔
      ∀ entry ∈ suite.declarations, DeclarationSound entry.1 entry.2 := by
  simp only [List.findSome?_eq_none_iff, declarationFault?_eq_none_iff]

/-- A suite is accepted exactly if it is sound. -/
theorem validate_eq_ok_iff : suite.validate = .ok () ↔ Sound suite := by
  have faultless : suite.fault? = none ↔ Sound suite := by
    rw [fault?, Option.or_eq_none_iff, declarations_eq_none_iff, caseFault?_eq_none_iff]
    constructor
    · rintro ⟨declarations, cases, -⟩
      exact ⟨declarations, cases⟩
    · rintro ⟨declarations, cases⟩
      exact ⟨declarations, cases, fun _ _ => List.not_mem_nil⟩
  rw [← faultless, validate]
  cases suite.fault? <;> simp

/-- A suite is refused exactly by its first fault. -/
theorem validate_eq_error_iff (fault : SuiteFault) :
    suite.validate = .error fault ↔ FirstFault suite fault := by
  have found : suite.fault? = some fault ↔ FirstFault suite fault := by
    rw [fault?, Option.or_eq_some_iff, declarations_eq_none_iff, List.findSome?_eq_some_iff,
      caseFault?_eq_some_iff]
    constructor
    · rintro (⟨before, entry, after, listed, first, clean⟩ |
        ⟨declarations, before, testCase, after, listed, clean, first⟩)
      · exact .declaration listed
          (fun other earlier => (declarationFault?_eq_none_iff ..).mp (clean other earlier))
          ((declarationFault?_eq_some_iff ..).mp first)
      · rw [List.append_nil] at first
        exact .testCase declarations listed ((caseFault?_eq_none_iff ..).mp clean).1 first
    · rintro (⟨listed, sound, first⟩ | ⟨declarations, listed, sound, first⟩)
      · exact .inl ⟨_, _, _, listed, (declarationFault?_eq_some_iff ..).mpr first,
          fun other earlier => (declarationFault?_eq_none_iff ..).mpr (sound other earlier)⟩
      · refine .inr ⟨declarations, _, _, _, listed, ?_, ?_⟩
        · exact (caseFault?_eq_none_iff ..).mpr ⟨sound, fun _ _ => List.not_mem_nil⟩
        · rw [List.append_nil]
          exact first
  rw [← found, validate]
  cases suite.fault? <;> simp

/-- Validation accepts exactly the sound suites, and refuses any other one by its first fault. -/
theorem validate_sound_or_first_fault :
    (suite.validate = .ok () ↔ Sound suite) ∧
      ∀ fault, suite.validate = .error fault ↔ FirstFault suite fault :=
  ⟨suite.validate_eq_ok_iff, suite.validate_eq_error_iff⟩

end Suites

end Suite

end FixtureLiterals
