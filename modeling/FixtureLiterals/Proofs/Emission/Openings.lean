import FixtureLiterals.Proofs.Emission.Parts

/-!
# How expressions open

Where a value may be absent, an absent one is a word of its own, and an expression for a
present one opens with a mark. Handles are the exception: no mark stands in front of them, and
an absent handle is written like the others. An expression without a mark opens with a fixed
text, with a number, or with a name and a character behind it that no name has. What is foreign
to all of these is not mistaken for such an expression.
-/

namespace FixtureLiterals

open Text

/-- The expression for what is absent. -/
def Target.absentText : Target → String
  | .go => "nil"
  | .rust => "None"

/-- What the expression for a present value opens with if the value might be absent. -/
def Target.presentMark : Target → String
  | .go => "&"
  | .rust => "Some("

/-- Whether a declaration is one of a handle. -/
def Declaration.isHandle : Declaration → Bool
  | .handle .. => true
  | _ => false

/-- Whether a declaration tells present values from absent ones by a mark. -/
def Declaration.isOptional (declaration : Declaration) : Bool :=
  declaration.isNullable && !declaration.isHandle

/-- No handle is optional. -/
theorem Declaration.isOptional_of_isHandle {declaration : Declaration}
    (handle : declaration.isHandle = true) : declaration.isOptional = false := by
  rw [isOptional, handle, Bool.not_true, Bool.and_false]

/-- All other declarations are optional where they may be absent. -/
theorem Declaration.isOptional_eq {declaration : Declaration}
    (other : declaration.isHandle = false) : declaration.isOptional = declaration.isNullable := by
  rw [isOptional, other, Bool.not_false, Bool.and_true]

/-- A record is optional where its header says that it may be absent. -/
theorem Declaration.nullable_of_isOptional {header : RecordHeader}
    {members : List (Member Declaration)} {optional : Bool}
    (same : (Declaration.record header members).isOptional = optional) :
    header.nullable = optional :=
  (isOptional_eq rfl).symm.trans same

/-- The name of a declaration has ASCII letters, digits and separators only, if there is one. -/
def NameSpelled (declaration : Declaration) : Prop :=
  ∀ name ∈ declaration.name?, IsSpelledPath name

instance (declaration : Declaration) : Decidable (NameSpelled declaration) :=
  inferInstanceAs (Decidable (∀ name ∈ declaration.name?, IsSpelledPath name))

/-- The name of a readable declaration is spelled as it has to be. -/
theorem Readable.nameSpelled {target : Target} {declaration : Declaration}
    (readable : Readable target declaration) : NameSpelled declaration := by
  intro name named
  cases declaration with
  | bits scalar | enumeration scalar =>
    obtain rfl := Option.some.inj named
    exact readable.spelled
  | record header members =>
    obtain rfl := Option.some.inj named
    exact readable.1.spelled
  | _ => exact nomatch named

namespace Emission

/-- Whether a text is foreign to expressions that open with one of some fixed texts, with a
number, or with a name of some class and one of the characters that stand behind names. -/
def isForeign (fixed : List String) (inside : Char → Bool) (behind text : List Char) : Bool :=
  fixed.all (fun opening => differ opening.toList text) &&
    text.head?.any (fun first => !first.isDigit && first != '-') &&
    text.any (fun character => !inside character) &&
    behind.all (fun next => !text.contains next)

/-- What the expressions of a target open with. -/
structure Openings where
  /-- The expression for what is absent. -/
  absent : String
  /-- What marks present values that might be absent. -/
  mark : String
  /-- Fixed texts that open expressions without a mark. -/
  fixed : List String
  /-- The characters of names. -/
  inside : Char → Bool
  /-- The characters that stand behind a name. -/
  behind : List Char
  differing : differ mark.toList absent.toList = true
  foreign_mark : isForeign fixed inside behind mark.toList = true
  /-- An expression may start like the absent one, but it then goes on with something else than
  what ends an expression. -/
  foreign_absent : isForeign fixed inside behind (absent.toList ++ [',']) = true

namespace Openings

variable {openings : Openings}

/-- A text that opens like an expression without a mark. -/
inductive Opens (openings : Openings) : List Char → Prop where
  | fixed (opening : String) {text : List Char} (listed : opening ∈ openings.fixed)
      (begins : Begins opening.toList text) : Opens openings text
  | number {first : Char} (starts : first.isDigit = true ∨ first = '-') (rest : List Char) :
      Opens openings (first :: rest)
  | name {name : List Char} (spelled : ∀ character ∈ name, openings.inside character = true)
      (next : Char) (listed : next ∈ openings.behind) (rest : List Char) :
      Opens openings (name ++ next :: rest)

/-- Whether a text is foreign to the expressions of a target without a mark. -/
abbrev IsForeign (openings : Openings) (text : List Char) : Prop :=
  isForeign openings.fixed openings.inside openings.behind text = true

/-- An expression without a mark does not start like a foreign text. -/
theorem Opens.apart {text stop : List Char} (opens : openings.Opens text)
    (foreign : openings.IsForeign stop) : Apart text stop := by
  simp only [IsForeign, isForeign, Bool.and_eq_true] at foreign
  obtain ⟨⟨⟨fixed, numbers⟩, names⟩, behind⟩ := foreign
  cases opens with
  | fixed opening listed begins =>
    obtain ⟨rest, rfl⟩ := begins
    exact (Apart.of_differ (List.all_eq_true.mp fixed opening listed)).longer rest
  | number starts rest =>
    cases stop with
    | nil => exact nomatch numbers
    | cons head stop =>
      refine Apart.of_heads ?_ rest stop
      rintro rfl
      rcases starts with digit | rfl
      · simp [digit] at numbers
      · simp at numbers
  | name spelled next listed rest =>
    have outside : ∃ character ∈ stop, openings.inside character = false := by simpa using names
    have different : next ∉ stop := by simpa using List.all_eq_true.mp behind next listed
    exact apart_foreign spelled outside different rest

/-- An integer is a number. -/
theorem opens_integerText (integer : Integer) (rest : List Char) :
    openings.Opens (integer.text.toList ++ rest) := by
  obtain ⟨first, others, spelled, starts⟩ := integerText_eq_cons integer
  rw [spelled]
  exact .number starts _

/-- A float that is written with digits is a number. -/
theorem opens_floatText (layout : Binary64.Layout) (float : Binary64) (rest : List Char) :
    openings.Opens ((float.text layout).toList ++ rest) := by
  obtain ⟨first, others, spelled, starts⟩ := floatText_eq_cons layout float
  rw [spelled]
  exact .number starts _

variable {environment : Environment} {write : Literal → String}

/-- The texts of literals open as they have to. -/
structure Governs (openings : Openings) (environment : Environment) (write : Literal → String) :
    Prop where
  absent : write .null = openings.absent
  present {declaration : Declaration} (optional : declaration.isOptional = true) {literal : Literal}
    (fitted : WellFormed environment declaration literal) (held : literal ≠ .null) :
    Begins openings.mark.toList (write literal).toList
  bare {declaration : Declaration} (spelled : NameSpelled declaration)
    (unmarked : declaration.isOptional = false) {literal : Literal}
    (fitted : WellFormed environment declaration literal) : openings.Opens (write literal).toList

namespace Governs

variable (governs : openings.Governs environment write)
include governs

/-- An expression is the absent one exactly if it stands for what is absent. -/
theorem eq_absent_iff {declaration : Declaration} (spelled : NameSpelled declaration)
    {literal : Literal} (fitted : WellFormed environment declaration literal) :
    write literal = openings.absent ↔ literal = .null := by
  constructor
  · intro same
    by_contra held
    cases optional : declaration.isOptional with
    | true =>
      obtain ⟨rest, begun⟩ := governs.present optional fitted held
      rw [same] at begun
      exact Apart.of_differ openings.differing rest [] (begun.symm.trans (List.append_nil _).symm)
    | false =>
      have apart := (governs.bare spelled optional fitted).apart openings.foreign_absent
      rw [same] at apart
      exact apart [','] [] (List.append_nil _).symm
  · rintro rfl
    exact governs.absent

/-- An expression opens with the mark exactly if it stands for what is present and might be
absent. -/
theorem begins_mark_iff {declaration : Declaration} (spelled : NameSpelled declaration)
    {literal : Literal} (fitted : WellFormed environment declaration literal) :
    Begins openings.mark.toList (write literal).toList ↔
      literal ≠ .null ∧ declaration.isOptional = true := by
  constructor
  · rintro ⟨rest, begun⟩
    refine ⟨?_, ?_⟩
    · rintro rfl
      rw [governs.absent] at begun
      exact Apart.of_differ openings.differing rest [] (begun.symm.trans (List.append_nil _).symm)
    · by_contra unmarked
      have apart := (governs.bare spelled (Bool.eq_false_of_not_eq_true unmarked) fitted).apart
        openings.foreign_mark
      exact apart [] rest ((List.append_nil _).trans begun)
  · rintro ⟨held, optional⟩
    exact governs.present optional fitted held

/-- No expression starts like a text that is foreign to all of them. -/
theorem apart {stop : List Char} (missing : differ openings.absent.toList stop = true)
    (marked : differ openings.mark.toList stop = true) (foreign : openings.IsForeign stop)
    {declaration : Declaration} (spelled : NameSpelled declaration) {literal : Literal}
    (fitted : WellFormed environment declaration literal) : Apart (write literal).toList stop := by
  cases optional : declaration.isOptional with
  | false => exact (governs.bare spelled optional fitted).apart foreign
  | true =>
    by_cases held : literal = .null
    · rw [held, governs.absent]
      exact .of_differ missing
    · obtain ⟨rest, same⟩ := governs.present optional fitted held
      rw [same]
      exact (Apart.of_differ marked).longer rest

/-- Where a declaration has an absent literal, no other one is mistaken for it. -/
theorem apart_absent {declaration : Declaration} {literal : Literal}
    (fitted : WellFormed environment declaration literal)
    (allowed : WellFormed environment declaration .null) (held : literal ≠ .null) :
    Apart (write literal).toList (write .null).toList := by
  have optional : declaration.isOptional = true := by
    cases allowed with
    | absentString => rfl
    | absentVector => rfl
    | absentRecord members nullable => exact (Declaration.isOptional_eq rfl).trans nullable
  obtain ⟨rest, same⟩ := governs.present optional fitted held
  rw [same, governs.absent]
  exact (Apart.of_differ openings.differing).longer rest

end Governs

end Openings

end Emission

end FixtureLiterals
