import FixtureLiterals.Fixture
import FixtureLiterals.Proofs.Emission.Names
import FixtureLiterals.Proofs.Literal.WellFormed

/-!
# Literals that are written alike

Three things about a literal are not in its text: the sign in which an integer was written,
which pattern stood for a float that is no number, and, in Go, the rights that a reference
to a handle asks for. Alike literals differ in nothing else.

For the rest to be in the text, the names in a declaration have to be ones that casing keeps
apart: plain names, and for each record distinct keys as the target writes them.
-/

namespace FixtureLiterals

/-- Literals that differ only in what a target's text leaves out. -/
inductive Alike (target : Target) : Literal → Literal → Prop where
  | bool (value : Bool) : Alike target (.bool value) (.bool value)
  | integer {first second : Integer} (subtype : Primitive) (same : first.toInt = second.toInt) :
      Alike target (.integer first subtype) (.integer second subtype)
  | float {first second : Binary64} (subtype : Primitive)
      (same : first = second ∨ (first.isNaN = true ∧ second.isNaN = true)) :
      Alike target (.float first subtype) (.float second subtype)
  | floatBits (bits : UInt64) (subtype : Primitive) :
      Alike target (.floatBits bits subtype) (.floatBits bits subtype)
  | bits {first second : Integer} (name : QualifiedName) (same : first.toInt = second.toInt) :
      Alike target (.bits name first) (.bits name second)
  | enumeration {first second : Integer} (name : QualifiedName)
      (same : first.toInt = second.toInt) :
      Alike target (.enumeration name first) (.enumeration name second)
  | string (value : String) (nullable : Bool) :
      Alike target (.string value nullable) (.string value nullable)
  | handle {first second : Option Rights} (index : UInt64) (subtype : HandleSubtype)
      (same : target = .rust → first = second) :
      Alike target (.handle index subtype first) (.handle index subtype second)
  | invalidHandle (subtype : HandleSubtype) :
      Alike target (.invalidHandle subtype) (.invalidHandle subtype)
  | null : Alike target .null .null
  | list {first second : List Literal} (type : TypeReference)
      (each : List.Forall₂ (Alike target) first second) :
      Alike target (.list type first) (.list type second)
  | struct {first second : List (String × Literal)} (name : QualifiedName) (nullable : Bool)
      (names : first.map Prod.fst = second.map Prod.fst)
      (each : List.Forall₂ (fun left right => Alike target left.2 right.2) first second) :
      Alike target (.struct name nullable first) (.struct name nullable second)
  | union {first second : Literal} (name : QualifiedName) (nullable : Bool) (field : String)
      (ordinal : UInt64) (same : Alike target first second) :
      Alike target (.union name nullable field ordinal first)
        (.union name nullable field ordinal second)
  | unknownUnion (name : QualifiedName) (nullable : Bool) (ordinal : UInt64) (data : UnknownData) :
      Alike target (.unknownUnion name nullable ordinal data)
        (.unknownUnion name nullable ordinal data)
  | table {first second : List (String × Literal)} (name : QualifiedName) (nullable : Bool)
      (unknown : List (UInt64 × UnknownData)) (names : first.map Prod.fst = second.map Prod.fst)
      (each : List.Forall₂ (fun left right => Alike target left.2 right.2) first second) :
      Alike target (.table name nullable first unknown) (.table name nullable second unknown)

/-- The keys that a target writes for the members of a record. -/
def memberKeys (target : Target) (kind : RecordKind) (members : List (Member Declaration)) :
    List String :=
  match target, kind with
  | .go, .struct | .go, .union => members.map fun member => GoWriter.fieldName member.name
  | .go, .table =>
    (members.map fun member => GoWriter.fieldName member.name) ++
      (members.map fun member => GoWriter.fieldName member.name ++ "Present") ++ ["I_unknownData"]
  | .rust, .struct => members.map fun member => RustWriter.fieldName member.name
  | .rust, .union => members.map fun member => RustWriter.variantName member.name
  | .rust, .table =>
    (members.map fun member => RustWriter.fieldName member.name) ++ ["unknown_data"]

/-- A declaration with plain names, whose keys are told apart as the target writes them. -/
def Readable (target : Target) : Declaration → Prop
  | .bits scalar | .enumeration scalar => IsPlainPath scalar.name
  | .record header members =>
    IsPlainPath header.name ∧ (∀ member ∈ members, IsPlainName member.name) ∧
      (∀ key ∈ memberKeys target header.kind members, key ≠ "") ∧
      (memberKeys target header.kind members).Nodup
  | _ => True

instance (target : Target) (declaration : Declaration) : Decidable (Readable target declaration) :=
  match declaration with
  | .bits scalar | .enumeration scalar => inferInstanceAs (Decidable (IsPlainPath scalar.name))
  | .record header members =>
    inferInstanceAs (Decidable (IsPlainPath header.name ∧
      (∀ member ∈ members, IsPlainName member.name) ∧
      (∀ key ∈ memberKeys target header.kind members, key ≠ "") ∧
      (memberKeys target header.kind members).Nodup))
  | .primitive _ | .handle .. | .string _ | .array .. | .vector .. => .isTrue trivial

/-- A field of a record is one of the members, with a literal of the member's type. -/
def Belongs (environment : Environment) (members : List (Member Declaration))
    (field : String × Literal) : Prop :=
  ∃ member ∈ members, field.1 = member.name ∧ WellFormed environment member.content field.2

/-- All fields of a record belong to the members that they stand for. -/
theorem belongs_of_named {environment : Environment} {members : List (Member Declaration)}
    {fields : List (String × Literal)} (named : members.map Member.name = fields.map Prod.fst)
    (each : List.Forall₂ (fun member field => WellFormed environment member.content field.2)
      members fields) :
    ∀ field ∈ fields, Belongs environment members field := by
  intro field listed
  have both := (forall₂_named_iff Member.name Prod.fst _ _ _).mpr ⟨named, each⟩
  exact exists_of_mem_right both listed

/-- What belongs to some of the members belongs to all of them. -/
theorem Belongs.mono {environment : Environment} {present members : List (Member Declaration)}
    {field : String × Literal} (belongs : Belongs environment present field)
    (included : present.Sublist members) : Belongs environment members field := by
  obtain ⟨member, listed, name, content⟩ := belongs
  exact ⟨member, included.subset listed, name, content⟩

/-- Lists of fields that agree name by name, with values that are alike, differ only in what
a text leaves out. -/
theorem names_and_values_of_forall₂ {target : Target} {first second : List (String × Literal)}
    (related : List.Forall₂ (fun left right => left.1 = right.1 ∧ Alike target left.2 right.2)
      first second) :
    first.map Prod.fst = second.map Prod.fst ∧
      List.Forall₂ (fun left right => Alike target left.2 right.2) first second := by
  have swapped : List.Forall₂ (fun left right => right.1 = left.1 ∧ Alike target left.2 right.2)
      first second := related.imp fun left right both => ⟨both.1.symm, both.2⟩
  exact (forall₂_named_iff Prod.fst Prod.fst _ _ _).mp swapped

end FixtureLiterals
