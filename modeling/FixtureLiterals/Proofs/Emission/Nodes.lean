import FixtureLiterals.Proofs.Emission.Parts

/-!
# From nodes to literals

What a text reveals about a literal is shown node by node. For each kind of node, a target has
to keep two such nodes apart, and it has to keep apart the kinds that one declaration allows
next to each other. Lists and records may rely on what the texts of their parts reveal. That
the texts of whole literals reveal them follows for every target in the same way.
-/

namespace FixtureLiterals.Emission

open Text

variable {environment : Environment} {target : Target} {write : Literal → String}

/-- The texts of two literals reveal a fact about them. -/
abbrev Tells (write : Literal → String) (first second : Literal) (conclusion : Prop) : Prop :=
  Reveals Ends (write first).toList (write second).toList conclusion

/-- The texts of two literals are not mistaken for each other. -/
abbrev TellsApart (write : Literal → String) (first second : Literal) : Prop :=
  Apart (write first).toList (write second).toList

/-- The texts of literals of a declaration reveal the literals, but not what a target leaves
out. -/
def RevealsLiterals (environment : Environment) (target : Target) (write : Literal → String)
    (declaration : Declaration) : Prop :=
  ∀ first second, WellFormed environment declaration first →
    WellFormed environment declaration second →
      Tells write first second (Alike target first second)

section Fields

variable {members : List (Member Declaration)} {key : String → String}
  (spelled : ∀ member ∈ members,
    ∀ character ∈ (key member.name).toList, isIdentifier character = true)
include spelled

/-- The key of a field is revealed, as what follows it is no part of an identifier. -/
theorem reveals_key {first second : String × Literal} (belongs : Belongs environment members first)
    (listed : Belongs environment members second) {delimiter : List Char}
    (outside : ∀ rest, Leaves isIdentifier (delimiter ++ rest)) :
    Reveals Anything ((key first.1).toList ++ delimiter) ((key second.1).toList ++ delimiter)
      (key first.1 = key second.1) := by
  obtain ⟨member, declared, name, -⟩ := belongs
  obtain ⟨other, known, label, -⟩ := listed
  rw [name, label]
  have word := reveals_word (spelled member declared) (spelled other known)
  exact (word.closed delimiter outside).imp String.toList_inj.mp

/-- A field whose key is told apart from the others reveals its name and its literal. -/
theorem reveals_field (distinct : (members.map fun member => key member.name).Nodup)
    (contents : ∀ member ∈ members, RevealsLiterals environment target write member.content)
    {first second : String × Literal} (belongs : Belongs environment members first)
    (listed : Belongs environment members second) {delimiter : List Char}
    (outside : ∀ rest, Leaves isIdentifier (delimiter ++ rest)) :
    Reveals Ends ((key first.1).toList ++ delimiter ++ (write first.2).toList)
      ((key second.1).toList ++ delimiter ++ (write second.2).toList)
      (first.1 = second.1 ∧ Alike target first.2 second.2) := by
  have keys := reveals_key spelled belongs listed outside
  obtain ⟨member, declared, name, fitted⟩ := belongs
  obtain ⟨other, known, label, suited⟩ := listed
  rw [name, label] at keys ⊢
  have identified (same : key member.name = key other.name) : member = other :=
    List.inj_on_of_nodup_map distinct declared known same
  have values (same : key member.name = key other.name) :
      Tells write first.2 second.2 (Alike target first.2 second.2) := by
    rw [← identified same] at suited
    exact contents member declared first.2 second.2 fitted suited
  refine (keys.andThen values (fun _ _ => trivial) fun _ _ => trivial).imp ?_
  rintro ⟨same, alike⟩
  exact ⟨congrArg Member.name (identified same), alike⟩

end Fields

/-- Fields that are alike one by one, names included. -/
abbrev AlikeFields (target : Target) (first second : List (String × Literal)) : Prop :=
  List.Forall₂ (fun left right => left.1 = right.1 ∧ Alike target left.2 right.2) first second

/-- A record that can be read back, if the contents of its members can. -/
structure ReadableRecord (environment : Environment) (target : Target) (write : Literal → String)
    (header : RecordHeader) (members : List (Member Declaration)) : Prop where
  readable : Readable target (.record header members)
  contents : ∀ member ∈ members, RevealsLiterals environment target write member.content

namespace ReadableRecord

variable {header : RecordHeader} {members : List (Member Declaration)}
  (record : ReadableRecord environment target write header members)
include record

/-- The name of a readable record is plain. -/
theorem path : IsPlainPath header.name := record.readable.1

/-- The names of the members of a readable record are plain. -/
theorem plain : ∀ member ∈ members, IsPlainName member.name := record.readable.2.1

/-- The keys in a readable record are told apart. -/
theorem distinct : (memberKeys target header.kind members).Nodup := record.readable.2.2.2

/-- The name of a field is plain as well. -/
theorem plain_of_belongs {field : String × Literal} (belongs : Belongs environment members field) :
    IsPlainName field.1 := by
  obtain ⟨member, declared, name, -⟩ := belongs
  rw [name]
  exact record.plain member declared

end ReadableRecord

/-- What the texts of a target have to reveal, node by node. -/
structure RevealsNodes (environment : Environment) (target : Target)
    (write : Literal → String) : Prop where
  bool : TellsApart write (.bool true) (.bool false)
  integer (subtype : Primitive) (first second : Integer) :
    Tells write (.integer first subtype) (.integer second subtype) (first.toInt = second.toInt)
  float (subtype : Primitive) (first second : Binary64) :
    Tells write (.float first subtype) (.float second subtype)
      (first = second ∨ (first.isNaN = true ∧ second.isNaN = true))
  floatBits (subtype : Primitive) (first second : UInt64) :
    Tells write (.floatBits first subtype) (.floatBits second subtype) (first = second)
  /-- A float is not mistaken for one that is given by its pattern. -/
  pattern (subtype : Primitive) (value : Binary64) (bits : UInt64) :
    TellsApart write (.float value subtype) (.floatBits bits subtype)
  bits (name : QualifiedName) (first second : Integer) :
    Tells write (.bits name first) (.bits name second) (first.toInt = second.toInt)
  enumeration (name : QualifiedName) (first second : Integer) :
    Tells write (.enumeration name first) (.enumeration name second) (first.toInt = second.toInt)
  handle (subtype : HandleSubtype) (first second : UInt64) (rights others : Option Rights) :
    Tells write (.handle first subtype rights) (.handle second subtype others)
      (first = second ∧ (target = .rust → rights = others))
  /-- A handle is not mistaken for the absent one. -/
  invalidHandle (subtype : HandleSubtype) (index : UInt64) (rights : Option Rights) :
    TellsApart write (.handle index subtype rights) (.invalidHandle subtype)
  string (nullable : Bool) (first second : String) :
    Tells write (.string first nullable) (.string second nullable) (first = second)
  /-- What is there is not mistaken for what is absent. -/
  absent {declaration : Declaration} {literal : Literal}
    (fitted : WellFormed environment declaration literal)
    (allowed : WellFormed environment declaration .null) (held : literal ≠ .null) :
    TellsApart write literal .null
  list {element : Declaration} (readable : Readable target element)
    (contents : RevealsLiterals environment target write element) (type : TypeReference)
    {first second : List Literal} (each : ∀ item ∈ first, WellFormed environment element item)
    (every : ∀ item ∈ second, WellFormed environment element item) :
    Tells write (.list type first) (.list type second) (List.Forall₂ (Alike target) first second)
  struct {header : RecordHeader} {members : List (Member Declaration)}
    (record : ReadableRecord environment target write header members)
    (kind : header.kind = .struct) (name : QualifiedName) {first second : List (String × Literal)}
    (belong : ∀ field ∈ first, Belongs environment members field)
    (listed : ∀ field ∈ second, Belongs environment members field) :
    Tells write (.struct name header.nullable first) (.struct name header.nullable second)
      (AlikeFields target first second)
  union {header : RecordHeader} {members : List (Member Declaration)}
    (record : ReadableRecord environment target write header members)
    (kind : header.kind = .union) {name : QualifiedName}
    (parsed : QualifiedName.parse header.name = .ok name) {first second : String × Literal}
    (belongs : Belongs environment members first) (listed : Belongs environment members second)
    (ordinal other : UInt64) :
    Tells write (.union name header.nullable first.1 ordinal first.2)
      (.union name header.nullable second.1 other second.2)
      (first.1 = second.1 ∧ Alike target first.2 second.2)
  unknownUnion (name : QualifiedName) (nullable : Bool) (first second : UInt64 × UnknownData) :
    Tells write (.unknownUnion name nullable first.1 first.2)
      (.unknownUnion name nullable second.1 second.2) (first = second)
  /-- A declared member of a union is not mistaken for an unknown one. -/
  member {header : RecordHeader} {members : List (Member Declaration)}
    (record : ReadableRecord environment target write header members)
    (kind : header.kind = .union) {name : QualifiedName}
    (parsed : QualifiedName.parse header.name = .ok name) {field : String × Literal}
    (belongs : Belongs environment members field) (ordinal other : UInt64) (data : UnknownData) :
    TellsApart write (.union name header.nullable field.1 ordinal field.2)
      (.unknownUnion name header.nullable other data)
  table {header : RecordHeader} {members : List (Member Declaration)}
    (record : ReadableRecord environment target write header members)
    (kind : header.kind = .table) (name : QualifiedName) {first second : List (String × Literal)}
    (belong : ∀ field ∈ first, Belongs environment members field)
    (listed : ∀ field ∈ second, Belongs environment members field)
    (unknown others : List (UInt64 × UnknownData)) :
    Tells write (.table name header.nullable first unknown)
      (.table name header.nullable second others)
      (AlikeFields target first second ∧ unknown = others)

namespace RevealsNodes

variable (nodes : RevealsNodes environment target write)
include nodes

/-- Scalars are revealed, but not the sign of an integer nor which pattern without a number a
float is. -/
theorem revealsLiterals_primitive (subtype : Primitive) :
    RevealsLiterals environment target write (.primitive subtype) := by
  intro first second fitted suited
  cases fitted with
  | bool value =>
    cases suited with
    | bool other =>
      cases value <;> cases other
      case true.true => exact .refl _ (.bool true)
      case false.false => exact .refl _ (.bool false)
      case true.false => exact .of_apart nodes.bool
      case false.true => exact .of_apart nodes.bool.symm
    | integer bounded => exact bounded.elim
    | float floating => exact nomatch floating
    | floatBits floating => exact nomatch floating
  | integer bounded =>
    cases suited with
    | bool other => exact bounded.elim
    | integer => exact (nodes.integer subtype _ _).imp (.integer subtype)
    | float floating => exact absurd bounded (not_inRange_of_isFloat floating _)
    | floatBits floating => exact absurd bounded (not_inRange_of_isFloat floating _)
  | float floating =>
    cases suited with
    | bool other => exact nomatch floating
    | integer bounded => exact absurd bounded (not_inRange_of_isFloat floating _)
    | float => exact (nodes.float subtype _ _).imp (.float subtype)
    | floatBits => exact .of_apart (nodes.pattern subtype _ _)
  | floatBits floating =>
    cases suited with
    | bool other => exact nomatch floating
    | integer bounded => exact absurd bounded (not_inRange_of_isFloat floating _)
    | float => exact .of_apart (nodes.pattern subtype _ _).symm
    | floatBits =>
      refine (nodes.floatBits subtype _ _).imp ?_
      rintro rfl
      exact .floatBits _ subtype

/-- Bits are revealed, but not the sign in which their number was written. -/
theorem revealsLiterals_bits (scalar : NamedScalar) :
    RevealsLiterals environment target write (.bits scalar) := by
  intro first second fitted suited
  cases fitted with
  | bits parsed =>
    cases suited with
    | bits read =>
      obtain rfl := Except.ok.inj (parsed.symm.trans read)
      exact (nodes.bits _ _ _).imp (.bits _)

/-- Members of enumerations are revealed, but not the sign in which their number was
written. -/
theorem revealsLiterals_enumeration (scalar : NamedScalar) :
    RevealsLiterals environment target write (.enumeration scalar) := by
  intro first second fitted suited
  cases fitted with
  | enumeration parsed =>
    cases suited with
    | enumeration read =>
      obtain rfl := Except.ok.inj (parsed.symm.trans read)
      exact (nodes.enumeration _ _ _).imp (.enumeration _)

/-- Handles are revealed, and so are the rights that they are expected to have if the target
writes them. -/
theorem revealsLiterals_handle (subtype : HandleSubtype) (rights : Rights) (nullable : Bool) :
    RevealsLiterals environment target write (.handle subtype rights nullable) := by
  intro first second fitted suited
  cases fitted with
  | handle =>
    cases suited with
    | handle =>
      refine (nodes.handle subtype _ _ _ _).imp ?_
      rintro ⟨rfl, same⟩
      exact .handle _ subtype same
    | invalidHandle => exact .of_apart (nodes.invalidHandle subtype _ _)
  | invalidHandle =>
    cases suited with
    | handle => exact .of_apart (nodes.invalidHandle subtype _ _).symm
    | invalidHandle => exact .refl _ (.invalidHandle subtype)

/-- Where there is nothing absent, literals need not be told apart from the absent one. -/
theorem revealsLiterals_of_present {declaration : Declaration}
    (present : ∀ first second, WellFormed environment declaration first →
      WellFormed environment declaration second → first ≠ .null → second ≠ .null →
        Tells write first second (Alike target first second)) :
    RevealsLiterals environment target write declaration := by
  intro first second fitted suited
  by_cases absent : first = .null
  · subst absent
    by_cases missing : second = .null
    · subst missing
      exact .refl _ .null
    · exact .of_apart (nodes.absent suited fitted missing).symm
  · by_cases missing : second = .null
    · subst missing
      exact .of_apart (nodes.absent fitted suited absent)
    · exact present first second fitted suited absent missing

/-- Strings are revealed, whether they are absent or not. -/
theorem revealsLiterals_string (nullable : Bool) :
    RevealsLiterals environment target write (.string nullable) := by
  apply nodes.revealsLiterals_of_present
  intro first second fitted suited held given
  cases fitted with
  | string value =>
    cases suited with
    | string other =>
      refine (nodes.string nullable value other).imp ?_
      rintro rfl
      exact .string value nullable
    | absentString => exact absurd rfl given
  | absentString => exact absurd rfl held

section Lists

variable {element : Declaration} (readable : Readable target element)
  (contents : RevealsLiterals environment target write element)
include readable contents

/-- Arrays are revealed if their elements are. -/
theorem revealsLiterals_array (size : UInt64) :
    RevealsLiterals environment target write (.array element size) := by
  intro first second fitted suited
  cases fitted with
  | array described _ each =>
    cases suited with
    | array spelled _ every =>
      obtain rfl := eq_of_describes described spelled
      exact (nodes.list readable contents _ each every).imp (.list _)

/-- Vectors are revealed if their elements are, whether they are absent or not. -/
theorem revealsLiterals_vector (nullable : Bool) :
    RevealsLiterals environment target write (.vector element nullable) := by
  apply nodes.revealsLiterals_of_present
  intro first second fitted suited held given
  cases fitted with
  | vector described each =>
    cases suited with
    | vector spelled every =>
      obtain rfl := eq_of_describes described spelled
      exact (nodes.list readable contents _ each every).imp (.list _)
    | absentVector => exact absurd rfl given
  | absentVector => exact absurd rfl held

end Lists

section Records

variable {header : RecordHeader} {members : List (Member Declaration)}
  (record : ReadableRecord environment target write header members)
include record

/-- Unions with declared members are revealed if the contents of the members are. -/
theorem tells_unions (kind : header.kind = .union) {name : QualifiedName}
    (parsed : QualifiedName.parse header.name = .ok name) {first second : Member Declaration}
    {value content : Literal} (declared : Member.named? members first.name = some first)
    (known : Member.named? members second.name = some second)
    (fitted : WellFormed environment first.content value)
    (suited : WellFormed environment second.content content) :
    Tells write (.union name header.nullable first.name first.ordinal value)
      (.union name header.nullable second.name second.ordinal content)
      (Alike target (.union name header.nullable first.name first.ordinal value)
        (.union name header.nullable second.name second.ordinal content)) := by
  have belongs : Belongs environment members (first.name, value) :=
    ⟨first, (Member.mem_of_named? declared).1, rfl, fitted⟩
  have listed : Belongs environment members (second.name, content) :=
    ⟨second, (Member.mem_of_named? known).1, rfl, suited⟩
  refine (nodes.union record kind parsed belongs listed first.ordinal second.ordinal).imp ?_
  rintro ⟨same, alike⟩
  rw [show first.name = second.name from same, known] at declared
  obtain rfl := Option.some.inj declared
  exact .union name header.nullable second.name second.ordinal alike

/-- A union with a declared member is told apart from one with an unknown member. -/
theorem tellsApart_unions (kind : header.kind = .union) {name : QualifiedName}
    (parsed : QualifiedName.parse header.name = .ok name) {member : Member Declaration}
    {value : Literal} (declared : Member.named? members member.name = some member)
    (fitted : WellFormed environment member.content value) (ordinal : UInt64)
    (data : UnknownData) :
    TellsApart write (.union name header.nullable member.name member.ordinal value)
      (.unknownUnion name header.nullable ordinal data) := by
  have belongs : Belongs environment members (member.name, value) :=
    ⟨member, (Member.mem_of_named? declared).1, rfl, fitted⟩
  exact nodes.member record kind parsed belongs member.ordinal ordinal data

/-- Records are revealed if the contents of their members are, whether they are absent or
not. -/
theorem revealsLiterals_record :
    RevealsLiterals environment target write (.record header members) := by
  apply nodes.revealsLiterals_of_present
  intro first second fitted suited held given
  cases fitted with
  | struct kind parsed named each =>
    cases suited with
    | struct _ read label every =>
      obtain rfl := Except.ok.inj (parsed.symm.trans read)
      refine (nodes.struct record kind _ (belongs_of_named named each)
        (belongs_of_named label every)).imp fun related => ?_
      obtain ⟨names, values⟩ := names_and_values_of_forall₂ related
      exact .struct _ header.nullable names values
    | union other => exact nomatch kind.symm.trans other
    | unknownUnion other => exact nomatch kind.symm.trans other
    | table other => exact nomatch kind.symm.trans other
    | absentRecord => exact absurd rfl given
  | union kind parsed declared content =>
    cases suited with
    | struct other => exact nomatch kind.symm.trans other
    | union _ read known suitable =>
      obtain rfl := Except.ok.inj (parsed.symm.trans read)
      exact nodes.tells_unions record kind parsed declared known content suitable
    | unknownUnion _ read =>
      obtain rfl := Except.ok.inj (parsed.symm.trans read)
      exact .of_apart (nodes.tellsApart_unions record kind parsed declared content _ _)
    | table other => exact nomatch kind.symm.trans other
    | absentRecord => exact absurd rfl given
  | unknownUnion kind parsed =>
    cases suited with
    | struct other => exact nomatch kind.symm.trans other
    | union _ read known suitable =>
      obtain rfl := Except.ok.inj (parsed.symm.trans read)
      exact .of_apart (nodes.tellsApart_unions record kind parsed known suitable _ _).symm
    | unknownUnion _ read =>
      obtain rfl := Except.ok.inj (parsed.symm.trans read)
      refine (nodes.unknownUnion _ header.nullable (_, _) (_, _)).imp ?_
      rintro ⟨⟩
      exact .unknownUnion _ _ _ _
    | table other => exact nomatch kind.symm.trans other
    | absentRecord => exact absurd rfl given
  | table kind parsed included named each =>
    cases suited with
    | struct other => exact nomatch kind.symm.trans other
    | union other => exact nomatch kind.symm.trans other
    | unknownUnion other => exact nomatch kind.symm.trans other
    | table _ read selected label every =>
      obtain rfl := Except.ok.inj (parsed.symm.trans read)
      have belong := fun field listed => (belongs_of_named named each field listed).mono included
      have among := fun field listed => (belongs_of_named label every field listed).mono selected
      refine (nodes.table record kind _ belong among _ _).imp ?_
      rintro ⟨related, rfl⟩
      obtain ⟨names, values⟩ := names_and_values_of_forall₂ related
      exact .table _ header.nullable _ names values
    | absentRecord => exact absurd rfl given
  | absentRecord => exact absurd rfl held

end Records

/-- The texts of literals of a readable declaration reveal the literals, up to what the target
leaves out.

The induction is on the declaration: what a text reveals about a list or a record is what the
texts of the elements and of the members reveal. -/
theorem revealsLiterals {declaration : Declaration} (readable : declaration.All (Readable target)) :
    RevealsLiterals environment target write declaration := by
  induction declaration using Declaration.memberwise with
  | primitive subtype => exact nodes.revealsLiterals_primitive subtype
  | bits scalar => exact nodes.revealsLiterals_bits scalar
  | enumeration scalar => exact nodes.revealsLiterals_enumeration scalar
  | handle subtype rights nullable => exact nodes.revealsLiterals_handle subtype rights nullable
  | string nullable => exact nodes.revealsLiterals_string nullable
  | array element size inductionHypothesis =>
    have inside := readable.element_of_array
    exact nodes.revealsLiterals_array inside.self (inductionHypothesis inside) size
  | vector element nullable inductionHypothesis =>
    have inside := readable.element_of_vector
    exact nodes.revealsLiterals_vector inside.self (inductionHypothesis inside) nullable
  | record header members inductionHypothesis =>
    refine nodes.revealsLiterals_record ⟨readable.self, fun member listed => ?_⟩
    exact inductionHypothesis member listed (readable.member member listed)

end RevealsNodes

end FixtureLiterals.Emission
