import FixtureLiterals.Proofs.Emission.Nodes
import FixtureLiterals.Proofs.Emission.RustParts

/-!
# Rust records

A record is written behind its name, which is the same for all records of one declaration.
A struct is a block of its fields, a union is a call of a variant, and a table is completed
from the empty one, so that its fields are optional. What tells records apart are the keys of
fields and the names of variants.
-/

namespace FixtureLiterals.RustWriter

open Emission Text

variable {environment : Environment}

section Names

/-- Names of fields are identifiers. -/
theorem isIdentifier_fieldName {name : String} (plain : IsPlainName name) :
    ∀ character ∈ (fieldName name).toList, isIdentifier character = true :=
  isIdentifier_avoidReserved _ (isIdentifier_apply _ plain.spelled)

/-- Names of variants are identifiers. -/
theorem isIdentifier_variantName {name : String} (plain : IsPlainName name) :
    ∀ character ∈ (variantName name).toList, isIdentifier character = true :=
  isIdentifier_avoidReserved _ (isIdentifier_apply _ plain.spelled)

/-- No variant has the name of the function for unknown variants. -/
theorem variantName_ne_unknown {name : String} (plain : IsPlainName name) :
    variantName name ≠ "unknown_variant_for_testing" := by
  intro same
  rw [variantName, avoidReserved] at same
  split at same
  case isTrue reserved =>
    have escaped : ∀ word ∈ rustReserved, word ++ "_" ≠ "unknown_variant_for_testing" := by decide
    exact escaped _ reserved same
  case isFalse =>
    have letters : ∀ character ∈ (Casing.upperCamel.apply name).toList,
        character.isAlphanum = true := by
      rw [Casing.apply, String.toList_ofList]
      exact isAlphanum_upperCamel plain.spelled
    rw [same] at letters
    exact absurd (letters '_' (by decide)) (by decide)

/-- No call of a variant is mistaken for the one for unknown variants. -/
theorem apart_unknownVariant {name : String} (plain : IsPlainName name) (behind : List Char) :
    Apart ((variantName name).toList ++ '(' :: behind) "unknown_variant_for_testing(".toList := by
  have key : ∀ character ∈ "unknown_variant_for_testing".toList,
      isIdentifier character = true := List.all_eq_true.mp rfl
  have different : (variantName name).toList ≠ "unknown_variant_for_testing".toList := fun same =>
    variantName_ne_unknown plain (String.toList_inj.mp same)
  exact .of_words (isIdentifier_variantName plain) key different (by decide) (by decide) behind []

/-- A key other than the one for unknown fields does not start like it. -/
theorem apart_unknownKey {name : String} (plain : IsPlainName name)
    (different : fieldName name ≠ "unknown_data") (behind : List Char) :
    Apart ((fieldName name).toList ++ ':' :: behind) "unknown_data: ".toList := by
  have key : ∀ character ∈ "unknown_data".toList, isIdentifier character = true :=
    List.all_eq_true.mp rfl
  have distinct : (fieldName name).toList ≠ "unknown_data".toList := fun same =>
    different (String.toList_inj.mp same)
  exact .of_words (isIdentifier_fieldName plain) key distinct (by decide) (by decide) behind [' ']

end Names

section Equations

variable (writer : RustWriter)

/-- Each literal of a list is written on its own. -/
theorem expressions_eq_map (literals : List Literal) :
    writer.expressions literals = literals.map writer.expression := by
  induction literals with
  | nil => rw [expressions, List.map_nil]
  | cons literal literals inductionHypothesis =>
    rw [expressions, List.map_cons, inductionHypothesis]

/-- Each field of a record is written on its own. -/
theorem fieldExpressions_eq_map (fields : List (String × Literal)) :
    writer.fieldExpressions fields =
      fields.map fun field => (field.1, writer.expression field.2) := by
  induction fields with
  | nil => rw [fieldExpressions, List.map_nil]
  | cons field fields inductionHypothesis =>
    rw [fieldExpressions, List.map_cons, inductionHypothesis]

/-- A field as an entry of a struct. -/
def entry (field : String × Literal) : String :=
  fieldName field.1 ++ ": " ++ writer.expression field.2

/-- The content of a field of a table. -/
def someExpression (literal : Literal) : String := "Some(" ++ writer.expression literal ++ ")"

/-- A field as an entry of a table. -/
def someEntry (field : String × Literal) : String :=
  fieldName field.1 ++ ": " ++ writer.someExpression field.2

/-- The field of a union as a call of its variant. -/
def variant (field : String × Literal) : String :=
  variantName field.1 ++ "(" ++ writer.expression field.2 ++ ")"

/-- A struct is a block of its fields. -/
theorem expression_struct (name : QualifiedName) (nullable : Bool)
    (fields : List (String × Literal)) :
    writer.expression (.struct name nullable fields) =
      boxed nullable (block (qualified name ++ " \x7b") (fields.map writer.entry) "\x7d") := by
  rw [expression, fieldExpressions_eq_map, List.map_map]
  rfl

/-- A union with a declared member is a call of the member's variant. -/
theorem expression_union (name : QualifiedName) (nullable : Bool) (field : String)
    (ordinal : UInt64) (value : Literal) :
    writer.expression (.union name nullable field ordinal value) =
      boxed nullable (qualified name ++ "::" ++ writer.variant (field, value)) := by
  rw [expression, variant]
  simp only [String.append_assoc]

/-- A union with an unknown member is a call of a function for unknown variants. -/
theorem expression_unknownUnion (name : QualifiedName) (nullable : Bool) (ordinal : UInt64)
    (data : UnknownData) :
    writer.expression (.unknownUnion name nullable ordinal data) =
      boxed nullable (qualified name ++ "::" ++ ("unknown_variant_for_testing(" ++
        decimal ordinal.toNat ++ ", " ++ writer.unknownData data ++ ")")) := by
  rw [expression, show "::unknown_variant_for_testing(" = "::" ++ "unknown_variant_for_testing("
    from rfl]
  simp only [String.append_assoc]

/-- A table has the lines of its fields and one for the unknown ones. -/
theorem expression_table (name : QualifiedName) (nullable : Bool)
    (fields : List (String × Literal)) (unknown : List (UInt64 × UnknownData)) :
    writer.expression (.table name nullable fields unknown) =
      boxed nullable (table (qualified name)
        (fields.map writer.someEntry ++ writer.unknownEntry unknown)) := by
  have spelled (field : String × Literal) : fieldName field.1 ++ ": Some(" ++
      writer.expression field.2 ++ ")" = writer.someEntry field := by
    rw [someEntry, someExpression, show ": Some(" = ": " ++ "Some(" from rfl]
    simp only [String.append_assoc]
  rw [expression, fieldExpressions_eq_map, List.map_map, ← show _ = writer.someEntry from
    funext spelled]
  rfl

/-- The characters of a table. -/
theorem toList_table (name : String) (entries : List String) :
    (table name entries).toList =
      (name ++ " \x7b\n").toList ++
        (lines entries ++ ("..".toList ++ (name ++ "::EMPTY\n\x7d").toList)) := by
  simp [table, lines, String.toList_join, List.flatMap_map]

end Equations

section Unknown

variable (writer : RustWriter)

/-- An ordinal and a content in parentheses are revealed. -/
theorem reveals_unknownCall (opening : String) (first second : UInt64 × UnknownData) :
    Reveals Anything
      (opening ++ decimal first.1.toNat ++ ", " ++ writer.unknownData first.2 ++ ")").toList
      (opening ++ decimal second.1.toNat ++ ", " ++ writer.unknownData second.2 ++ ")").toList
      (first = second) := by
  have comma : ∀ rest, Leaves Char.isDigit (", ".toList ++ rest) :=
    fun rest => leaves_append [' '] rest (by decide)
  have field := reveals_unknownField (reveals_unknownData writer) comma first second
  have opened := field.opened opening
  simp only [← String.append_assoc] at opened
  exact opened.ended ")" fun _ => trivial

/-- Unknown content of a union is revealed, with its ordinal. -/
theorem reveals_unknownUnion (name : QualifiedName) (nullable : Bool)
    (first second : UInt64 × UnknownData) :
    Reveals Anything (writer.expression (.unknownUnion name nullable first.1 first.2)).toList
      (writer.expression (.unknownUnion name nullable second.1 second.2)).toList
      (first = second) := by
  have call := reveals_unknownCall writer "unknown_variant_for_testing(" first second
  rw [expression_unknownUnion, expression_unknownUnion]
  exact reveals_boxed (call.opened _) nullable

/-- The entry of a table that holds its unknown fields reveals them, whether it is there or
not. -/
theorem reveals_unknownEntry (first second : List (UInt64 × UnknownData)) :
    Reveals (Begins "..".toList) (lines (writer.unknownEntry first))
      (lines (writer.unknownEntry second)) (first = second) := by
  have starts (entry : UInt64 × UnknownData) : Apart
      ("(" ++ decimal entry.1.toNat ++ ", " ++ writer.unknownData entry.2 ++ ")").toList
      "])".toList := by
    simp only [String.toList_append, List.append_assoc]
    exact (Apart.of_differ (by decide)).longer _
  have items := reveals_block_eq (reveals_unknownCall writer "(") "BTreeMap::from(["
    (.of_differ (by decide)) starts first second
  rw [unknownEntry, unknownEntry]
  refine reveals_line_unless_empty ?_ ?_ ?_
  · exact (items.opened _).ended _ fun _ => trivial
  · rintro rest tail ⟨behind, rfl⟩
    rw [String.toList_append, String.toList_append, List.append_assoc]
    exact (Apart.of_differ (by decide)).longer _ _ _
  · rintro rest tail ⟨behind, rfl⟩
    rw [String.toList_append, String.toList_append, List.append_assoc]
    exact (Apart.of_differ (by decide)).longer _ _ _

/-- The line for unknown fields starts with its key, where there is one. -/
theorem begins_unknownEntry (unknown : List (UInt64 × UnknownData)) {rest : List Char}
    (begins : Begins "..".toList rest) :
    Begins "..".toList (lines (writer.unknownEntry unknown) ++ rest) ∨
      Begins "unknown_data: ".toList (lines (writer.unknownEntry unknown) ++ rest) := by
  cases unknown with
  | nil => exact .inl begins
  | cons head tail =>
    right
    rw [unknownEntry, if_neg (by simp), lines, List.flatMap_singleton, String.append_assoc,
      show "unknown_data: Some(" = "unknown_data: " ++ "Some(" from rfl, String.append_assoc,
      String.toList_append, List.append_assoc, List.append_assoc]
    exact ⟨_, rfl⟩

end Unknown

section Fields

variable {write : Literal → String} {header : RecordHeader} {members : List (Member Declaration)}
  (record : ReadableRecord environment .rust write header members)
include record

/-- An entry reveals its field, be it of a struct or of a table. -/
theorem reveals_fieldEntry (distinct : (members.map fun member => fieldName member.name).Nodup)
    {first second : String × Literal} (belongs : Belongs environment members first)
    (listed : Belongs environment members second) :
    Reveals Ends (fieldName first.1 ++ ": " ++ write first.2).toList
      (fieldName second.1 ++ ": " ++ write second.2).toList
      (first.1 = second.1 ∧ Alike .rust first.2 second.2) := by
  have spelled : ∀ member ∈ members, ∀ character ∈ (fieldName member.name).toList,
      isIdentifier character = true := fun member declared =>
    isIdentifier_fieldName (record.plain member declared)
  simp only [String.toList_append]
  exact reveals_field spelled distinct record.contents belongs listed fun rest =>
    leaves_append [' '] rest (by decide)

/-- No entry starts like what closes the record. -/
theorem apart_fieldEntry {field : String × Literal} (belongs : Belongs environment members field)
    (text : String) {closing : Char} (different : ':' ≠ closing)
    (outside : isIdentifier closing = false) (others : List Char) :
    Apart (fieldName field.1 ++ ": " ++ text).toList (closing :: others) := by
  have spelled := isIdentifier_fieldName (record.plain_of_belongs belongs)
  rw [String.toList_append, String.toList_append, List.append_assoc]
  exact apart_word spelled different outside _ others

end Fields

section Records

variable {writer : RustWriter} {header : RecordHeader} {members : List (Member Declaration)}
  (record : ReadableRecord environment .rust writer.expression header members)
include record

/-- A struct reveals its fields. -/
theorem reveals_struct (kind : header.kind = .struct) (name : QualifiedName)
    {first second : List (String × Literal)}
    (belong : ∀ field ∈ first, Belongs environment members field)
    (listed : ∀ field ∈ second, Belongs environment members field) :
    Reveals Anything (writer.expression (.struct name header.nullable first)).toList
      (writer.expression (.struct name header.nullable second)).toList
      (AlikeFields .rust first second) := by
  have distinct := record.distinct
  rw [kind] at distinct
  have each : ∀ left ∈ first, ∀ right ∈ second,
      Reveals (Begins [',']) (writer.entry left).toList (writer.entry right).toList
        (left.1 = right.1 ∧ Alike .rust left.2 right.2) :=
    fun left member right among =>
      (reveals_fieldEntry record distinct (belong left member) (listed right among)).narrow
        fun _ => ends_of_begins_comma
  rw [expression_struct, expression_struct]
  refine reveals_boxed (reveals_block each _ (.of_differ (by decide)) ?_) header.nullable
  intro field inside
  have belongs : Belongs environment members field := inside.elim (belong field) (listed field)
  exact (apart_fieldEntry record belongs _ (by decide) (by decide) []).longer _

/-- A union with a declared member reveals the member's name and its content. -/
theorem reveals_union (kind : header.kind = .union) (name : QualifiedName)
    {first second : String × Literal} (belongs : Belongs environment members first)
    (listed : Belongs environment members second) (ordinal other : UInt64) :
    Reveals Anything
      (writer.expression (.union name header.nullable first.1 ordinal first.2)).toList
      (writer.expression (.union name header.nullable second.1 other second.2)).toList
      (first.1 = second.1 ∧ Alike .rust first.2 second.2) := by
  have distinct := record.distinct
  rw [kind] at distinct
  have spelled : ∀ member ∈ members, ∀ character ∈ (variantName member.name).toList,
      isIdentifier character = true := fun member declared =>
    isIdentifier_variantName (record.plain member declared)
  have opens : ∀ rest, Leaves isIdentifier (['('] ++ rest) :=
    fun rest => leaves_append [] rest (by decide)
  have calls := reveals_field spelled distinct record.contents belongs listed opens
  rw [expression_union, expression_union]
  refine reveals_boxed (Reveals.opened ?_ _) header.nullable
  simp only [variant, String.toList_append]
  exact calls.closed _ fun rest => ends_of_begins_parenthesis ⟨rest, rfl⟩

/-- A declared member of a union is not mistaken for an unknown one. -/
theorem apart_unions (name : QualifiedName) {field : String × Literal}
    (belongs : Belongs environment members field) (ordinal other : UInt64) (data : UnknownData) :
    Apart (writer.expression (.union name header.nullable field.1 ordinal field.2)).toList
      (writer.expression (.unknownUnion name header.nullable other data)).toList := by
  have variants := apart_unknownVariant (record.plain_of_belongs belongs)
  rw [expression_union, expression_unknownUnion]
  refine .of_reveals (reveals_boxed (Reveals.opened (.of_apart ?_) _) header.nullable)
  simp only [variant, String.toList_append, List.append_assoc]
  exact ((variants _).symm.longer _).symm

/-- The fields of a table are optional, and are read back as well. -/
theorem readable_someExpression :
    ReadableRecord environment .rust writer.someExpression header members := by
  refine ⟨record.readable, fun member declared left right fitted suited => ?_⟩
  have contents := record.contents member declared left right fitted suited
  exact (contents.opened _).ended _ fun rest => ends_of_begins_parenthesis ⟨rest, rfl⟩

/-- A table reveals its fields and the unknown ones. -/
theorem reveals_table (kind : header.kind = .table) (name : QualifiedName)
    {first second : List (String × Literal)}
    (belong : ∀ field ∈ first, Belongs environment members field)
    (listed : ∀ field ∈ second, Belongs environment members field)
    (unknown others : List (UInt64 × UnknownData)) :
    Reveals Anything (writer.expression (.table name header.nullable first unknown)).toList
      (writer.expression (.table name header.nullable second others)).toList
      (AlikeFields .rust first second ∧ unknown = others) := by
  have distinct := record.distinct
  rw [kind] at distinct
  obtain ⟨named, -, separate⟩ := List.nodup_append.mp distinct
  have optional := readable_someExpression record
  have each : ∀ left ∈ first, ∀ right ∈ second,
      Reveals (Begins [',']) (writer.someEntry left).toList (writer.someEntry right).toList
        (left.1 = right.1 ∧ Alike .rust left.2 right.2) :=
    fun left member right among =>
      (reveals_fieldEntry optional named (belong left member) (listed right among)).narrow
        fun _ => ends_of_begins_comma
  -- Behind the last field come the two points or the key of the unknown fields.
  have fields : Reveals
      (fun rest => Begins "..".toList rest ∨ Begins "unknown_data: ".toList rest)
      (lines (first.map writer.someEntry)) (lines (second.map writer.someEntry))
      (AlikeFields .rust first second) := by
    refine reveals_lines each fun field inside rest tail permitted => ?_
    have belongs : Belongs environment members field := inside.elim (belong field) (listed field)
    rcases permitted with ⟨behind, rfl⟩ | ⟨behind, rfl⟩
    · exact apart_fieldEntry optional belongs _ (by decide) (by decide) ['.'] _ _
    · obtain ⟨member, declared, label, -⟩ := belongs
      have different : fieldName member.name ≠ "unknown_data" :=
        separate _ (List.mem_map_of_mem declared) _ (List.mem_singleton_self _)
      have key := apart_unknownKey (record.plain member declared) different
      rw [someEntry, String.toList_append, String.toList_append, label, List.append_assoc]
      exact key _ _ _
  have entries := reveals_unknownEntry writer unknown others
  rw [expression_table, expression_table]
  refine reveals_boxed ?_ header.nullable
  rw [toList_table, toList_table, lines_append, lines_append]
  have both := fields.append entries (fun _ => begins_unknownEntry writer unknown) fun _ =>
    begins_unknownEntry writer others
  refine (both.closed _ fun rest => ?_).prefixed _
  rw [List.append_assoc]
  exact ⟨_, rfl⟩

end Records

end FixtureLiterals.RustWriter
