import FixtureLiterals.Proofs.Emission.GoParts
import FixtureLiterals.Proofs.Emission.Nodes

/-!
# Go records

A record is a block behind its type. The type is the same for all records of one
declaration, so what tells them apart is the key in front of each field. A union has its tag
in front of the field, and a table has a flag behind each of its fields and the unknown ones
at its end.
-/

namespace FixtureLiterals.GoWriter

open Emission Text

variable {environment : Environment}

section Names

/-- Names of fields have letters and digits only. -/
theorem isAlphanum_fieldName {name : String} (plain : IsPlainName name) :
    ∀ character ∈ (fieldName name).toList, character.isAlphanum = true := by
  rw [fieldName, Casing.apply, String.toList_ofList]
  exact isAlphanum_upperCamel plain.spelled

/-- Names of fields are identifiers. -/
theorem isIdentifier_fieldName {name : String} (plain : IsPlainName name) :
    ∀ character ∈ (fieldName name).toList, isIdentifier character = true := by
  intro character listed
  rw [isIdentifier, isAlphanum_fieldName plain character listed, Bool.true_or]

/-- No field has the name under which unknown content is kept. -/
theorem fieldName_ne_unknownData {name : String} (plain : IsPlainName name) :
    fieldName name ≠ "I_unknownData" := by
  intro same
  have letters := isAlphanum_fieldName plain
  rw [same] at letters
  exact absurd (letters '_' (by decide)) (by decide)

/-- No key of a field starts like the key of unknown content. -/
theorem apart_unknownKey {name : String} (plain : IsPlainName name) (behind : List Char) :
    Apart ((fieldName name).toList ++ ':' :: behind) "I_unknownData: ".toList := by
  have key : ∀ character ∈ "I_unknownData".toList, isIdentifier character = true :=
    List.all_eq_true.mp rfl
  have different : (fieldName name).toList ≠ "I_unknownData".toList := fun same =>
    fieldName_ne_unknownData plain (String.toList_inj.mp same)
  exact .of_words (isIdentifier_fieldName plain) key different (by decide) (by decide) behind [' ']

/-- The tag of a declared member is a qualified name as well. -/
theorem isQualified_unionTag {name field : String} {parsed : QualifiedName}
    (plain : IsPlainPath name) (read : QualifiedName.parse name = .ok parsed)
    (spelled : IsPlainName field) :
    ∀ character ∈ (unionTag parsed field).toList, goStyle.isQualified character = true := by
  intro character listed
  rw [unionTag, String.toList_append] at listed
  rcases List.mem_append.mp listed with inside | behind
  · exact isQualified_render plain.spelled read character inside
  · rw [NameStyle.isQualified, isIdentifier_fieldName spelled character behind, Bool.true_or]

/-- An ordinal has the characters of a qualified name. -/
theorem isQualified_decimal (number : Nat) :
    ∀ character ∈ (decimal number).toList, goStyle.isQualified character = true := by
  intro character listed
  rw [NameStyle.isQualified, isIdentifier, Char.isAlphanum, isDigit_of_mem_decimal listed, Bool.or_true, Bool.true_or,
    Bool.true_or]

end Names

section Equations

variable (writer : GoWriter)

/-- Each literal of a list is written on its own. -/
theorem expressions_eq_map (literals : List Literal) :
    writer.expressions literals = literals.map writer.expression := by
  induction literals with
  | nil => rw [expressions, List.map_nil]
  | cons literal literals inductionHypothesis =>
    rw [expressions, List.map_cons, inductionHypothesis]

/-- Each field of a record is written on its own. -/
theorem fieldExpressions_eq_map (fields : List (String × Literal)) :
    writer.fieldExpressions fields =
      fields.map fun field => (field.1, writer.expression field.2) := by
  induction fields with
  | nil => rw [fieldExpressions, List.map_nil]
  | cons field fields inductionHypothesis =>
    rw [fieldExpressions, List.map_cons, inductionHypothesis]

/-- A field as an entry of a record. -/
def entry (field : String × Literal) : String :=
  fieldName field.1 ++ ": " ++ writer.expression field.2

/-- The lines of a field in a table. -/
def tableLines (field : String × Literal) : List Char :=
  lines (tableEntries (field.1, writer.expression field.2))

/-- The first line of a field in a table is its entry, and the second one its flag. -/
theorem tableLines_eq (field : String × Literal) : writer.tableLines field =
    (writer.entry field).toList ++ [',', '\n'] ++
      ((fieldName field.1 ++ "Present: true").toList ++ [',', '\n']) := by
  simp only [tableLines, tableEntries, lines, List.flatMap_cons, List.flatMap_nil,
    List.append_nil, entry]

/-- An entry starts with its key. -/
theorem exists_entry_eq (field : String × Literal) :
    ∃ behind, (writer.entry field).toList = (fieldName field.1).toList ++ ':' :: behind := by
  rw [entry, String.toList_append, String.toList_append, List.append_assoc]
  exact ⟨_, rfl⟩

/-- The line for unknown fields starts with its key, where there is one. -/
theorem begins_unknownEntry (unknown : List (UInt64 × UnknownData)) {rest : List Char}
    (begins : Begins ['\x7d'] rest) :
    Begins ['\x7d'] (lines (writer.unknownEntry unknown) ++ rest) ∨
      Begins "I_unknownData: ".toList (lines (writer.unknownEntry unknown) ++ rest) := by
  cases unknown with
  | nil => exact .inl begins
  | cons head tail =>
    right
    rw [unknownEntry, if_neg (by simp), lines, List.flatMap_singleton, String.toList_append,
      List.append_assoc, List.append_assoc]
    exact ⟨_, rfl⟩

/-- A list is a block of its elements. -/
theorem expression_list (type : TypeReference) (elements : List Literal) :
    writer.expression (.list type elements) =
      block (writer.literalType type ++ "\x7b") (elements.map writer.expression) "\x7d" := by
  rw [expression, composite, expressions_eq_map]

/-- A struct is a block of its fields. -/
theorem expression_struct (name : QualifiedName) (nullable : Bool)
    (fields : List (String × Literal)) :
    writer.expression (.struct name nullable fields) =
      block (recordType name nullable ++ "\x7b") (fields.map writer.entry) "\x7d" := by
  rw [expression, composite, fieldExpressions_eq_map, List.map_map]
  rfl

/-- A union with a declared member is a block of a tag and of its field. -/
theorem expression_union (name : QualifiedName) (nullable : Bool) (field : String)
    (ordinal : UInt64) (value : Literal) :
    writer.expression (.union name nullable field ordinal value) =
      block (recordType name nullable ++ "\x7b")
        [unionTagField name ++ ": " ++ unionTag name field, writer.entry (field, value)]
        "\x7d" := by
  rw [expression, composite]
  rfl

/-- A union with an unknown member is a block of an ordinal and of its content. -/
theorem expression_unknownUnion (name : QualifiedName) (nullable : Bool) (ordinal : UInt64)
    (data : UnknownData) :
    writer.expression (.unknownUnion name nullable ordinal data) =
      block (recordType name nullable ++ "\x7b")
        [unionTagField name ++ ": " ++ decimal ordinal.toNat,
          "I_unknownData: " ++ writer.unknownData data] "\x7d" := by
  rw [expression, composite]

/-- A table is a block of its fields and of an entry for the unknown ones. -/
theorem expression_table (name : QualifiedName) (nullable : Bool)
    (fields : List (String × Literal)) (unknown : List (UInt64 × UnknownData)) :
    writer.expression (.table name nullable fields unknown) =
      block (recordType name nullable ++ "\x7b")
        ((fields.flatMap fun field => tableEntries (field.1, writer.expression field.2)) ++
          writer.unknownEntry unknown) "\x7d" := by
  rw [expression, composite, fieldExpressions_eq_map, List.flatMap_map]

end Equations

section Records

variable {writer : GoWriter} {header : RecordHeader} {members : List (Member Declaration)}
  (record : ReadableRecord environment .go writer.expression header members)
include record

/-- The names of fields are told apart in a record of any kind. -/
theorem nodup_fieldNames : (members.map fun member => fieldName member.name).Nodup := by
  have distinct := record.distinct
  cases kind : header.kind with
  | struct =>
    rw [kind] at distinct
    exact distinct
  | union =>
    rw [kind] at distinct
    exact distinct
  | table =>
    rw [kind] at distinct
    exact (List.nodup_append.mp (List.nodup_append.mp distinct).1).1

/-- An entry reveals its field. -/
theorem reveals_entry {first second : String × Literal}
    (belongs : Belongs environment members first)
    (listed : Belongs environment members second) :
    Reveals Ends (writer.entry first).toList (writer.entry second).toList
      (first.1 = second.1 ∧ Alike .go first.2 second.2) := by
  have spelled : ∀ member ∈ members, ∀ character ∈ (fieldName member.name).toList,
      isIdentifier character = true := fun member declared =>
    isIdentifier_fieldName (record.plain member declared)
  simp only [entry, String.toList_append]
  exact reveals_field spelled (nodup_fieldNames record) record.contents belongs listed fun rest =>
    leaves_append [' '] rest (by decide)

/-- A struct reveals its fields. -/
theorem reveals_struct (name : QualifiedName) {first second : List (String × Literal)}
    (belong : ∀ field ∈ first, Belongs environment members field)
    (listed : ∀ field ∈ second, Belongs environment members field) :
    Reveals Anything (writer.expression (.struct name header.nullable first)).toList
      (writer.expression (.struct name header.nullable second)).toList
      (AlikeFields .go first second) := by
  rw [expression_struct, expression_struct]
  refine reveals_block (fun left member right among => ?_) _ (.of_differ (by decide)) ?_
  · exact (reveals_entry record (belong left member) (listed right among)).narrow fun _ =>
      ends_of_begins_comma
  · intro field inside
    have plain := record.plain_of_belongs (inside.elim (belong field) (listed field))
    obtain ⟨behind, spelled⟩ := exists_entry_eq writer field
    rw [spelled]
    exact (apart_word (isIdentifier_fieldName plain) (by decide) (by decide) behind []).longer _

/-- The lines of a field in a table reveal the field. -/
theorem reveals_tableLines {first second : String × Literal}
    (belongs : Belongs environment members first)
    (listed : Belongs environment members second) :
    Reveals Anything (writer.tableLines first) (writer.tableLines second)
      (first.1 = second.1 ∧ Alike .go first.2 second.2) := by
  have entries := reveals_entry record belongs listed
  rw [tableLines_eq, tableLines_eq]
  -- The flag repeats the name, so behind the same field the line is the same.
  refine (reveals_line (entries.narrow fun _ => ends_of_begins_comma)).followed fun both => ?_
  rw [both.1]

/-- A table reveals its fields and the unknown ones. -/
theorem reveals_table (name : QualifiedName) {first second : List (String × Literal)}
    (belong : ∀ field ∈ first, Belongs environment members field)
    (listed : ∀ field ∈ second, Belongs environment members field)
    (unknown others : List (UInt64 × UnknownData)) :
    Reveals Anything (writer.expression (.table name header.nullable first unknown)).toList
      (writer.expression (.table name header.nullable second others)).toList
      (AlikeFields .go first second ∧ unknown = others) := by
  have separate (fields : List (String × Literal)) :
      lines (fields.flatMap fun field => tableEntries (field.1, writer.expression field.2)) =
        fields.flatMap writer.tableLines := by
    rw [lines, List.flatMap_assoc]
    rfl
  -- Behind the last field comes the closing brace or the key of the unknown fields.
  have fields : Reveals
      (fun rest => Begins ['\x7d'] rest ∨ Begins "I_unknownData: ".toList rest)
      (first.flatMap writer.tableLines) (second.flatMap writer.tableLines)
      (AlikeFields .go first second) := by
    refine reveals_flatMap (fun left member right among => ?_) ?_
    · exact reveals_tableLines record (belong left member) (listed right among)
    · intro field inside rest tail permitted same
      have plain := record.plain_of_belongs (inside.elim (belong field) (listed field))
      obtain ⟨behind, spelled⟩ := exists_entry_eq writer field
      rw [tableLines_eq, spelled, List.append_assoc, List.append_assoc] at same
      rcases permitted with ⟨others, rfl⟩ | ⟨others, rfl⟩
      · exact apart_word (isIdentifier_fieldName plain) (by decide) (by decide) _ [] _ _ same
      · exact apart_unknownKey plain _ _ _ same
  have entries := reveals_unknownEntry writer unknown others
  rw [expression_table, expression_table]
  refine reveals_block_of_lines _ (.of_differ (by decide)) ?_
  rw [lines_append, lines_append, separate, separate]
  exact fields.append entries (fun _ => begins_unknownEntry writer unknown) fun _ =>
    begins_unknownEntry writer others

end Records

section Unions

/-- Tags are revealed, be they names of members or ordinals. -/
theorem reveals_tag (name : QualifiedName) {first second : String}
    (spelled : ∀ character ∈ first.toList, goStyle.isQualified character = true)
    (written : ∀ character ∈ second.toList, goStyle.isQualified character = true) :
    Reveals (Begins [',']) (unionTagField name ++ ": " ++ first).toList
      (unionTagField name ++ ": " ++ second).toList (first = second) := by
  have tags := (reveals_word spelled written).imp String.toList_inj.mp
  refine (tags.narrow ?_).opened _
  rintro rest ⟨tail, rfl⟩
  exact leaves_append [] tail (by decide)

/-- Unknown content of a union is revealed, with its ordinal. -/
theorem reveals_unknownUnion (writer : GoWriter) (name : QualifiedName) (nullable : Bool)
    (first second : UInt64 × UnknownData) :
    Reveals Anything (writer.expression (.unknownUnion name nullable first.1 first.2)).toList
      (writer.expression (.unknownUnion name nullable second.1 second.2)).toList
      (first = second) := by
  have ordinals : Reveals (Begins [','])
      (unionTagField name ++ ": " ++ decimal first.1.toNat).toList
      (unionTagField name ++ ": " ++ decimal second.1.toNat).toList (first.1 = second.1) := by
    refine ((reveals_ordinal first.1 second.1).narrow ?_).opened _
    rintro rest ⟨tail, rfl⟩
    exact leaves_append [] tail (by decide)
  have contents : Reveals (Begins [',']) ("I_unknownData: " ++ writer.unknownData first.2).toList
      ("I_unknownData: " ++ writer.unknownData second.2).toList (first.2 = second.2) :=
    ((reveals_unknownData writer first.2 second.2).narrow fun _ _ => trivial).opened _
  rw [expression_unknownUnion, expression_unknownUnion]
  refine (reveals_pair _ (.of_differ (by decide)) ordinals contents).imp ?_
  rintro ⟨sameOrdinal, sameData⟩
  exact Prod.ext sameOrdinal sameData

variable {writer : GoWriter} {header : RecordHeader} {members : List (Member Declaration)}
  (record : ReadableRecord environment .go writer.expression header members)
  {name : QualifiedName} (parsed : QualifiedName.parse header.name = .ok name)
include record parsed

/-- A union with a declared member reveals the member's name and its content. -/
theorem reveals_union {first second : String × Literal}
    (belongs : Belongs environment members first)
    (listed : Belongs environment members second) (ordinal other : UInt64) :
    Reveals Anything
      (writer.expression (.union name header.nullable first.1 ordinal first.2)).toList
      (writer.expression (.union name header.nullable second.1 other second.2)).toList
      (first.1 = second.1 ∧ Alike .go first.2 second.2) := by
  have tags := reveals_tag name
    (isQualified_unionTag record.path parsed (record.plain_of_belongs belongs))
    (isQualified_unionTag record.path parsed (record.plain_of_belongs listed))
  have entries := (reveals_entry record belongs listed).narrow fun _ => ends_of_begins_comma
  rw [expression_union, expression_union]
  exact (reveals_pair _ (.of_differ (by decide)) tags entries).imp And.right

/-- A declared member of a union is not mistaken for an unknown one. -/
theorem apart_unions {field : String × Literal} (belongs : Belongs environment members field)
    (ordinal other : UInt64) (data : UnknownData) :
    Apart (writer.expression (.union name header.nullable field.1 ordinal field.2)).toList
      (writer.expression (.unknownUnion name header.nullable other data)).toList := by
  have plain := record.plain_of_belongs belongs
  have tags := reveals_tag name (isQualified_unionTag record.path parsed plain)
    (isQualified_decimal other.toNat)
  obtain ⟨behind, spelled⟩ := exists_entry_eq writer field
  have keys : Apart (writer.entry field).toList
      ("I_unknownData: " ++ writer.unknownData data).toList := by
    rw [spelled, String.toList_append]
    exact ((apart_unknownKey plain behind).symm.longer _).symm
  rw [expression_union, expression_unknownUnion]
  exact .of_reveals
    ((reveals_pair _ (.of_differ (by decide)) tags (.of_apart keys)).imp And.right)

end Unions

end FixtureLiterals.GoWriter
