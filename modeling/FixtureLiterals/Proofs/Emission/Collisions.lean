import FixtureLiterals.Proofs.Emission.Members
import FixtureLiterals.Proofs.Text.Fusion

/-!
# Members that collide

A record must not set a member twice. The names of its fields are distinct, and if they are in
snake case, Rust writes them as they are, with an underscore more behind a reserved word, which
makes no other name in snake case. Go runs words together, and some breaks between words are
lost with that. Moreover, the flag of a table's field is named like a field could be, and so is
the member of a Rust table for the fields that the schema does not know. The other members that
Go adds to a record have an underscore in their names, and no name of a field has one.

So collisions happen in structs and tables of Go and in tables of Rust only, and which fields
collide there is seen from their names.
-/

namespace FixtureLiterals

open Text

/-- A name that is its own snake case. -/
def IsSnake (name : String) : Prop := Casing.snake.apply name = name

instance (name : String) : Decidable (IsSnake name) := decEq _ _

/-- The members of a record have names in snake case. -/
def SnakeNames : Declaration → Prop
  | .record _ members => ∀ member ∈ members, IsSnake member.name
  | _ => True

instance (declaration : Declaration) : Decidable (SnakeNames declaration) :=
  match declaration with
  | .record _ members => inferInstanceAs (Decidable (∀ member ∈ members, IsSnake member.name))
  | .primitive _ | .bits _ | .enumeration _ | .handle .. | .string _ | .array .. | .vector .. =>
    .isTrue trivial

/-- What upper camel case keeps of a name: its snake case without the breaks that are lost. -/
def camelKept (name : String) : List Char := fused ('_' :: snake name.toList)

/-- The fields of a record have names that do not collide where they are written. In a table of
Go, each field stands for its flag, too. -/
def MembersApart : Target → Literal → Prop
  | .go, .struct _ _ fields => (fields.map fun field => camelKept field.1).Nodup
  | .go, .table _ _ fields _ =>
    ((fields.flatMap fun field => [field.1, field.1 ++ "_present"]).map camelKept).Nodup
  | .rust, .table _ _ fields unknown => unknown = [] ∨ "unknown_data" ∉ fields.map Prod.fst
  | _, _ => True

section Lists

/-- Functions that tell the same members apart have the same repetitions. -/
theorem nodup_map_iff {α β γ : Type} {first : α → β} {second : α → γ}
    (same : ∀ left right, first left = first right ↔ second left = second right)
    (members : List α) : (members.map first).Nodup ↔ (members.map second).Nodup := by
  rw [List.Nodup, List.Nodup, List.pairwise_map, List.pairwise_map]
  exact List.Pairwise.iff fun left right => not_congr (same left right)

/-- A name that may follow others repeats none of them, unless it is one of them. -/
theorem nodup_append_unless_empty {α β : Type} (front : List α) (last : α) (entries : List β) :
    (front ++ if entries.isEmpty then [] else [last]).Nodup ↔
      front.Nodup ∧ (entries = [] ∨ last ∉ front) := by
  cases entries with
  | nil => simp
  | cons entry entries =>
    rw [if_neg (by simp), List.nodup_append, ← List.forall_mem_ne']
    simp

end Lists

namespace GoWriter

/-- Fields are written alike exactly if upper camel case keeps the same of their names. -/
theorem fieldName_eq_iff (first second : String) :
    fieldName first = fieldName second ↔ camelKept first = camelKept second := by
  rw [fieldName, fieldName, Casing.apply, Casing.apply, String.ofList_inj]
  exact upperCamel_eq_iff first.toList second.toList

/-- The flag of a field is written like a field that has one word more in its name. -/
theorem fieldName_append_present (field : String) :
    fieldName (field ++ "_present") = fieldName field ++ "Present" := by
  have last : (words "present".toList).map capitalized = ["Present".toList] := by decide
  have parted : upperCamel (field.toList ++ "_present".toList) =
      upperCamel field.toList ++ "Present".toList := by
    change upperCamel (field.toList ++ '_' :: "present".toList) = _
    rw [upperCamel, words_append (by decide), List.map_append, List.flatten_append, last,
      List.flatten_singleton, upperCamel]
  rw [← String.toList_inj]
  simp only [fieldName, Casing.apply, String.toList_append, String.toList_ofList, parted]

/-- No field has an underscore in its name. -/
theorem underscore_not_mem_fieldName (field : String) : '_' ∉ (fieldName field).toList := by
  rw [fieldName, Casing.apply, String.toList_ofList]
  exact not_mem_upperCamel (by decide) (not_mem_words (.inl (by decide)))

/-- The tag of a union is no field. -/
theorem unionTagField_ne_fieldName (type : QualifiedName) (field : String) :
    unionTagField type ≠ fieldName field := by
  intro same
  apply underscore_not_mem_fieldName field
  rw [← same, unionTagField, String.toList_append, String.toList_append]
  exact List.mem_append_left _ (List.mem_append_left _ (by decide))

/-- The tag of a union is not the member that holds unknown data. -/
theorem unionTagField_ne_unknownData (type : QualifiedName) :
    unionTagField type ≠ "I_unknownData" := by
  intro same
  have last := congrArg (fun text => text.toList.getLast?) same
  have tag : "Tag".toList.getLast? = some 'g' := by decide
  rw [unionTagField, String.toList_append, List.getLast?_append, tag, Option.some_or] at last
  exact absurd last (by decide)

/-- A literal sets no member twice exactly if its fields do not collide. -/
theorem nodup_memberNames_iff (literal : Literal) :
    (memberNames literal).Nodup ↔ MembersApart .go literal := by
  cases literal with
  | struct name nullable fields =>
    exact nodup_map_iff (fun left right => fieldName_eq_iff left.1 right.1) fields
  | union type nullable field ordinal value =>
    refine iff_of_true (List.nodup_cons.mpr ⟨?_, List.nodup_singleton _⟩) trivial
    exact fun listed => unionTagField_ne_fieldName type field (List.mem_singleton.mp listed)
  | unknownUnion type nullable ordinal data =>
    refine iff_of_true (List.nodup_cons.mpr ⟨?_, List.nodup_singleton _⟩) trivial
    exact fun listed => unionTagField_ne_unknownData type (List.mem_singleton.mp listed)
  | table name nullable fields unknown =>
    have written : (fields.flatMap fun field =>
        [fieldName field.1, fieldName field.1 ++ "Present"]) =
          (fields.flatMap fun field => [field.1, field.1 ++ "_present"]).map fieldName := by
      simp only [List.map_flatMap, List.map_cons, List.map_nil, fieldName_append_present]
    have outside : "I_unknownData" ∉
        (fields.flatMap fun field => [field.1, field.1 ++ "_present"]).map fieldName := by
      intro listed
      obtain ⟨field, -, same⟩ := List.mem_map.mp listed
      apply underscore_not_mem_fieldName field
      rw [same]
      decide
    rw [memberNames, written, nodup_append_unless_empty, and_iff_left (.inr outside), MembersApart]
    exact nodup_map_iff fieldName_eq_iff _
  | _ => exact iff_of_true List.nodup_nil trivial

end GoWriter

/-- The escape of reserved words keeps identifiers apart that do not end in an underscore. -/
theorem eq_of_avoidReserved_eq {reserved : List String} {first second : String}
    (unended : first.toList.getLast? ≠ some '_') (other : second.toList.getLast? ≠ some '_')
    (same : avoidReserved reserved first = avoidReserved reserved second) : first = second := by
  have ended (front : String) : (front ++ "_").toList.getLast? = some '_' := by
    rw [String.toList_append]
    exact List.getLast?_concat
  rw [avoidReserved, avoidReserved] at same
  -- If only one of the two is escaped, the other one ends like the escape, which neither does.
  split at same <;> split at same
  · exact (String.append_left_inj "_").mp same
  · exact absurd (ended first) (same ▸ other)
  · exact absurd (ended second) (same ▸ unended)
  · exact same

namespace RustWriter

/-- Fields with names in snake case are written alike only if they have the same name. -/
theorem eq_of_fieldName_eq {first second : String} (snake : IsSnake first)
    (other : IsSnake second) (same : fieldName first = fieldName second) : first = second := by
  have unended (name : String) : (Casing.snake.apply name).toList.getLast? ≠ some '_' := by
    rw [Casing.apply, String.toList_ofList]
    exact getLast?_snake_ne name.toList
  rw [← snake, ← other]
  exact eq_of_avoidReserved_eq (unended first) (unended second) same

/-- A field that is named like the member for unknown fields is written like it. -/
theorem fieldName_unknownData : fieldName "unknown_data" = "unknown_data" := by decide

section Names

variable {names : List String} (snake : ∀ name ∈ names, IsSnake name)
include snake

/-- Distinct names in snake case are written as distinct names. -/
theorem nodup_map_fieldName (distinct : names.Nodup) : (names.map fieldName).Nodup := by
  apply distinct.map_on
  intro first listed second member
  exact eq_of_fieldName_eq (snake first listed) (snake second member)

/-- Only the field that is named like the member for unknown fields is written like it. -/
theorem unknownData_mem_map_fieldName_iff :
    "unknown_data" ∈ names.map fieldName ↔ "unknown_data" ∈ names := by
  constructor
  · intro listed
    obtain ⟨name, found, same⟩ := List.mem_map.mp listed
    have collides : name = "unknown_data" :=
      eq_of_fieldName_eq (snake name found) (by decide) (same.trans fieldName_unknownData.symm)
    rwa [collides] at found
  · intro listed
    exact List.mem_map.mpr ⟨"unknown_data", listed, fieldName_unknownData⟩

end Names

/-- A literal sets no member twice exactly if none of its fields collides with the member that
holds unknown fields. -/
theorem nodup_memberNames_iff {literal : Literal}
    (snake : ∀ field ∈ literal.fieldNames, IsSnake field) (distinct : literal.fieldNames.Nodup) :
    (memberNames literal).Nodup ↔ MembersApart .rust literal := by
  have apart := nodup_map_fieldName snake distinct
  have collides := unknownData_mem_map_fieldName_iff snake
  cases literal with
  | struct name nullable fields =>
    rw [Literal.fieldNames, List.map_map, Function.comp_def] at apart
    exact iff_of_true apart trivial
  | union name nullable field ordinal value => exact iff_of_true (List.nodup_singleton _) trivial
  | table name nullable fields unknown =>
    rw [Literal.fieldNames, List.map_map, Function.comp_def] at apart collides
    rw [memberNames, nodup_append_unless_empty, MembersApart, ← collides]
    exact and_iff_right apart
  | _ => exact iff_of_true List.nodup_nil trivial

end RustWriter

/-- The fields that a well-formed literal sets are members of its declaration, each set once. -/
theorem Literal.fieldNames_of_wellFormed {environment : Environment} {declaration : Declaration}
    {literal : Literal} (fitted : WellFormed environment declaration literal)
    (snake : SnakeNames declaration) (distinct : declaration.NamesApart) :
    (∀ field ∈ literal.fieldNames, IsSnake field) ∧ literal.fieldNames.Nodup := by
  cases fitted with
  | struct kind parsed named each =>
    rw [Literal.fieldNames, ← named]
    exact ⟨List.forall_mem_map.mpr snake, distinct⟩
  | union kind parsed declared content =>
    refine ⟨?_, List.nodup_singleton _⟩
    intro field listed
    rw [List.mem_singleton.mp listed]
    exact snake _ (Member.mem_of_named? declared).1
  | table kind parsed declared named each =>
    rw [Literal.fieldNames, ← named]
    refine ⟨List.forall_mem_map.mpr fun member present => ?_, ?_⟩
    · exact snake member (declared.subset present)
    · exact (declared.map Member.name).nodup distinct
  | _ => exact ⟨nofun, List.nodup_nil⟩

/-- If the names of all members are distinct and in snake case, a record in what is written for an
accepted value sets no member twice exactly if the names of its fields do not collide. -/
theorem Writer.member_names_nodup_iff (writer : Writer) {handles : HandleTable}
    {declaration : Declaration} (snake : declaration.All SnakeNames)
    (distinct : declaration.Distinct) {value : Value} {literal : Literal}
    (fits : writer.fit handles declaration value = .ok literal) :
    writer.encode handles declaration value = .ok (writer.expression literal) ∧
      ∀ part : Literal, part.Within literal → writer.Itemizes literal part ∧
        ((memberNames writer.target part).Nodup ↔ MembersApart writer.target part) := by
  refine ⟨(Writer.encode_eq_ok_iff ..).mpr ⟨literal, fits, rfl⟩, fun part inside => ?_⟩
  refine ⟨writer.itemizes_of_within inside, ?_⟩
  obtain ⟨inner, both, fitted⟩ :=
    inside.wellFormed (snake.and distinct) (Literal.wellFormed_of_fit fits)
  obtain ⟨names, apart⟩ := Literal.fieldNames_of_wellFormed fitted both.self.1 both.self.2
  cases writer with
  | go => exact GoWriter.nodup_memberNames_iff part
  | rust => exact RustWriter.nodup_memberNames_iff names apart

/-- In a table of Go, a field and its flag do not collide with a field that has other words. -/
theorem Writer.member_names_nodup_iff_table :
    let writer : Writer := .standard .go
    let declaration : Declaration := .record ⟨"a.lib/row", .table, false, .value, .flexible⟩
      [⟨"type", 1, .primitive .bool⟩, ⟨"type_name", 2, .primitive .bool⟩]
    let value : Value := .record
      [Value.named "type" (.bool true), Value.named "type_name" (.bool false)]
    let literal : Literal := .table ⟨["a.lib"], "row"⟩ false
      [("type", .bool true), ("type_name", .bool false)] []
    declaration.All SnakeNames ∧ declaration.Distinct ∧
      writer.fit [] declaration value = .ok literal ∧
      writer.encode [] declaration value = .ok (writer.expression literal) ∧
      ∀ part : Literal, part.Within literal → writer.Itemizes literal part ∧
        ((memberNames .go part).Nodup ↔ MembersApart .go part) := by
  intro writer declaration value literal
  have snake : declaration.All SnakeNames := ⟨by decide, trivial, trivial, trivial⟩
  have distinct : declaration.Distinct := by
    refine ⟨?_, trivial, trivial, trivial⟩
    simp [Declaration.NamesApart]
  have fits : writer.fit [] declaration value = .ok literal := rfl
  exact ⟨snake, distinct, fits, writer.member_names_nodup_iff snake distinct fits⟩

/-- Names that differ in a break in front of a digit collide in Go, and in Rust a field of a table
collides with the member that holds its unknown fields. -/
theorem Writer.member_names_collide :
    let pair : Declaration := .record ⟨"a.lib/pair", .struct, false, .value, .flexible⟩
      [⟨"a1", 0, .primitive .bool⟩, ⟨"a_1", 0, .primitive .bool⟩]
    let row : Declaration := .record ⟨"a.lib/row", .table, false, .value, .flexible⟩
      [⟨"unknown_data", 1, .primitive .bool⟩]
    let pairLiteral : Literal := .struct ⟨["a.lib"], "pair"⟩ false
      [("a1", .bool true), ("a_1", .bool false)]
    let rowLiteral : Literal := .table ⟨["a.lib"], "row"⟩ false [("unknown_data", .bool true)]
      [(2, ⟨[], []⟩)]
    (pair.All SnakeNames ∧ pair.Distinct ∧
      (Writer.standard .go).fit [] pair
        (.record [Value.named "a1" (.bool true), Value.named "a_1" (.bool false)]) =
          .ok pairLiteral ∧
      (Writer.standard .go).expression pairLiteral =
        "a_lib.Pair\x7b\nA1: true,\nA1: false,\n\x7d" ∧
      ¬ (memberNames .go pairLiteral).Nodup) ∧
    (row.All SnakeNames ∧ row.Distinct ∧
      (Writer.standard .rust).fit [] row
        (.record [Value.named "unknown_data" (.bool true), Value.unknown 2 ⟨[], []⟩]) =
          .ok rowLiteral ∧
      ¬ (memberNames .rust rowLiteral).Nodup) := by
  intro pair row pairLiteral rowLiteral
  refine ⟨⟨⟨by decide, trivial, trivial, trivial⟩, ⟨?_, trivial, trivial, trivial⟩, rfl, rfl,
    by decide⟩, ⟨by decide, trivial, trivial⟩, ⟨?_, trivial, trivial⟩, rfl, by decide⟩ <;>
    simp [Declaration.NamesApart]

end FixtureLiterals
