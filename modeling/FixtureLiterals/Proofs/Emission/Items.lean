import FixtureLiterals.Proofs.Emission.ListHeaders
import FixtureLiterals.Proofs.Emission.RustRecords

/-!
# The items of records

A record is written item by item, and every item starts with the name of the member that it
sets. Members of the record itself, which tag a union or hold what the schema does not know, have
fixed names or are named for the type. All others are named for a declared field, by the casing
that the target has for it.

What is written for a part of a literal stands unchanged in what is written for the whole, so the
items of all records in a literal can be found in one text.
-/

namespace FixtureLiterals

open Emission Text

/-- What is written for a member starts with the member's name, which ends at the colon or the
parenthesis in front of the content. -/
inductive Sets (name : String) : String → Prop where
  | field (content : String) : Sets name (name ++ ": " ++ content)
  | variant (content : String) : Sets name (name ++ "(" ++ content ++ ")")

/-- Items that are written one by one start with the names that go with them. -/
theorem sets_map {α : Type} {name item : α → String}
    (each : ∀ member, Sets (name member) (item member)) (members : List α) :
    List.Forall₂ Sets (members.map name) (members.map item) := by
  rw [List.forall₂_map_left_iff, List.forall₂_map_right_iff, List.forall₂_same]
  exact fun member _ => each member

/-- An item that is left out for an empty list sets its member wherever it is written. -/
theorem sets_unless_empty {α : Type} {name item : String} (sets : Sets name item)
    (entries : List α) : List.Forall₂ Sets (if entries.isEmpty then [] else [name])
      (if entries.isEmpty then [] else [item]) := by
  cases entries with
  | nil => exact .nil
  | cons => exact .cons sets .nil

namespace GoWriter

/-- The names of the members that a literal sets. -/
def memberNames : Literal → List String
  | .struct _ _ fields => fields.map fun field => fieldName field.1
  | .union name _ field _ _ => [unionTagField name, fieldName field]
  | .unknownUnion name _ _ _ => [unionTagField name, "I_unknownData"]
  | .table _ _ fields unknown =>
    (fields.flatMap fun field => [fieldName field.1, fieldName field.1 ++ "Present"]) ++
      if unknown.isEmpty then [] else ["I_unknownData"]
  | _ => []

/-- A record around its items. Other literals have no items. -/
def framed (writer : GoWriter) (literal : Literal) (items : List String) : String :=
  match literal with
  | .struct name nullable _ | .union name nullable _ _ _ | .unknownUnion name nullable _ _
  | .table name nullable _ _ => composite (recordType name nullable) items
  | _ => writer.expression literal

section Items

variable (writer : GoWriter)

/-- The lines of a table's fields set the fields and their flags. -/
theorem sets_tableEntries (fields : List (String × Literal)) :
    List.Forall₂ Sets
      (fields.flatMap fun field => [fieldName field.1, fieldName field.1 ++ "Present"])
      (fields.flatMap fun field => tableEntries (field.1, writer.expression field.2)) := by
  induction fields with
  | nil => exact .nil
  | cons field fields inductionHypothesis =>
    have flag : Sets (fieldName field.1 ++ "Present") (fieldName field.1 ++ "Present: true") := by
      have spelled : Sets (fieldName field.1 ++ "Present")
          (fieldName field.1 ++ "Present" ++ ": " ++ "true") := .field "true"
      rwa [String.append_assoc, String.append_assoc] at spelled
    rw [List.flatMap_cons, List.flatMap_cons]
    exact List.rel_append (.cons (.field _) (.cons flag .nil)) inductionHypothesis

/-- The line for unknown fields, if there is one, sets the member that holds them. -/
theorem sets_unknownEntry (unknown : List (UInt64 × UnknownData)) :
    List.Forall₂ Sets (if unknown.isEmpty then [] else ["I_unknownData"])
      (writer.unknownEntry unknown) :=
  sets_unless_empty (.field _) unknown

/-- A literal is written with an item for each member that it sets, and without any other. -/
theorem exists_items (literal : Literal) :
    ∃ items, writer.expression literal = writer.framed literal items ∧
      List.Forall₂ Sets (memberNames literal) items := by
  cases literal with
  | struct name nullable fields =>
    refine ⟨fields.map writer.entry, expression_struct writer name nullable fields, ?_⟩
    have each (field : String × Literal) : Sets (fieldName field.1) (writer.entry field) :=
      .field (writer.expression field.2)
    exact sets_map each fields
  | union name nullable field ordinal value =>
    refine ⟨[unionTagField name ++ ": " ++ unionTag name field, writer.entry (field, value)],
      expression_union writer name nullable field ordinal value, ?_⟩
    exact .cons (.field (unionTag name field)) (.cons (.field (writer.expression value)) .nil)
  | unknownUnion name nullable ordinal data =>
    refine ⟨[unionTagField name ++ ": " ++ decimal ordinal.toNat,
      "I_unknownData: " ++ writer.unknownData data],
      expression_unknownUnion writer name nullable ordinal data, ?_⟩
    exact .cons (.field (decimal ordinal.toNat)) (.cons (.field (writer.unknownData data)) .nil)
  | table name nullable fields unknown =>
    refine ⟨_, expression_table writer name nullable fields unknown, ?_⟩
    exact List.rel_append (sets_tableEntries writer fields) (sets_unknownEntry writer unknown)
  | _ => exact ⟨[], rfl, .nil⟩

end Items

end GoWriter

namespace RustWriter

/-- The names of the members that a literal sets. -/
def memberNames : Literal → List String
  | .struct _ _ fields => fields.map fun field => fieldName field.1
  | .union _ _ field _ _ => [variantName field]
  | .table _ _ fields unknown =>
    (fields.map fun field => fieldName field.1) ++
      if unknown.isEmpty then [] else ["unknown_data"]
  | _ => []

/-- A record around its items. A union with a declared member has one item, and one with an
unknown member has none, nor have other literals. -/
def framed (writer : RustWriter) (literal : Literal) (items : List String) : String :=
  match literal with
  | .struct name nullable _ => boxed nullable (block (qualified name ++ " \x7b") items "\x7d")
  | .union name nullable _ _ _ => boxed nullable (qualified name ++ "::" ++ String.join items)
  | .table name nullable _ _ => boxed nullable (table (qualified name) items)
  | _ => writer.expression literal

section Items

variable (writer : RustWriter)

/-- The line for unknown fields, if there is one, sets the member that holds them. -/
theorem sets_unknownEntry (unknown : List (UInt64 × UnknownData)) :
    List.Forall₂ Sets (if unknown.isEmpty then [] else ["unknown_data"])
      (writer.unknownEntry unknown) := by
  rw [unknownEntry, show "unknown_data: Some(" = "unknown_data" ++ ": " ++ "Some(" from rfl,
    String.append_assoc, String.append_assoc]
  exact sets_unless_empty (.field _) unknown

/-- A literal is written with an item for each member that it sets, and without any other. -/
theorem exists_items (literal : Literal) :
    ∃ items, writer.expression literal = writer.framed literal items ∧
      List.Forall₂ Sets (memberNames literal) items := by
  cases literal with
  | struct name nullable fields =>
    refine ⟨fields.map writer.entry, expression_struct writer name nullable fields, ?_⟩
    have each (field : String × Literal) : Sets (fieldName field.1) (writer.entry field) :=
      .field (writer.expression field.2)
    exact sets_map each fields
  | union name nullable field ordinal value =>
    refine ⟨[writer.variant (field, value)], ?_, .cons (.variant (writer.expression value)) .nil⟩
    rw [framed, String.join, List.foldl_cons, List.foldl_nil, String.empty_append]
    exact expression_union writer name nullable field ordinal value
  | table name nullable fields unknown =>
    refine ⟨_, expression_table writer name nullable fields unknown, ?_⟩
    have each (field : String × Literal) : Sets (fieldName field.1) (writer.someEntry field) :=
      .field (writer.someExpression field.2)
    exact List.rel_append (sets_map each fields) (sets_unknownEntry writer unknown)
  | _ => exact ⟨[], rfl, .nil⟩

end Items

end RustWriter

/-- A text stands somewhere in another one. -/
def StandsIn (text whole : String) : Prop := text.toList <:+: whole.toList

section Parts

variable {item text : String} {items : List String}

/-- What stands in a part stands in the whole. -/
theorem StandsIn.trans {whole : String} (inside : StandsIn item text)
    (outside : StandsIn text whole) : StandsIn item whole :=
  List.IsInfix.trans inside outside

/-- A text stands in front of what is appended to it. -/
theorem standsIn_append_left (text behind : String) : StandsIn text (text ++ behind) := by
  rw [StandsIn, String.toList_append]
  exact (List.prefix_append _ _).isInfix

/-- A text stands behind what it is appended to. -/
theorem standsIn_append_right (front text : String) : StandsIn text (front ++ text) := by
  rw [StandsIn, String.toList_append]
  exact (List.suffix_append _ _).isInfix

/-- An item stands on its lines. -/
theorem infix_lines (listed : item ∈ items) : item.toList <:+: lines items := by
  have line : item.toList ++ [',', '\n'] <:+: lines items :=
    List.infix_of_mem_flatten (List.mem_map_of_mem (f := fun entry => entry.toList ++ [',', '\n'])
      listed)
  exact (List.prefix_append _ _).isInfix.trans line

/-- An item stands in its block. -/
theorem standsIn_block (listed : item ∈ items) (opener closer : String) :
    StandsIn item (block opener items closer) := by
  have nonempty : ¬ items.isEmpty = true := fun empty =>
    List.ne_nil_of_mem listed (List.isEmpty_iff.mp empty)
  have inside : item.toList <:+: '\n' :: lines items ++ closer.toList :=
    ((infix_lines listed).trans (List.suffix_cons _ _).isInfix).trans
      (List.prefix_append _ _).isInfix
  rw [StandsIn, toList_block, content, if_neg nonempty]
  exact inside.trans (List.suffix_append _ _).isInfix

/-- An item stands in its table. -/
theorem RustWriter.standsIn_table (listed : item ∈ items) (name : String) :
    StandsIn item (RustWriter.table name items) := by
  rw [StandsIn, RustWriter.toList_table]
  exact ((infix_lines listed).trans (List.prefix_append _ _).isInfix).trans
    (List.suffix_append _ _).isInfix

/-- What is optional stands in the option. -/
theorem RustWriter.standsIn_optional (nullable : Bool) (text : String) :
    StandsIn text (RustWriter.optional nullable text) := by
  cases nullable with
  | false => exact List.infix_refl _
  | true =>
    exact (standsIn_append_right "Some(" text).trans (standsIn_append_left _ ")")

/-- What is boxed stands in the box. -/
theorem RustWriter.standsIn_boxed (nullable : Bool) (text : String) :
    StandsIn text (RustWriter.boxed nullable text) := by
  cases nullable with
  | false => exact List.infix_refl _
  | true =>
    exact (standsIn_append_right "Some(Box::new(" text).trans (standsIn_append_left _ "))")

/-- The items of a list stand in it. -/
theorem RustWriter.standsIn_list (listed : item ∈ items) (type : TypeReference) :
    StandsIn item (RustWriter.list type items) := by
  unfold RustWriter.list
  split
  · exact standsIn_block listed "[" "]"
  · exact (standsIn_block listed "vec![" "]").trans (RustWriter.standsIn_optional _ _)
  · exact standsIn_block listed "vec![" "]"

/-- The text of a part of a Go literal stands in the text of the literal. -/
theorem GoWriter.standsIn_of_within (writer : GoWriter) {part whole : Literal}
    (inside : part.Within whole) : StandsIn (writer.expression part) (writer.expression whole) := by
  induction inside with
  | whole => exact List.infix_refl _
  | element listed _ inductionHypothesis =>
    rw [GoWriter.expression_list]
    exact inductionHypothesis.trans (standsIn_block (List.mem_map_of_mem listed) _ _)
  | @structField _ _ field _ listed _ inductionHypothesis =>
    have entry : StandsIn (writer.expression field.2) (writer.entry field) :=
      standsIn_append_right _ _
    rw [GoWriter.expression_struct]
    exact (inductionHypothesis.trans entry).trans (standsIn_block (List.mem_map_of_mem listed) _ _)
  | @unionField value _ _ field _ _ inductionHypothesis =>
    have entry : StandsIn (writer.expression value) (writer.entry (field, value)) :=
      standsIn_append_right _ _
    rw [GoWriter.expression_union]
    exact (inductionHypothesis.trans entry).trans
      (standsIn_block (List.mem_cons_of_mem _ (List.mem_singleton_self _)) _ _)
  | @tableField _ _ field fields unknown listed _ inductionHypothesis =>
    have entry : StandsIn (writer.expression field.2) (writer.entry field) :=
      standsIn_append_right _ _
    have written : writer.entry field ∈
        fields.flatMap fun field => tableEntries (field.1, writer.expression field.2) :=
      List.mem_flatMap.mpr ⟨field, listed, List.mem_cons_self⟩
    rw [GoWriter.expression_table]
    exact (inductionHypothesis.trans entry).trans
      (standsIn_block (List.mem_append_left _ written) _ _)

/-- The text of a part of a Rust literal stands in the text of the literal. -/
theorem RustWriter.standsIn_of_within (writer : RustWriter) {part whole : Literal}
    (inside : part.Within whole) : StandsIn (writer.expression part) (writer.expression whole) := by
  induction inside with
  | whole => exact List.infix_refl _
  | element listed _ inductionHypothesis =>
    rw [RustWriter.expression, RustWriter.expressions_eq_map]
    exact inductionHypothesis.trans (RustWriter.standsIn_list (List.mem_map_of_mem listed) _)
  | @structField _ _ field _ listed _ inductionHypothesis =>
    have entry : StandsIn (writer.expression field.2) (writer.entry field) :=
      standsIn_append_right _ _
    rw [RustWriter.expression_struct]
    exact (inductionHypothesis.trans entry).trans
      ((standsIn_block (List.mem_map_of_mem listed) _ _).trans (RustWriter.standsIn_boxed _ _))
  | @unionField value _ _ field _ _ inductionHypothesis =>
    have call : StandsIn (writer.expression value) (writer.variant (field, value)) :=
      (standsIn_append_right _ _).trans (standsIn_append_left _ _)
    rw [RustWriter.expression_union]
    exact (inductionHypothesis.trans call).trans
      ((standsIn_append_right _ _).trans (RustWriter.standsIn_boxed _ _))
  | @tableField _ _ field fields unknown listed _ inductionHypothesis =>
    have entry : StandsIn (writer.expression field.2) (writer.someEntry field) :=
      ((standsIn_append_right "Some(" _).trans (standsIn_append_left _ ")")).trans
        (standsIn_append_right _ _)
    have written : writer.someEntry field ∈ fields.map writer.someEntry :=
      List.mem_map_of_mem listed
    rw [RustWriter.expression_table]
    exact (inductionHypothesis.trans entry).trans
      ((RustWriter.standsIn_table (List.mem_append_left _ written) _).trans
        (RustWriter.standsIn_boxed _ _))

end Parts

/-- The names of the members that a literal sets, as a target writes them. -/
def memberNames : Target → Literal → List String
  | .go => GoWriter.memberNames
  | .rust => RustWriter.memberNames

/-- A record around its items, as a writer writes it. -/
def Writer.framed : Writer → Literal → List String → String
  | .go writer => writer.framed
  | .rust writer => writer.framed

/-- The text of a whole literal has a part in it that is written item by item, with an item for
each member that the part sets. -/
structure Writer.Itemizes (writer : Writer) (whole part : Literal) : Prop where
  stands : StandsIn (writer.expression part) (writer.expression whole)
  itemized : ∃ items, writer.expression part = writer.framed part items ∧
    List.Forall₂ Sets (memberNames writer.target part) items

/-- All parts of a literal are in its text, item by item. -/
theorem Writer.itemizes_of_within (writer : Writer) {part whole : Literal}
    (inside : part.Within whole) : writer.Itemizes whole part := by
  cases writer with
  | go writer => exact ⟨writer.standsIn_of_within inside, writer.exists_items part⟩
  | rust writer => exact ⟨writer.standsIn_of_within inside, writer.exists_items part⟩

end FixtureLiterals
