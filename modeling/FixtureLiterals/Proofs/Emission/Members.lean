import FixtureLiterals.Proofs.Emission.Absence
import FixtureLiterals.Proofs.Emission.Items
import FixtureLiterals.Proofs.Emission.Translation

/-!
# The names of members

Fitting looks at the names of types, and a name of a type that would vanish in writing is
refused. It does not look at the names of fields. So the names that are written for members are
no reserved words, for what the casings and the escape make of any name whatsoever, but there
may be nothing of them: a casing leaves nothing of a field whose name has separators only. The
members of an accepted value have names exactly if no record sets such a field.
-/

namespace FixtureLiterals

open Emission Text

/-- The declared fields that a record sets, in order. -/
def Literal.fieldNames : Literal → List String
  | .struct _ _ fields | .table _ _ fields _ => fields.map Prod.fst
  | .union _ _ field _ _ => [field]
  | _ => []

/-- The words that are no identifiers of a target. -/
def Target.reserved : Target → List String
  | .go => goReserved
  | .rust => rustReserved

section Words

/-- Whether a text starts with a lower-case letter. -/
def startsLower (text : String) : Bool := text.toList.head?.any Char.isLower

/-- A name in upper camel case does not start with a lower-case letter. -/
theorem startsLower_upperCamel (text : String) :
    startsLower (Casing.upperCamel.apply text) = false := by
  rw [startsLower, Casing.apply, String.toList_ofList, upperCamel]
  cases split : words text.toList with
  | nil => rfl
  | cons first others =>
    obtain ⟨nonempty, -⟩ := undivided_of_mem_words (split ▸ List.mem_cons_self)
    cases first with
    | nil => exact absurd rfl nonempty
    | cons letter letters => exact Char.isLower_toUpper_eq_false letter

/-- Where neither of two texts starts with a lower-case letter, nor do the two together. -/
theorem startsLower_append {text : String} (behind : String) (front : startsLower text = false)
    (back : startsLower behind = false) : startsLower (text ++ behind) = false := by
  rw [startsLower] at front back ⊢
  rw [String.toList_append]
  cases split : text.toList with
  | nil => exact back
  | cons first others =>
    rw [split] at front
    exact front

end Words

namespace GoWriter

variable {literal : Literal}

/-- Members are named for a declared field, or they are those that all unions and tables have. -/
theorem mem_memberNames_cases {name : String} (listed : name ∈ memberNames literal) :
    (∃ field ∈ literal.fieldNames, name = fieldName field ∨ name = fieldName field ++ "Present") ∨
      (∃ type, name = unionTagField type) ∨ name = "I_unknownData" := by
  cases literal with
  | struct _ _ fields =>
    obtain ⟨field, found, rfl⟩ := List.mem_map.mp listed
    exact .inl ⟨field.1, List.mem_map_of_mem found, .inl rfl⟩
  | union type _ field _ _ =>
    rcases List.mem_cons.mp listed with rfl | last
    · exact .inr (.inl ⟨type, rfl⟩)
    · exact .inl ⟨field, List.mem_singleton_self _, .inl (List.mem_singleton.mp last)⟩
  | unknownUnion type _ _ _ =>
    rcases List.mem_cons.mp listed with rfl | last
    · exact .inr (.inl ⟨type, rfl⟩)
    · exact .inr (.inr (List.mem_singleton.mp last))
  | table _ _ fields unknown =>
    rcases List.mem_append.mp listed with front | last
    · obtain ⟨field, found, inside⟩ := List.mem_flatMap.mp front
      refine .inl ⟨field.1, List.mem_map_of_mem found, ?_⟩
      exact (List.mem_cons.mp inside).imp_right List.mem_singleton.mp
    · split at last
      · exact nomatch last
      · exact .inr (.inr (List.mem_singleton.mp last))
  | _ => exact nomatch listed

/-- Each field that is set is written. -/
theorem fieldName_mem_memberNames {field : String} (listed : field ∈ literal.fieldNames) :
    fieldName field ∈ memberNames literal := by
  cases literal with
  | struct _ _ fields =>
    obtain ⟨entry, found, rfl⟩ := List.mem_map.mp listed
    exact List.mem_map_of_mem found
  | union _ _ member _ _ =>
    rw [List.mem_singleton.mp listed]
    exact List.mem_cons_of_mem _ (List.mem_singleton_self _)
  | table _ _ fields _ =>
    obtain ⟨entry, found, rfl⟩ := List.mem_map.mp listed
    exact List.mem_append_left _ (List.mem_flatMap.mpr ⟨entry, found, List.mem_cons_self⟩)
  | _ => exact nomatch listed

/-- No member starts with a lower-case letter, as all fields are exported. -/
theorem startsLower_of_mem_memberNames {name : String} (listed : name ∈ memberNames literal) :
    startsLower name = false := by
  rcases mem_memberNames_cases listed with ⟨field, -, rfl | rfl⟩ | ⟨type, rfl⟩ | rfl
  · exact startsLower_upperCamel field
  · exact startsLower_append "Present" (startsLower_upperCamel field) (by decide)
  · rw [unionTagField, String.append_assoc, startsLower, String.toList_append]
    rfl
  · decide

/-- No member is a reserved word, as all reserved words start with a lower-case letter. -/
theorem not_mem_reserved {name : String} (listed : name ∈ memberNames literal) :
    name ∉ goReserved := by
  intro collides
  -- Go has no escape for members: it is the casing alone that keeps them clear of the words.
  have lower : ∀ word ∈ goReserved, startsLower word = true := by decide
  exact ne_true_of_eq_false (startsLower_of_mem_memberNames listed) (lower name collides)

/-- There is nothing of a member's name exactly if it stands for a field of separators. -/
theorem empty_mem_memberNames_iff : "" ∈ memberNames literal ↔
    ∃ field ∈ literal.fieldNames, ∀ character ∈ field.toList, isSeparator character = true := by
  constructor
  · intro empty
    rcases mem_memberNames_cases empty with ⟨field, listed, nothing | flag⟩ | ⟨type, tag⟩ | unknown
    · exact ⟨field, listed, (apply_eq_empty_iff .upperCamel field).mp nothing.symm⟩
    · exact absurd flag (by simp)
    · exact absurd tag (by simp [unionTagField])
    · exact absurd unknown (by decide)
  · rintro ⟨field, listed, separators⟩
    rw [← (apply_eq_empty_iff .upperCamel field).mpr separators]
    exact fieldName_mem_memberNames listed

end GoWriter

namespace RustWriter

variable {literal : Literal}

/-- Members are named for a declared field, or they are what all tables have. -/
theorem mem_memberNames_cases {name : String} (listed : name ∈ memberNames literal) :
    (∃ field ∈ literal.fieldNames, ∃ casing : Casing,
      name = avoidReserved rustReserved (casing.apply field)) ∨ name = "unknown_data" := by
  cases literal with
  | struct _ _ fields =>
    obtain ⟨field, found, rfl⟩ := List.mem_map.mp listed
    exact .inl ⟨field.1, List.mem_map_of_mem found, .snake, rfl⟩
  | union _ _ field _ _ =>
    exact .inl ⟨field, List.mem_singleton_self _, .upperCamel, List.mem_singleton.mp listed⟩
  | table _ _ fields unknown =>
    rcases List.mem_append.mp listed with front | last
    · obtain ⟨field, found, rfl⟩ := List.mem_map.mp front
      exact .inl ⟨field.1, List.mem_map_of_mem found, .snake, rfl⟩
    · split at last
      · exact nomatch last
      · exact .inr (List.mem_singleton.mp last)
  | _ => exact nomatch listed

/-- Each field that is set is written in one of the casings. -/
theorem exists_mem_memberNames {field : String} (listed : field ∈ literal.fieldNames) :
    ∃ casing : Casing, avoidReserved rustReserved (casing.apply field) ∈ memberNames literal := by
  cases literal with
  | struct _ _ fields =>
    obtain ⟨entry, found, rfl⟩ := List.mem_map.mp listed
    have written := List.mem_map_of_mem (f := fun entry => fieldName entry.1) found
    exact ⟨.snake, written⟩
  | union _ _ member _ _ =>
    rw [List.mem_singleton.mp listed]
    exact ⟨.upperCamel, List.mem_singleton_self _⟩
  | table _ _ fields _ =>
    obtain ⟨entry, found, rfl⟩ := List.mem_map.mp listed
    have written := List.mem_map_of_mem (f := fun entry => fieldName entry.1) found
    exact ⟨.snake, List.mem_append_left _ written⟩
  | _ => exact nomatch listed

/-- No member is a reserved word, as the names of fields are kept clear of them. -/
theorem not_mem_reserved {name : String} (listed : name ∈ memberNames literal) :
    name ∉ rustReserved := by
  rcases mem_memberNames_cases listed with ⟨field, -, casing, rfl⟩ | rfl
  · exact avoidReserved_not_mem (by decide) _
  · decide

/-- There is nothing of a member's name exactly if it stands for a field of separators. -/
theorem empty_mem_memberNames_iff : "" ∈ memberNames literal ↔
    ∃ field ∈ literal.fieldNames, ∀ character ∈ field.toList, isSeparator character = true := by
  constructor
  · intro empty
    rcases mem_memberNames_cases empty with ⟨field, listed, casing, nothing⟩ | unknown
    · refine ⟨field, listed, (apply_eq_empty_iff casing field).mp ?_⟩
      exact eq_empty_of_avoidReserved nothing.symm
    · exact absurd unknown (by decide)
  · rintro ⟨field, listed, separators⟩
    obtain ⟨casing, written⟩ := exists_mem_memberNames listed
    rwa [(apply_eq_empty_iff casing field).mpr separators] at written

end RustWriter

section Usable

variable {target : Target} {literal : Literal}

/-- No member of a literal is a reserved word of the target. -/
theorem not_mem_reserved_of_mem_memberNames {name : String}
    (listed : name ∈ memberNames target literal) : name ∉ target.reserved := by
  cases target with
  | go => exact GoWriter.not_mem_reserved listed
  | rust => exact RustWriter.not_mem_reserved listed

/-- All members of a literal have names exactly if each field that it sets has a character that
separates no words. -/
theorem forall_memberNames_ne_empty_iff : (∀ name ∈ memberNames target literal, name ≠ "") ↔
    ∀ field ∈ literal.fieldNames, ∃ character ∈ field.toList, isSeparator character = false := by
  have empty : "" ∈ memberNames target literal ↔ ∃ field ∈ literal.fieldNames,
      ∀ character ∈ field.toList, isSeparator character = true := by
    cases target with
    | go => exact GoWriter.empty_mem_memberNames_iff
    | rust => exact RustWriter.empty_mem_memberNames_iff
  rw [List.forall_mem_ne', empty]
  push Not
  simp only [ne_eq, Bool.not_eq_true]

end Usable

/-- What is written for an accepted value has an item for each member that its records set. None
of the members has a reserved word for its name, and all of them have names exactly if no record
sets a field whose own name consists of separators. -/
theorem Writer.member_names_usable_iff (writer : Writer) {handles : HandleTable}
    {declaration : Declaration} {value : Value} {literal : Literal}
    (fits : writer.fit handles declaration value = .ok literal) :
    writer.encode handles declaration value = .ok (writer.expression literal) ∧
      (∀ part : Literal, part.Within literal → writer.Itemizes literal part ∧
        ∀ name ∈ memberNames writer.target part, name ∉ writer.target.reserved) ∧
      ((∀ part : Literal, part.Within literal →
          ∀ name ∈ memberNames writer.target part, name ≠ "") ↔
        ∀ part : Literal, part.Within literal → ∀ field ∈ part.fieldNames,
          ∃ character ∈ field.toList, isSeparator character = false) := by
  refine ⟨(Writer.encode_eq_ok_iff ..).mpr ⟨literal, fits, rfl⟩, ?_, ?_⟩
  · intro part inside
    exact ⟨writer.itemizes_of_within inside, fun name => not_mem_reserved_of_mem_memberNames⟩
  · exact forall₂_congr fun part _ => forall_memberNames_ne_empty_iff

/-- In Rust, a field that is named like a reserved word is written with an underscore. -/
theorem Writer.member_names_usable_iff_type :
    let writer : Writer := .standard .rust
    let declaration : Declaration := .record ⟨"a.lib/kind", .table, false, .value, .flexible⟩
      [⟨"type", 1, .primitive .bool⟩]
    let value : Value := .record [Value.named "type" (.bool true)]
    let literal : Literal := .table ⟨["a.lib"], "kind"⟩ false [("type", .bool true)] []
    writer.fit [] declaration value = .ok literal ∧
      memberNames .rust literal = ["type_"] ∧
      writer.encode [] declaration value = .ok (writer.expression literal) ∧
      (∀ part : Literal, part.Within literal → writer.Itemizes literal part ∧
        ∀ name ∈ memberNames .rust part, name ∉ rustReserved) ∧
      ((∀ part : Literal, part.Within literal → ∀ name ∈ memberNames .rust part, name ≠ "") ↔
        ∀ part : Literal, part.Within literal → ∀ field ∈ part.fieldNames,
          ∃ character ∈ field.toList, isSeparator character = false) := by
  intro writer declaration value literal
  have fits : writer.fit [] declaration value = .ok literal := rfl
  exact ⟨fits, by decide, writer.member_names_usable_iff fits⟩

/-- A field with the name of an underscore is accepted, and written without a name. -/
theorem Writer.encode_underscore :
    let declaration : Declaration := .record ⟨"a.lib/blank", .struct, false, .value, .flexible⟩
      [⟨"_", 0, .primitive .bool⟩]
    let value : Value := .record [Value.named "_" (.bool true)]
    let literal : Literal := .struct ⟨["a.lib"], "blank"⟩ false [("_", .bool true)]
    ((Writer.standard .go).fit [] declaration value = .ok literal ∧
      (Writer.standard .go).encode [] declaration value = .ok "a_lib.Blank\x7b\n: true,\n\x7d" ∧
      memberNames .go literal = [""]) ∧
    ((Writer.standard .rust).fit [] declaration value = .ok literal ∧
      (Writer.standard .rust).encode [] declaration value =
        .ok "a_lib::Blank \x7b\n: true,\n\x7d" ∧
      memberNames .rust literal = [""]) :=
  ⟨⟨rfl, rfl, by decide⟩, rfl, rfl, by decide⟩

end FixtureLiterals
