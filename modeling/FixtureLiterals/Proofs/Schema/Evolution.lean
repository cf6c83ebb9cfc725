import FixtureLiterals.Literal.Fitting
import FixtureLiterals.Proofs.Fitting.Fields
import Mathlib.Logic.Relation

/-!
# How a schema evolves

A schema grows while values that were written for it stay as they are. Unions and tables
get new members, strict records become flexible, value types become resource types, and the
rights that a handle asks for change. Each of these is one change at one place of a
declaration, however deep, and a schema evolves by any number of them.

A new member must not take the name of another one. Its ordinal is restricted by the
values that are to be kept only: it must not be one that they use as unknown to the schema.

After a change a record still has all the members that it had, each in its order and with its
ordinal, among those that were added. That is all that is needed of the lists of members.
-/

namespace FixtureLiterals

namespace Value

mutual

/-- The ordinals that stand as unknown ones anywhere in a value. -/
def unknownOrdinals : Value → List UInt64
  | .record fields => fieldOrdinals fields
  | .list items => itemOrdinals items
  | _ => []

/-- The unknown ordinals in the items of a list. -/
def itemOrdinals : List Value → List UInt64
  | [] => []
  | item :: items => unknownOrdinals item ++ itemOrdinals items

/-- The unknown ordinals among the keys of a record, and in the values of its fields. -/
def fieldOrdinals : List (Field Value) → List UInt64
  | [] => []
  | ⟨.declared _, value⟩ :: fields => unknownOrdinals value ++ fieldOrdinals fields
  | ⟨.unknown ordinal, value⟩ :: fields =>
    ordinal :: (unknownOrdinals value ++ fieldOrdinals fields)

end

/-- An ordinal in an item of a list is in the list. -/
theorem unknownOrdinals_of_item {items : List Value} {item : Value} (listed : item ∈ items) :
    item.unknownOrdinals ⊆ (Value.list items).unknownOrdinals := by
  rw [unknownOrdinals]
  induction items with
  | nil => exact nomatch listed
  | cons first items inductionHypothesis =>
    rw [itemOrdinals]
    rcases List.mem_cons.mp listed with rfl | later
    · exact List.subset_append_left _ _
    · exact List.subset_append_of_subset_right _ (inductionHypothesis later)

/-- An ordinal in the value of a field is in the record. -/
theorem unknownOrdinals_of_field {fields : List (Field Value)} {field : Field Value}
    (listed : field ∈ fields) :
    field.value.unknownOrdinals ⊆ (Value.record fields).unknownOrdinals := by
  rw [unknownOrdinals]
  induction fields with
  | nil => exact nomatch listed
  | cons first fields inductionHypothesis =>
    obtain ⟨key, value⟩ := first
    have here : value.unknownOrdinals ++ fieldOrdinals fields ⊆
        fieldOrdinals (⟨key, value⟩ :: fields) := by
      cases key with
      | declared name => exact List.Subset.refl _
      | unknown ordinal => exact List.subset_cons_self _ _
    rcases List.mem_cons.mp listed with rfl | later
    · exact List.Subset.trans (List.subset_append_left _ _) here
    · exact List.Subset.trans (List.subset_append_of_subset_right _ (inductionHypothesis later)) here

/-- An ordinal that is the key of a field is in the record. -/
theorem mem_unknownOrdinals_of_key {fields : List (Field Value)} {ordinal : UInt64} {value : Value}
    (listed : ⟨.unknown ordinal, value⟩ ∈ fields) :
    ordinal ∈ (Value.record fields).unknownOrdinals := by
  rw [unknownOrdinals]
  induction fields with
  | nil => exact nomatch listed
  | cons first fields inductionHypothesis =>
    obtain ⟨key, content⟩ := first
    rcases List.mem_cons.mp listed with same | later
    · obtain ⟨rfl, rfl⟩ := Field.mk.inj same
      exact List.mem_cons_self
    · cases key with
      | declared name => exact List.mem_append_right _ (inductionHypothesis later)
      | unknown other =>
        exact List.mem_cons_of_mem _ (List.mem_append_right _ (inductionHypothesis later))

end Value

namespace Declaration

/-- One change of a declaration, at itself or at one place in it. The ordinal of a new member
has to be a fresh one. -/
inductive Change (Fresh : UInt64 → Prop) : Declaration → Declaration → Prop
  /-- A union or a table gets a member of a new name, at any position. -/
  | insert {header : RecordHeader} {before after : List (Member Declaration)}
      {member : Member Declaration} (kind : header.kind ≠ .struct)
      (name : ∀ other ∈ before ++ after, other.name ≠ member.name) (ordinal : Fresh member.ordinal) :
      Change Fresh (.record header (before ++ after)) (.record header (before ++ member :: after))
  | flexible {header : RecordHeader} {members : List (Member Declaration)} :
      Change Fresh (.record header members) (.record { header with strictness := .flexible } members)
  | resource {header : RecordHeader} {members : List (Member Declaration)} :
      Change Fresh (.record header members)
        (.record { header with resourceness := .resource } members)
  | rights {subtype : HandleSubtype} {rights other : Rights} {nullable : Bool} :
      Change Fresh (.handle subtype rights nullable) (.handle subtype other nullable)
  | inArray {element changed : Declaration} {size : UInt64} (inside : Change Fresh element changed) :
      Change Fresh (.array element size) (.array changed size)
  | inVector {element changed : Declaration} {nullable : Bool}
      (inside : Change Fresh element changed) :
      Change Fresh (.vector element nullable) (.vector changed nullable)
  | inMember {header : RecordHeader} {before after : List (Member Declaration)} {name : String}
      {ordinal : UInt64} {content changed : Declaration} (inside : Change Fresh content changed) :
      Change Fresh (.record header (before ++ ⟨name, ordinal, content⟩ :: after))
        (.record header (before ++ ⟨name, ordinal, changed⟩ :: after))

/-- A declaration evolves to another one by any number of changes. -/
abbrev Evolves (Fresh : UInt64 → Prop) : Declaration → Declaration → Prop :=
  Relation.ReflTransGen (Change Fresh)

/-- No change affects how the type of a list is spelled: records are spelled by their names, and
handles by their subtypes. -/
theorem Change.ofDeclaration {Fresh : UInt64 → Prop} {declaration changed : Declaration}
    (change : Change Fresh declaration changed) (environment : Environment) :
    TypeReference.ofDeclaration environment changed =
      TypeReference.ofDeclaration environment declaration := by
  induction change with
  | insert | flexible | resource | rights | inMember => rfl
  | inArray _ inductionHypothesis | inVector _ inductionHypothesis =>
    rw [TypeReference.ofDeclaration, TypeReference.ofDeclaration, inductionHypothesis]

end Declaration

namespace RecordHeader

/-- What a record says of itself may grow: it stays what it is, and allows what it allowed. -/
structure Grows (header grown : RecordHeader) : Prop where
  kind : grown.kind = header.kind
  name : grown.name = header.name
  nullable : grown.nullable = header.nullable
  flexible : header.strictness = .flexible → grown.strictness = .flexible
  resource : header.resourceness = .resource → grown.resourceness = .resource

/-- A record that is left as it is grows by nothing. -/
theorem Grows.refl (header : RecordHeader) : header.Grows header :=
  ⟨rfl, rfl, rfl, id, id⟩

/-- A record that is open to unknown members stays open. -/
theorem Grows.isExtensible {header grown : RecordHeader} (grows : header.Grows grown)
    (extensible : header.isExtensible = true) : grown.isExtensible = true := by
  rw [RecordHeader.isExtensible] at extensible ⊢
  rw [grows.kind]
  cases kind : header.kind with
  | struct =>
    rw [kind] at extensible
    exact extensible
  | union =>
    rw [kind] at extensible
    simpa using grows.flexible (by simpa using extensible)
  | table => rfl

/-- A record that may carry handles still may. -/
theorem Grows.isResource {header grown : RecordHeader} (grows : header.Grows grown)
    (resource : header.isResource = true) : grown.isResource = true := by
  rw [RecordHeader.isResource, beq_iff_eq] at resource ⊢
  exact grows.resource resource

end RecordHeader

namespace Member

/-- A list of members contains others in their order, with contents that agree, and what is
added between them. -/
inductive Extends {α β : Type} (Agree : α → β → Prop) (Added : Member β → Prop) :
    List (Member α) → List (Member β) → Prop
  | nil : Extends Agree Added [] []
  | keep {name : String} {ordinal : UInt64} {content : α} {other : β} {members : List (Member α)}
      {others : List (Member β)} (agree : Agree content other)
      (rest : Extends Agree Added members others) :
      Extends Agree Added (⟨name, ordinal, content⟩ :: members) (⟨name, ordinal, other⟩ :: others)
  | add {member : Member β} {members : List (Member α)} {others : List (Member β)}
      (added : Added member) (rest : Extends Agree Added members others) :
      Extends Agree Added members (member :: others)

namespace Extends

variable {α β : Type} {Agree : α → β → Prop} {Added : Member β → Prop}
  {members : List (Member α)} {others : List (Member β)}

/-- Every list of members contains itself, if contents agree with themselves. -/
theorem refl {Agree : α → α → Prop} {Added : Member α → Prop} (agree : ∀ content, Agree content content)
    (members : List (Member α)) : Extends Agree Added members members := by
  induction members with
  | nil => exact .nil
  | cons member members inductionHypothesis =>
    obtain ⟨name, ordinal, content⟩ := member
    exact .keep (agree content) inductionHypothesis

/-- What stands in front of two lists may stand in front of both. -/
theorem append_left {Agree : α → α → Prop} {Added : Member α → Prop}
    (agree : ∀ content, Agree content content) (front : List (Member α))
    {members others : List (Member α)} (rest : Extends Agree Added members others) :
    Extends Agree Added (front ++ members) (front ++ others) := by
  induction front with
  | nil => exact rest
  | cons member front inductionHypothesis =>
    obtain ⟨name, ordinal, content⟩ := member
    exact .keep (agree content) inductionHypothesis

/-- Each member is kept with its name and ordinal. -/
theorem exists_kept (extension : Extends Agree Added members others) {member : Member α}
    (declared : member ∈ members) :
    ∃ other ∈ others, other.name = member.name ∧ other.ordinal = member.ordinal := by
  induction extension with
  | nil => exact nomatch declared
  | keep agree rest inductionHypothesis =>
    rcases List.mem_cons.mp declared with rfl | later
    · exact ⟨_, List.mem_cons_self, rfl, rfl⟩
    · obtain ⟨other, listed, same⟩ := inductionHypothesis later
      exact ⟨other, List.mem_cons_of_mem _ listed, same⟩
  | add added rest inductionHypothesis =>
    obtain ⟨other, listed, same⟩ := inductionHypothesis declared
    exact ⟨other, List.mem_cons_of_mem _ listed, same⟩

/-- Each member was kept with its ordinal, unless it was added. -/
theorem kept_or_added (extension : Extends Agree Added members others) {other : Member β}
    (listed : other ∈ others) :
    (∃ member ∈ members, member.ordinal = other.ordinal) ∨ Added other := by
  induction extension with
  | nil => exact nomatch listed
  | keep agree rest inductionHypothesis =>
    rcases List.mem_cons.mp listed with rfl | later
    · exact .inl ⟨_, List.mem_cons_self, rfl⟩
    · refine (inductionHypothesis later).imp_left ?_
      rintro ⟨member, declared, same⟩
      exact ⟨member, List.mem_cons_of_mem _ declared, same⟩
  | add added rest inductionHypothesis =>
    rcases List.mem_cons.mp listed with rfl | later
    · exact .inr added
    · exact inductionHypothesis later

/-- A name that no added member has finds the member that was kept. -/
theorem named? (extension : Extends Agree Added members others) {name : String}
    (unused : ∀ member, Added member → member.name ≠ name) {member : Member α}
    (found : Member.named? members name = some member) :
    ∃ other, Member.named? others name = some other ∧ other.name = member.name ∧
      other.ordinal = member.ordinal ∧ Agree member.content other.content := by
  induction extension with
  | nil => exact nomatch found
  | @keep key ordinal content other members others agree rest inductionHypothesis =>
    rw [Member.named?, List.find?_cons] at found ⊢
    by_cases same : key = name
    · simp only [same, beq_self_eq_true, Option.some.injEq] at found ⊢
      subst found
      exact ⟨_, rfl, rfl, rfl, agree⟩
    · simp only [beq_eq_false_iff_ne.mpr same] at found ⊢
      exact inductionHypothesis found
  | @add added members others new rest inductionHypothesis =>
    rw [Member.named?, List.find?_cons, beq_eq_false_iff_ne.mpr (unused added new)]
    exact inductionHypothesis found

/-- Where nothing can have been added, the lists correspond one by one. -/
theorem forall₂ (extension : Extends Agree Added members others) (none : ∀ member, ¬ Added member) :
    List.Forall₂ (fun member other => other.name = member.name ∧ Agree member.content other.content)
      members others := by
  induction extension with
  | nil => exact .nil
  | keep agree rest inductionHypothesis => exact .cons ⟨rfl, agree⟩ inductionHypothesis
  | add added rest inductionHypothesis => exact absurd added (none _)

/-- Where no added member is set, those present are the members kept, with their values. -/
theorem presentMembers (extension : Extends Agree Added members others)
    {known : List (String × Value)} (unset : ∀ member, Added member → known.lookup member.name = none) :
    List.Forall₂ (fun chosen other => other.1.name = chosen.1.name ∧ other.2 = chosen.2 ∧
        Agree chosen.1.content other.1.content)
      (Literal.presentMembers members known) (Literal.presentMembers others known) := by
  induction extension with
  | nil => exact .nil
  | @keep name ordinal content other members others agree rest inductionHypothesis =>
    simp only [Literal.presentMembers, List.filterMap_cons] at inductionHypothesis ⊢
    cases known.lookup name with
    | none => exact inductionHypothesis
    | some value =>
      cases null : value.isNull with
      | true => simpa [null] using inductionHypothesis
      | false => simpa [null] using ⟨agree, inductionHypothesis⟩
  | @add member members others added rest inductionHypothesis =>
    have skipped : Literal.presentMembers (member :: others) known =
        Literal.presentMembers others known := by
      simp [Literal.presentMembers, unset member added]
    rw [skipped]
    exact inductionHypothesis

end Extends

end Member

end FixtureLiterals
