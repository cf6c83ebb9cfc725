import FixtureLiterals.Proofs.Emission.GoParts
import FixtureLiterals.Proofs.Emission.Items
import FixtureLiterals.Proofs.Emission.RustParts
import FixtureLiterals.Proofs.Fixture.Cases

/-!
# Handle tables and dispositions in writing

A handle table and a list of dispositions are written entry by entry, and each entry reveals what
it was written from: handles and rights by decimals that something else follows, and subtypes by
constants or numbers of which each kernel object has its own. So no two tables, and no two lists of
dispositions, are written alike.

The entries of a Go table are announced by comments, and a reader goes by these. Nothing else in
the table has the mark that a comment has, so a comment with a position is in the table exactly if
there is a definition at that position, and this definition is what stands behind it.
-/

namespace FixtureLiterals

open Emission Text

attribute [ext] Rights HandleDefinition HandleDisposition

namespace Text

/-- Where the members of a vocabulary have values of their own, a value tells its member. -/
theorem Vocabulary.eq_of_nodup {α β : Type} [Vocabulary α] {value : α → β}
    (distinct : ((Vocabulary.all : List α).map value).Nodup) {first second : α}
    (same : value first = value second) : first = second :=
  List.inj_on_of_nodup_map distinct (Vocabulary.mem_all first) (Vocabulary.mem_all second) same

end Text

/-- Behind a decimal there is something else if a comma follows. -/
theorem leaves_isDigit_of_begins {rest : List Char} (begins : Begins [','] rest) :
    Leaves Char.isDigit rest :=
  leaves_of_ends (by decide) (by decide) (ends_of_begins_comma begins)

namespace GoWriter

/-- The comment that announces a definition. -/
def comment (position : Nat) : String := "// #" ++ decimal position ++ ":"

variable (writer : GoWriter)

/-- A definition without its comment. -/
def definitionText (definition : HandleDefinition) : String :=
  "\x7bsubtype: " ++ writer.kernelPackage ++ "." ++ (creatable? definition.subtype).getD "" ++
    ", rights: " ++ decimal definition.rights.bits.toNat ++ "\x7d"

/-- In a text, a definition is announced by its position if it stands behind the comment with that
position, and nothing else does. -/
structure Announces (text : String) (position : Nat) (definition : HandleDefinition) : Prop where
  created : (creatable? definition.subtype).isSome
  found : StandsIn (comment position ++ "\n" ++ writer.definitionText definition) text
  only : ∀ before after, text.toList = before ++ (comment position).toList ++ after →
    Begins ("\n" ++ writer.definitionText definition).toList after

section Definitions

/-- Definitions that are written can be created, and each one stands behind its comment. -/
theorem definitionLines_eq {position : Nat} {definitions : List HandleDefinition}
    {lines : List String} (written : writer.definitionLines position definitions = .ok lines) :
    (∀ definition ∈ definitions, (creatable? definition.subtype).isSome) ∧
      lines = (definitions.zipIdx position).map fun entry =>
        comment entry.2 ++ "\n" ++ writer.definitionText entry.1 := by
  induction definitions generalizing position lines with
  | nil =>
    obtain rfl := Except.ok.inj written
    exact ⟨nofun, rfl⟩
  | cons definition definitions inductionHypothesis =>
    rw [definitionLines] at written
    split at written
    case h_1 => exact nomatch written
    case h_2 objectType created =>
      rw [bind_eq_ok_iff] at written
      obtain ⟨others, rest, same⟩ := written
      obtain ⟨later, rfl⟩ := inductionHypothesis rest
      obtain rfl := (pure_eq_ok_iff ..).mp same
      refine ⟨List.forall_mem_cons.mpr ⟨by rw [created, Option.isSome_some], later⟩, ?_⟩
      rw [List.zipIdx_cons, List.map_cons]
      refine congrArg (· :: _) (String.toList_inj.mp ?_)
      simp [comment, definitionText, created]

/-- What is created is told by its name. -/
theorem reveals_creatable {first second : HandleSubtype} {left right : String}
    (created : creatable? first = some left) (available : creatable? second = some right) :
    Reveals Anything left.toList right.toList (first = second) := by
  have either {subtype : HandleSubtype} {name : String} (known : creatable? subtype = some name) :
      (subtype = .channel ∧ name = "ObjectTypeChannel") ∨
        (subtype = .event ∧ name = "ObjectTypeEvent") := by
    unfold creatable? at known
    split at known
    · exact .inl ⟨rfl, (Option.some.inj known).symm⟩
    · exact .inr ⟨rfl, (Option.some.inj known).symm⟩
    · exact nomatch known
  rcases either created with ⟨rfl, rfl⟩ | ⟨rfl, rfl⟩ <;>
    rcases either available with ⟨rfl, rfl⟩ | ⟨rfl, rfl⟩
  case inl.inl => exact .refl _ rfl
  case inl.inr => exact .of_apart (.of_differ (by decide))
  case inr.inl => exact .of_apart (.of_differ (by decide))
  case inr.inr => exact .refl _ rfl

/-- A definition that can be created is revealed. -/
theorem reveals_definitionText {first second : HandleDefinition}
    (created : (creatable? first.subtype).isSome) (available : (creatable? second.subtype).isSome) :
    Reveals Anything (writer.definitionText first).toList (writer.definitionText second).toList
      (first = second) := by
  obtain ⟨left, known⟩ := Option.isSome_iff_exists.mp created
  obtain ⟨right, listed⟩ := Option.isSome_iff_exists.mp available
  have rights : Reveals Anything
      (", rights: " ++ decimal first.rights.bits.toNat ++ "\x7d").toList
      (", rights: " ++ decimal second.rights.bits.toNat ++ "\x7d").toList
      (first.rights = second.rights) := by
    refine (((reveals_decimal _ _).opened _).ended _ fun rest => ?_).imp fun same => ?_
    · exact leaves_append [] rest (by decide)
    · exact Rights.ext (UInt32.toNat_inj.mp same)
  have both := (reveals_creatable known listed).append rights (fun _ _ => trivial)
    fun _ _ => trivial
  rw [← String.toList_append, ← String.toList_append] at both
  have whole := both.opened ("\x7bsubtype: " ++ writer.kernelPackage ++ ".")
  simp only [definitionText, known, listed, Option.getD_some, String.append_assoc] at whole ⊢
  exact whole.imp fun same => HandleDefinition.ext same.1 same.2

end Definitions

section Tables

variable {handles : HandleTable} {text : String}

/-- What stands behind the mark of a comment, up to the next comment. -/
def entryText (entry : HandleDefinition × Nat) : List Char :=
  (decimal entry.2 ++ ":\n" ++ GoWriter.standard.definitionText entry.1 ++ ",\n").toList

/-- The definitions of a table have no mark in them. -/
theorem not_mem_entryText (entry : HandleDefinition × Nat) : '#' ∉ entryText entry := by
  have digits (number : Nat) : '#' ∉ (decimal number).toList := by
    intro listed
    exact absurd (isDigit_of_mem_decimal listed) (by decide)
  have name : '#' ∉ ((creatable? entry.1.subtype).getD "").toList := by
    cases entry.1.subtype <;> decide
  have package : '#' ∉ GoWriter.standard.kernelPackage.toList := by decide
  simp [entryText, definitionText, digits, name, package]

/-- The line of a definition, with the mark of its comment. -/
theorem line_eq (entry : HandleDefinition × Nat) :
    (comment entry.2 ++ "\n" ++ GoWriter.standard.definitionText entry.1).toList ++ [',', '\n'] =
      "// ".toList ++ '#' :: entryText entry := by
  simp [comment, entryText]

/-- A table consists of the lines of its definitions, which can be created, and has no other
marks. -/
theorem exists_surroundings (written : GoWriter.standard.handleDefinitions handles = .ok text) :
    (∀ definition ∈ handles, (creatable? definition.subtype).isSome) ∧
      ∃ opening closing, '#' ∉ opening ∧ '#' ∉ closing ∧
        text.toList = opening ++
          (handles.zipIdx.flatMap (fun entry => "// ".toList ++ '#' :: entryText entry) ++
            closing) := by
  cases handles with
  | nil =>
    obtain rfl := Except.ok.inj written
    exact ⟨nofun, "\"\"".toList, [], by decide, by decide, rfl⟩
  | cons definition handles =>
    rw [handleDefinitions, if_neg (by simp), bind_eq_ok_iff] at written
    obtain ⟨items, defined, same⟩ := written
    obtain ⟨created, rfl⟩ := GoWriter.standard.definitionLines_eq defined
    obtain rfl := (pure_eq_ok_iff ..).mp same
    refine ⟨created, "[]handleDef\x7b\n".toList, "\x7d".toList, by decide, by decide, ?_⟩
    rw [composite, toList_block, content, if_neg (by simp), lines, List.flatMap_map]
    simp only [line_eq]
    rfl

/-- Behind a comment with a position stands the definition at that position. -/
theorem exists_definition_behind (written : GoWriter.standard.handleDefinitions handles = .ok text)
    {position : Nat} {before after : List Char}
    (parts : text.toList = before ++ (comment position).toList ++ after) :
    ∃ definition, handles[position]? = some definition ∧
      Begins ("\n" ++ GoWriter.standard.definitionText definition).toList after := by
  obtain ⟨created, opening, closing, opened, closed, spelled⟩ := exists_surroundings written
  have marked : opening ++ (handles.zipIdx.flatMap
      (fun entry => "// ".toList ++ '#' :: entryText entry) ++ closing) =
      (before ++ "// ".toList) ++ '#' :: ((decimal position).toList ++ (":".toList ++ after)) := by
    rw [← spelled, parts, comment]
    simp
  obtain ⟨⟨definition, index⟩, listed, tail, same⟩ := exists_item_behind_mark (by decide) closed
    (fun entry _ => not_mem_entryText entry) opened marked
  simp only [entryText, String.toList_append, List.append_assoc] at same
  obtain ⟨rfl, rest⟩ := reveals_decimal _ _ _ _ (leaves_append [] _ (by decide))
    (leaves_append ['\n'] _ (by decide)) same
  refine ⟨definition, List.mk_mem_zipIdx_iff_getElem?.mp listed, ",\n".toList ++ tail, ?_⟩
  rw [String.toList_append, List.append_assoc]
  exact (List.cons.inj rest).2

/-- A definition stands behind a comment with its position. -/
theorem standsIn_of_getElem? (written : GoWriter.standard.handleDefinitions handles = .ok text)
    {position : Nat} {definition : HandleDefinition}
    (found : handles[position]? = some definition) :
    StandsIn (comment position ++ "\n" ++ GoWriter.standard.definitionText definition) text := by
  obtain ⟨-, opening, closing, -, -, spelled⟩ := exists_surroundings written
  have inside : "// ".toList ++ '#' :: entryText (definition, position) <:+:
      handles.zipIdx.flatMap fun entry => "// ".toList ++ '#' :: entryText entry :=
    List.infix_of_mem_flatten (List.mem_map_of_mem (List.mk_mem_zipIdx_iff_getElem?.mpr found))
  rw [← line_eq] at inside
  rw [StandsIn, spelled]
  exact ((List.prefix_append _ _).isInfix.trans inside).trans
    ((List.prefix_append _ _).isInfix.trans (List.suffix_append _ _).isInfix)

/-- A comment is in a table exactly if there is a definition at its position. -/
theorem standsIn_comment_iff (written : GoWriter.standard.handleDefinitions handles = .ok text)
    (position : Nat) : StandsIn (comment position) text ↔ position < handles.length := by
  constructor
  · rintro ⟨before, after, parts⟩
    obtain ⟨definition, found, -⟩ := exists_definition_behind written parts.symm
    exact (List.getElem?_eq_some_iff.mp found).1
  · intro inside
    have stands := standsIn_of_getElem? written (List.getElem?_eq_getElem inside)
    exact ((standsIn_append_left _ _).trans (standsIn_append_left _ _)).trans stands

/-- The definition at a position is the one that the comment with this position announces. -/
theorem getElem?_eq_some_iff_announces
    (written : GoWriter.standard.handleDefinitions handles = .ok text)
    (position : Nat) (definition : HandleDefinition) :
    handles[position]? = some definition ↔
      GoWriter.standard.Announces text position definition := by
  have created := (exists_surroundings written).1
  constructor
  · intro found
    refine ⟨created definition (List.mem_of_getElem? found), standsIn_of_getElem? written found,
      fun before after parts => ?_⟩
    obtain ⟨behind, same, begins⟩ := exists_definition_behind written parts
    obtain rfl := Option.some.inj (found.symm.trans same)
    exact begins
  · rintro ⟨available, ⟨before, after, parts⟩, -⟩
    rw [String.append_assoc, String.toList_append, ← List.append_assoc, List.append_assoc _ _ after]
      at parts
    obtain ⟨behind, found, tail, same⟩ := exists_definition_behind written parts.symm
    have known := created behind (List.mem_of_getElem? found)
    obtain ⟨rfl, -⟩ := (reveals_definitionText GoWriter.standard available known).opened "\n" _ _
      trivial trivial same
    exact found

/-- No two tables are written alike. -/
theorem handleDefinitions_inj {others : HandleTable}
    (written : GoWriter.standard.handleDefinitions handles = .ok text)
    (again : GoWriter.standard.handleDefinitions others = .ok text) : handles = others := by
  refine List.ext_getElem? fun position => Option.ext fun definition => ?_
  rw [getElem?_eq_some_iff_announces written, getElem?_eq_some_iff_announces again]

end Tables

section Dispositions

/-- A disposition reveals its handle, its subtype and its rights. -/
theorem reveals_disposition (first second : HandleDisposition) :
    Reveals Anything (writer.disposition first).toList (writer.disposition second).toList
      (first = second) := by
  have numbered (label : String) (number other : UInt32) : Reveals (Begins [','])
      (label ++ decimal number.toNat).toList (label ++ decimal other.toNat).toList
      (number = other) :=
    (((reveals_decimal _ _).narrow fun _ => leaves_isDigit_of_begins).opened label).imp
      UInt32.toNat_inj.mp
  have handles : Reveals (Begins [',']) ("Handle: " ++ writer.handleAt first.handle).toList
      ("Handle: " ++ writer.handleAt second.handle).toList (first.handle = second.handle) :=
    ((reveals_handleAt writer _ _).narrow fun _ _ => trivial).opened _
  have distinct : ((Vocabulary.all : List HandleSubtype).map HandleSubtype.objectType).Nodup := by
    decide
  rw [disposition, disposition, composite, composite]
  refine (reveals_block_of_lines _ (.of_differ (by decide)) (reveals_lines_cons (.refl _ trivial)
    (reveals_lines_cons handles (reveals_lines_cons (numbered "Type: " _ _)
      (reveals_lines_cons (numbered "Rights: " _ _) (.refl _ trivial)))))).imp ?_
  rintro ⟨-, sameHandles, sameTypes, sameRights, -⟩
  exact HandleDisposition.ext sameHandles (Vocabulary.eq_of_nodup distinct sameTypes)
    (Rights.ext sameRights)

/-- No two lists of dispositions are written alike. -/
theorem dispositions_inj {first second : List HandleDisposition}
    (same : writer.dispositions first = writer.dispositions second) : first = second := by
  have typed : Apart "nil".toList
      ("[]" ++ writer.kernelPackage ++ ".HandleDisposition").toList := by
    simp only [String.toList_append, List.append_assoc]
    exact ((Apart.of_differ (by decide)).longer _).symm
  have opened (element : HandleDisposition) :
      Apart (writer.disposition element).toList "\x7d".toList := by
    rw [disposition, composite, toList_block]
    exact (Apart.of_differ (by decide)).longer _
  exact (reveals_unless_nil _ typed (reveals_disposition writer) opened first second).of_eq trivial
    same

end Dispositions

end GoWriter

namespace RustWriter

variable (writer : RustWriter)

/-- A subtype is told by the constant for its object type. -/
theorem reveals_objectType (first second : HandleSubtype) :
    Reveals (Begins [',']) (objectType first).toList (objectType second).toList
      (first = second) := by
  have distinct : ((Vocabulary.all : List HandleSubtype).map objectType).Nodup := by decide
  have within (subtype : HandleSubtype) :
      ∀ character ∈ (objectType subtype).toList, (character != ',') = true := by
    cases subtype <;> exact List.all_eq_true.mp (by decide)
  refine ((reveals_word (within first) (within second)).narrow ?_).imp fun same => ?_
  · rintro rest ⟨tail, rfl⟩
    exact leaves_append [] tail (by decide)
  · exact Vocabulary.eq_of_nodup distinct (String.toList_inj.mp same)

/-- A definition as it stands in a table. -/
def definitionText (definition : HandleDefinition) : String :=
  "HandleDef \x7b subtype: " ++ objectType definition.subtype ++ ", rights: " ++
    rights definition.rights ++ " \x7d"

/-- Each definition is written on its own. -/
theorem definitionLines_eq {position : Nat} {definitions : List HandleDefinition}
    {lines : List String} (written : definitionLines position definitions = .ok lines) :
    lines = definitions.map definitionText := by
  induction definitions generalizing position lines with
  | nil => exact (Except.ok.inj written).symm
  | cons definition definitions inductionHypothesis =>
    rw [definitionLines] at written
    split at written
    case isTrue =>
      rw [bind_eq_ok_iff] at written
      obtain ⟨others, rest, same⟩ := written
      obtain rfl := inductionHypothesis rest
      exact ((pure_eq_ok_iff ..).mp same).symm
    case isFalse => exact nomatch written

/-- A definition reveals its subtype and its rights. -/
theorem reveals_definitionText (first second : HandleDefinition) :
    Reveals Anything (definitionText first).toList (definitionText second).toList
      (first = second) := by
  have granted : Reveals Anything (", rights: " ++ rights first.rights).toList
      (", rights: " ++ rights second.rights).toList (first.rights = second.rights) :=
    (reveals_rights _ _).opened _
  have comma (rest : List Char) (granted : String) :
      Begins [','] ((", rights: " ++ granted).toList ++ rest) := by
    rw [String.toList_append, List.append_assoc]
    exact ⟨_, rfl⟩
  have both := (reveals_objectType first.subtype second.subtype).append granted
    (fun _ _ => comma _ _) fun _ _ => comma _ _
  rw [← String.toList_append, ← String.toList_append] at both
  have whole : Reveals Anything _ _ _ :=
    (both.opened "HandleDef \x7b subtype: ").ended " \x7d" fun _ => trivial
  unfold definitionText
  simp only [String.append_assoc] at whole ⊢
  exact whole.imp fun same => HandleDefinition.ext same.1 same.2

/-- No two tables are written alike. -/
theorem handleDefinitions_inj {handles others : HandleTable} {text : String}
    (written : handleDefinitions handles = .ok text)
    (again : handleDefinitions others = .ok text) : handles = others := by
  have spelled {table : HandleTable} (written : handleDefinitions table = .ok text) :
      text = block "&[" (table.map definitionText) "]" := by
    rw [handleDefinitions, bind_eq_ok_iff] at written
    obtain ⟨lines, defined, same⟩ := written
    rw [← definitionLines_eq defined]
    exact ((pure_eq_ok_iff ..).mp same).symm
  have apart (definition : HandleDefinition) :
      Apart (definitionText definition).toList "]".toList := by
    unfold definitionText
    simp only [String.toList_append, List.append_assoc]
    exact (Apart.of_differ (by decide)).longer _
  have reveals := reveals_block_eq reveals_definitionText "&[" (.of_differ (by decide)) apart
  exact (reveals handles others).of_eq trivial ((spelled written).symm.trans (spelled again))

/-- A disposition reveals its handle, its subtype and its rights. -/
theorem reveals_disposition (first second : HandleDisposition) :
    Reveals Anything (writer.disposition first).toList (writer.disposition second).toList
      (first = second) := by
  have handles : Reveals (Begins [','])
      ("handle_op: HandleOp::Move(" ++ writer.copyHandle first.handle ++ ")").toList
      ("handle_op: HandleOp::Move(" ++ writer.copyHandle second.handle ++ ")").toList
      (first.handle = second.handle) :=
    ((reveals_copyHandle writer _ _).opened _).ended _ fun _ => trivial
  have types := (reveals_objectType first.subtype second.subtype).opened "object_type: "
  have granted : Reveals (Begins [',']) ("rights: " ++ rights first.rights).toList
      ("rights: " ++ rights second.rights).toList (first.rights = second.rights) :=
    ((reveals_rights _ _).narrow fun _ _ => trivial).opened _
  rw [disposition, disposition]
  refine (reveals_block_of_lines _ (.of_differ (by decide)) (reveals_lines_cons handles
    (reveals_lines_cons types (reveals_lines_cons granted (.refl _ trivial))))).imp ?_
  rintro ⟨sameHandles, sameTypes, sameRights, -⟩
  exact HandleDisposition.ext sameHandles sameTypes sameRights

/-- No two lists of dispositions are written alike. -/
theorem dispositions_inj {first second : List HandleDisposition}
    (same : writer.dispositions first = writer.dispositions second) : first = second := by
  have apart (element : HandleDisposition) :
      Apart (writer.disposition element).toList "]".toList := by
    rw [disposition, toList_block]
    exact (Apart.of_differ (by decide)).longer _
  have reveals := reveals_block_eq (reveals_disposition writer) "vec![" (.of_differ (by decide))
    apart
  exact (reveals first second).of_eq trivial same

end RustWriter

namespace Writer

/-- Nothing is lost where handles are written. No two handle tables are written alike, nor are two
lists of dispositions, and in a Go table each comment with a position announces the definition at
that position. -/
theorem handle_collections_revealed :
    (∀ (target : Target) (first second : HandleTable) (text : String),
      (standard target).handleDefinitions first = .ok text →
        (standard target).handleDefinitions second = .ok text → first = second) ∧
    (∀ (target : Target) (first second : List HandleDisposition),
      (standard target).dispositions first = (standard target).dispositions second →
        first = second) ∧
    ∀ (handles : HandleTable) (text : String),
      (standard .go).handleDefinitions handles = .ok text → ∀ position,
        (StandsIn (GoWriter.comment position) text ↔ position < handles.length) ∧
          ∀ definition, handles[position]? = some definition ↔
            GoWriter.standard.Announces text position definition := by
  refine ⟨fun target first second text written again => ?_, fun target first second same => ?_,
    fun handles text written position => ⟨?_, fun definition => ?_⟩⟩
  · cases target with
    | go => exact GoWriter.handleDefinitions_inj written again
    | rust => exact RustWriter.handleDefinitions_inj written again
  · cases target with
    | go => exact GoWriter.dispositions_inj _ same
    | rust => exact RustWriter.dispositions_inj _ same
  · exact GoWriter.standsIn_comment_iff written position
  · exact GoWriter.getElem?_eq_some_iff_announces written position definition

/-- The comment with the number one announces the second of two definitions, which a shorter table
does not have, and dispositions of another subtype are written in another way. -/
theorem handle_collections_revealed_pair :
    let handles : HandleTable := [⟨.channel, ⟨6⟩⟩, ⟨.event, ⟨49155⟩⟩]
    let text := "[]handleDef\x7b\n// #0:\n\x7bsubtype: zx.ObjectTypeChannel, rights: 6\x7d,\n" ++
      "// #1:\n\x7bsubtype: zx.ObjectTypeEvent, rights: 49155\x7d,\n\x7d"
    (standard .go).handleDefinitions handles = .ok text ∧
      GoWriter.standard.Announces text 1 ⟨.event, ⟨49155⟩⟩ ∧
      (standard .go).handleDefinitions [⟨.channel, ⟨6⟩⟩] ≠ .ok text ∧
      (standard .rust).dispositions [⟨1, .event, ⟨2⟩⟩] ≠
        (standard .rust).dispositions [⟨1, .channel, ⟨2⟩⟩] := by
  intro handles text
  have written : (standard .go).handleDefinitions handles = .ok text := by decide
  refine ⟨written, ((handle_collections_revealed.2.2 handles text written 1).2 _).mp rfl,
    fun again => ?_, fun same => ?_⟩
  · exact absurd (handle_collections_revealed.1 .go handles _ text written again) (by decide)
  · exact absurd (handle_collections_revealed.2.1 .rust _ _ same) (by decide)

end Writer

end FixtureLiterals
