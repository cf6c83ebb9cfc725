import FixtureLiterals.Proofs.Emission.Names
import FixtureLiterals.Proofs.Text.Division
import FixtureLiterals.Proofs.Text.Words

/-!
# The translation of qualified names

A name is read if each of its segments has something that no casing can take away, and a name
that is read is written segment by segment. A segment cannot fall apart in writing, since no
identifier has a character in it that the target puts between segments. It cannot vanish either,
and if it is one of the target's reserved words it is no longer one in writing. So the segments of
a name can be found again in what is written for it.
-/

namespace FixtureLiterals

open Text

namespace QualifiedName

variable {name : String}

/-- The empty name, and no other one, is refused as empty. -/
theorem parse_eq_empty_iff : parse name = .error .empty ↔ name = "" := by
  rcases parse_cases name with
    ⟨empty, refused⟩ | ⟨present, -, refused⟩ | ⟨usable, parsed, read, -⟩
  · exact iff_of_true refused empty
  · apply iff_of_false _ present
    rw [refused]
    exact fun other => nomatch other
  · apply iff_of_false _ (ne_empty_of_usable usable)
    rw [read]
    exact fun other => nomatch other

/-- A name is refused for its segments exactly if there is something of it and one of them is not
usable; what is reported then is the whole name. -/
theorem parse_eq_emptySegment_iff (whole : String) : parse name = .error (.emptySegment whole) ↔
    whole = name ∧ name ≠ "" ∧ ¬ HasUsableSegments name := by
  rcases parse_cases name with
    ⟨empty, refused⟩ | ⟨present, unusable, refused⟩ | ⟨usable, parsed, read, -⟩
  · rw [refused]
    exact iff_of_false (fun other => nomatch other) fun ⟨_, present, _⟩ => present empty
  · rw [refused, Except.error.injEq, NameFault.emptySegment.injEq]
    exact ⟨fun same => ⟨same.symm, present, unusable⟩, fun ⟨same, _⟩ => same.symm⟩
  · rw [read]
    exact iff_of_false (fun other => nomatch other) fun ⟨_, _, unusable⟩ => unusable usable

/-- All other names are read. -/
theorem exists_parse_iff :
    (∃ parsed, parse name = .ok parsed) ↔ name ≠ "" ∧ HasUsableSegments name := by
  constructor
  · rintro ⟨parsed, read⟩
    have usable := (segments_of_parse read).1
    exact ⟨ne_empty_of_usable usable, usable⟩
  · rintro ⟨-, usable⟩
    obtain ⟨parsed, read, -⟩ := exists_parse_of_usable usable
    exact ⟨parsed, read⟩

/-- Joined by delimiters, the segments of what is read give the name back. -/
theorem intercalate_of_parse {parsed : QualifiedName} (read : parse name = .ok parsed) :
    "/".intercalate (parsed.scopes ++ [parsed.leaf]) = name := by
  have joined : [delimiter].intercalate (segments name) = name.toList :=
    List.intercalate_splitOn delimiter
  rw [← String.toList_inj, String.toList_intercalate, (segments_of_parse read).2]
  exact joined

end QualifiedName

/-- The part of a written name that stands for a segment. -/
structure Spells (reserved : List String) (casing : Casing) (segment part : String) : Prop where
  /-- The part is the segment in its casing. -/
  cased : casing.apply segment ∉ reserved → part = casing.apply segment
  /-- It has one underscore more if it collides with a reserved word. -/
  escaped : casing.apply segment ∈ reserved → part = casing.apply segment ++ "_"
  nonempty : part ≠ ""
  /-- Of the characters that divide words or segments, the part has underscores only. -/
  undivided : ∀ character ∈ part.toList,
    isSeparator character = true ∨ character = QualifiedName.delimiter → character = '_'
  free : part ∉ reserved

/-- A text is divided at the separator of a target into parts that spell the segments of a name:
the scopes in snake case, and the leaf in upper camel case. -/
def Translates (style : NameStyle) (name : QualifiedName) (text : String) : Prop :=
  ∃ (scopes : List String) (leaf : String),
    divided style.separator.toList text.toList = (scopes ++ [leaf]).map String.toList ∧
      List.Forall₂ (Spells style.reserved .snake) name.scopes scopes ∧
        Spells style.reserved .upperCamel name.leaf leaf

/-- No reserved word ends in an underscore. -/
def IsEscapable (reserved : List String) : Prop :=
  ∀ word ∈ reserved, word.toList.getLast? ≠ some '_'

instance (reserved : List String) : Decidable (IsEscapable reserved) := List.decidableBAll _ _

/-- The underscore in the end avoids all reserved words. -/
theorem avoidReserved_not_mem {reserved : List String} (escapable : IsEscapable reserved)
    (identifier : String) : avoidReserved reserved identifier ∉ reserved := by
  rw [avoidReserved]
  split
  case isTrue =>
    intro collides
    apply escapable _ collides
    rw [String.toList_append]
    exact List.getLast?_concat
  case isFalse free => exact free

/-- Nothing that avoids reserved words is empty, unless the identifier was. -/
theorem eq_empty_of_avoidReserved {reserved : List String} {identifier : String}
    (empty : avoidReserved reserved identifier = "") : identifier = "" := by
  rw [avoidReserved] at empty
  split at empty
  case isTrue => exact absurd (congrArg String.toList empty) (by simp)
  case isFalse => exact empty

section Parts

variable {reserved : List String} {segment : String}

/-- An identifier that avoids reserved words has no mark, underscores apart, that neither its
segment has nor a casing can make. -/
theorem not_mem_avoidReserved (casing : Casing) {mark : Char} (noLetter : mark.isAlpha = false)
    (other : mark ≠ '_') (absent : isSeparator mark = true ∨ mark ∉ segment.toList) :
    mark ∉ (avoidReserved reserved (casing.apply segment)).toList := by
  intro listed
  rcases mem_of_mem_avoidReserved listed with inside | trailing
  · exact not_mem_apply noLetter casing other absent inside
  · exact other trailing

/-- A usable segment is spelled by its identifier. -/
theorem spells_avoidReserved (escapable : IsEscapable reserved) (casing : Casing)
    (usable : ∃ character ∈ segment.toList, character.isAlphanum = true)
    (undelimited : QualifiedName.delimiter ∉ segment.toList) :
    Spells reserved casing segment (avoidReserved reserved (casing.apply segment)) := by
  constructor
  case cased => exact fun apart => if_neg apart
  case escaped => exact fun collides => if_pos collides
  case nonempty =>
    intro empty
    obtain ⟨character, listed, letter⟩ := usable
    have separators := (apply_eq_empty_iff casing segment).mp (eq_empty_of_avoidReserved empty)
    rw [isAlphanum_of_isSeparator (separators character listed)] at letter
    exact absurd letter Bool.false_ne_true
  case undivided =>
    intro character listed divides
    by_contra other
    apply not_mem_avoidReserved casing _ other _ listed
    · rcases divides with separator | rfl
      · exact noLetter_of_isSeparator separator
      · decide
    · rcases divides with separator | rfl
      · exact .inl separator
      · exact .inr undelimited
  case free => exact avoidReserved_not_mem escapable _

end Parts

/-- No written segment of a name has a mark, underscores apart, that neither the segments of the
name have nor a casing can make. -/
theorem not_mem_parts (style : NameStyle) {name : QualifiedName} {mark : Char}
    (noLetter : mark.isAlpha = false) (other : mark ≠ '_')
    (absent : ∀ part ∈ name.scopes ++ [name.leaf],
      isSeparator mark = true ∨ mark ∉ part.toList) :
    ∀ identifier ∈ style.parts name, mark ∉ identifier.toList := by
  intro identifier written
  rcases List.mem_append.mp written with scope | final
  · obtain ⟨part, listed, rfl⟩ := List.mem_map.mp scope
    exact not_mem_avoidReserved _ noLetter other (absent part (List.mem_append_left _ listed))
  · rw [List.mem_singleton.mp final]
    apply not_mem_avoidReserved _ noLetter other
    exact absent name.leaf (List.mem_append_right _ (List.mem_singleton_self _))

/-- What is written for a name that was read translates it, if the target's separator begins with
a character that none of the parts can have. -/
theorem translates_render {style : NameStyle} (scopes : style.scopeCasing = .snake)
    (leaf : style.leafCasing = .upperCamel) (escapable : IsEscapable style.reserved)
    (first : Char) (others : List Char) (separator : style.separator.toList = first :: others)
    (noLetter : first.isAlpha = false) (other : first ≠ '_') {name : String}
    (absent : isSeparator first = true ∨ first ∉ name.toList) {parsed : QualifiedName}
    (read : QualifiedName.parse name = .ok parsed) :
    Translates style parsed (parsed.render style) := by
  obtain ⟨usable, segments⟩ := QualifiedName.segments_of_parse read
  have listed : ∀ part ∈ parsed.scopes ++ [parsed.leaf],
      part.toList ∈ QualifiedName.segments name :=
    fun part found => segments ▸ List.mem_map_of_mem found
  have spells (casing : Casing) : ∀ part ∈ parsed.scopes ++ [parsed.leaf],
      Spells style.reserved casing part (style.segment casing part) := by
    intro part found
    apply spells_avoidReserved escapable casing (usable _ (listed part found))
    exact fun delimiter => (QualifiedName.mem_of_mem_segments (listed part found) _ delimiter).2 rfl
  have undivided : ∀ identifier ∈ style.parts parsed, first ∉ identifier.toList := by
    apply not_mem_parts style noLetter other
    intro part found
    apply absent.imp_right
    exact fun missing inside =>
      missing (QualifiedName.mem_of_mem_segments (listed part found) _ inside).1
  refine ⟨parsed.scopes.map (style.segment .snake), style.segment .upperCamel parsed.leaf,
    ?_, ?_, ?_⟩
  · have some : (style.parts parsed).map String.toList ≠ [] := by
      rw [NameStyle.parts, List.map_append]
      exact List.append_ne_nil_of_right_ne_nil _ (List.cons_ne_nil _ _)
    rw [QualifiedName.render, String.toList_intercalate, separator,
      divided_intercalate some (List.forall_mem_map.mpr undivided), NameStyle.parts, scopes, leaf]
  · rw [List.forall₂_map_right_iff, List.forall₂_same]
    exact fun part found => spells .snake part (List.mem_append_left _ found)
  · exact spells .upperCamel _ (List.mem_append_right _ (List.mem_singleton_self _))

/-- A name is read exactly if it is not empty and its segments are usable; what refuses it says
which of the two is missing. The segments of what is read are those of the name, and both targets
write a translation of it. -/
theorem parse_exact_and_translated (name : String) :
    (QualifiedName.parse name = .error .empty ↔ name = "") ∧
      (∀ whole, QualifiedName.parse name = .error (.emptySegment whole) ↔
        whole = name ∧ name ≠ "" ∧ ¬ HasUsableSegments name) ∧
      ((∃ parsed, QualifiedName.parse name = .ok parsed) ↔
        name ≠ "" ∧ HasUsableSegments name) ∧
      ∀ parsed, QualifiedName.parse name = .ok parsed →
        (parsed.scopes ++ [parsed.leaf]).map String.toList = QualifiedName.segments name ∧
          "/".intercalate (parsed.scopes ++ [parsed.leaf]) = name ∧
          Translates goStyle parsed (parsed.render goStyle) ∧
          (':' ∉ name.toList → Translates rustStyle parsed (parsed.render rustStyle)) := by
  refine ⟨QualifiedName.parse_eq_empty_iff, QualifiedName.parse_eq_emptySegment_iff,
    QualifiedName.exists_parse_iff, ?_⟩
  intro parsed read
  refine ⟨(QualifiedName.segments_of_parse read).2, QualifiedName.intercalate_of_parse read, ?_, ?_⟩
  · exact translates_render rfl rfl (by decide) '.' [] (by decide) (by decide) (by decide)
      (.inl (by decide)) read
  · intro absent
    exact translates_render rfl rfl (by decide) ':' [':'] (by decide) (by decide) (by decide)
      (.inr absent) read

end FixtureLiterals
