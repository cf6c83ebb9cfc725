import FixtureLiterals.Emission.Identifiers
import FixtureLiterals.Proofs.Text.Casing
import FixtureLiterals.Proofs.Text.Revealing

/-!
# The characters of written names

A name of ASCII letters, digits and separators is written with letters, digits and
underscores, and a qualified name has the separator of its target as well. None of these
characters ends a written part of a literal, so no name is mistaken for what surrounds
it.
-/

namespace FixtureLiterals

open Text

/-- A name of ASCII letters, digits and separators. -/
def IsPlainName (name : String) : Prop := ∀ character ∈ name.toList, isPlain character = true

/-- A qualified name of ASCII letters, digits and separators. -/
def IsPlainPath (name : String) : Prop :=
  ∀ character ∈ name.toList, isPlain character = true ∨ character = QualifiedName.delimiter

/-- A name of ASCII letters, digits and any characters that separate words. -/
def IsSpelledName (name : String) : Prop := ∀ character ∈ name.toList, isSpelled character = true

/-- A qualified name of ASCII letters, digits and any characters that separate words. -/
def IsSpelledPath (name : String) : Prop :=
  ∀ character ∈ name.toList, isSpelled character = true ∨ character = QualifiedName.delimiter

instance (name : String) : Decidable (IsPlainName name) :=
  decidable_of_iff (name.toList.all isPlain = true) List.all_eq_true

instance (name : String) : Decidable (IsPlainPath name) :=
  decidable_of_iff
    (name.toList.all (fun character => isPlain character || character == QualifiedName.delimiter) =
      true)
    (by simp [IsPlainPath])

instance (name : String) : Decidable (IsSpelledPath name) :=
  decidable_of_iff
    (name.toList.all (fun character => isSpelled character || character == QualifiedName.delimiter) =
      true)
    (by simp [IsSpelledPath])

/-- Plain names are spelled with letters, digits and separators. -/
theorem IsPlainName.spelled {name : String} (plain : IsPlainName name) : IsSpelledName name :=
  fun character listed => isSpelled_of_isPlain (plain character listed)

/-- Plain qualified names are spelled with letters, digits and separators. -/
theorem IsPlainPath.spelled {name : String} (plain : IsPlainPath name) : IsSpelledPath name :=
  fun character listed => (plain character listed).imp_left isSpelled_of_isPlain

/-- Each segment of a written name has an ASCII letter or digit. -/
def HasUsableSegments (name : String) : Prop :=
  ∀ segment ∈ QualifiedName.segments name, ∃ character ∈ segment, character.isAlphanum = true

namespace QualifiedName

/-- The characters of a segment are those of the name that are no delimiter. -/
theorem mem_of_mem_segments {characters segment : List Char}
    (listed : segment ∈ characters.splitOn delimiter) :
    ∀ character ∈ segment, character ∈ characters ∧ character ≠ delimiter := by
  induction characters generalizing segment with
  | nil =>
    rw [List.splitOn_nil, List.mem_singleton] at listed
    rw [listed]
    exact nofun
  | cons first rest inductionHypothesis =>
    have later {other : List Char} (found : other ∈ rest.splitOn delimiter) :
        ∀ character ∈ other, character ∈ first :: rest ∧ character ≠ delimiter := by
      intro character member
      obtain ⟨listed, different⟩ := inductionHypothesis found character member
      exact ⟨List.mem_cons_of_mem _ listed, different⟩
    rw [List.splitOn_cons_eq_if_modifyHead] at listed
    by_cases cut : (first == delimiter) = true
    · rw [if_pos cut] at listed
      rcases List.mem_cons.mp listed with rfl | found
      · exact nofun
      · exact later found
    · rw [if_neg cut] at listed
      cases split : rest.splitOn delimiter with
      | nil => exact absurd split (List.splitOn_ne_nil _ _)
      | cons head others =>
        rw [split, List.modifyHead_cons] at listed
        rcases List.mem_cons.mp listed with rfl | found
        · intro character member
          rcases List.mem_cons.mp member with rfl | inside
          · exact ⟨List.mem_cons_self, fun same => cut (beq_iff_eq.mpr same)⟩
          · exact later (split ▸ List.mem_cons_self) character inside
        · exact later (split ▸ List.mem_cons_of_mem _ found)

section Reading

variable {name : String}

/-- The check of all segments asks for a letter or digit in each. -/
theorem all_isUsable_iff : (segments name).all isUsable = true ↔ HasUsableSegments name := by
  simp only [List.all_eq_true, isUsable, List.any_eq_true, HasUsableSegments]

/-- The only segment of the empty name has no character at all. -/
theorem ne_empty_of_usable (usable : HasUsableSegments name) : name ≠ "" := by
  rintro rfl
  obtain ⟨character, listed, -⟩ := usable [] (by decide)
  exact nomatch listed

/-- A name with usable segments is read: its last segment is the leaf. -/
theorem exists_parse_of_usable (usable : HasUsableSegments name) :
    ∃ parsed, parse name = .ok parsed ∧
      (parsed.scopes ++ [parsed.leaf]).map String.toList = segments name := by
  have present : ¬ name.isEmpty = true := String.isEmpty_iff.not.mpr (ne_empty_of_usable usable)
  cases last : (segments name).getLast? with
  | none => exact absurd (List.getLast?_eq_none_iff.mp last) (List.splitOn_ne_nil _ _)
  | some leaf =>
    obtain ⟨scopes, same⟩ := List.getLast?_eq_some_iff.mp last
    refine ⟨⟨scopes.map String.ofList, String.ofList leaf⟩, ?_, ?_⟩
    · rw [parse, if_neg present, if_pos (all_isUsable_iff.mpr usable), last, same,
        List.dropLast_concat]
    · have back : String.toList ∘ String.ofList = id := funext fun _ => String.toList_ofList
      rw [same, List.map_append, List.map_map, back, List.map_id, List.map_singleton,
        String.toList_ofList]

/-- A name with a segment that is not usable is refused as a whole. -/
theorem parse_of_not_usable (present : name ≠ "") (unusable : ¬ HasUsableSegments name) :
    parse name = .error (.emptySegment name) := by
  rw [parse, if_neg (String.isEmpty_iff.not.mpr present),
    if_neg (all_isUsable_iff.not.mpr unusable)]

/-- The empty name is refused as empty, another one for its segments if at all. -/
theorem parse_cases (name : String) :
    (name = "" ∧ parse name = .error .empty) ∨
      (name ≠ "" ∧ ¬ HasUsableSegments name ∧ parse name = .error (.emptySegment name)) ∨
        (HasUsableSegments name ∧ ∃ parsed, parse name = .ok parsed ∧
          (parsed.scopes ++ [parsed.leaf]).map String.toList = segments name) := by
  by_cases empty : name = ""
  · rw [empty]
    exact .inl ⟨rfl, rfl⟩
  · by_cases usable : HasUsableSegments name
    · exact .inr (.inr ⟨usable, exists_parse_of_usable usable⟩)
    · exact .inr (.inl ⟨empty, usable, parse_of_not_usable empty usable⟩)

/-- What is read has the segments of the name, all of them usable. -/
theorem segments_of_parse {parsed : QualifiedName} (read : parse name = .ok parsed) :
    HasUsableSegments name ∧
      (parsed.scopes ++ [parsed.leaf]).map String.toList = segments name := by
  rcases parse_cases name with ⟨-, refused⟩ | ⟨-, -, refused⟩ | ⟨usable, other, again, same⟩
  · exact nomatch refused.symm.trans read
  · exact nomatch refused.symm.trans read
  · rw [Except.ok.inj (again.symm.trans read)] at same
    exact ⟨usable, same⟩

/-- The parts of a parsed name are segments of the written one. -/
theorem exists_segment_of_parse {parsed : QualifiedName} (read : parse name = .ok parsed) :
    ∀ part ∈ parsed.scopes ++ [parsed.leaf], ∃ segment ∈ segments name,
      part.toList = segment := by
  intro part listed
  rw [← (segments_of_parse read).2]
  exact ⟨part.toList, List.mem_map_of_mem listed, rfl⟩

end Reading

/-- The parts of a name are spelled like the name. -/
theorem isSpelledName_of_parse {name : String} {parsed : QualifiedName}
    (spelled : IsSpelledPath name) (read : parse name = .ok parsed) :
    ∀ part ∈ parsed.scopes ++ [parsed.leaf], IsSpelledName part := by
  intro part listed character member
  obtain ⟨segment, found, same⟩ := exists_segment_of_parse read part listed
  rw [same] at member
  obtain ⟨inside, different⟩ := mem_of_mem_segments found character member
  exact (spelled character inside).resolve_right different

end QualifiedName

/-- Each casing writes a name with letters, digits and underscores. -/
theorem isIdentifier_apply (casing : Casing) {name : String} (spelled : IsSpelledName name) :
    ∀ character ∈ (casing.apply name).toList, isIdentifier character = true := by
  intro character listed
  simp only [Casing.apply, String.toList_ofList] at listed
  cases casing with
  | upperCamel => rw [isIdentifier, isAlphanum_upperCamel spelled character listed, Bool.true_or]
  | lowerCamel => rw [isIdentifier, isAlphanum_lowerCamel spelled character listed, Bool.true_or]
  | snake => exact isIdentifier_snake spelled character listed

/-- The escape of reserved words adds an underscore at most. -/
theorem mem_of_mem_avoidReserved {reserved : List String} {identifier : String} {character : Char}
    (listed : character ∈ (avoidReserved reserved identifier).toList) :
    character ∈ identifier.toList ∨ character = '_' := by
  rw [avoidReserved] at listed
  split at listed
  case isTrue =>
    rw [String.toList_append, List.mem_append] at listed
    exact listed.imp_right List.mem_singleton.mp
  case isFalse => exact .inl listed

/-- A trailing underscore belongs to an identifier. -/
theorem isIdentifier_avoidReserved (reserved : List String) {identifier : String}
    (spelled : ∀ character ∈ identifier.toList, isIdentifier character = true) :
    ∀ character ∈ (avoidReserved reserved identifier).toList, isIdentifier character = true := by
  intro character listed
  rcases mem_of_mem_avoidReserved listed with inside | rfl
  · exact spelled character inside
  · decide

/-- The characters of a target's qualified names. -/
def NameStyle.isQualified (style : NameStyle) (character : Char) : Bool :=
  isIdentifier character || style.separator.toList.contains character

/-- A qualified name is written with letters, digits, underscores and the characters
of the target's separator. -/
theorem isQualified_render {style : NameStyle} {name : String} {parsed : QualifiedName}
    (spelled : IsSpelledPath name) (read : QualifiedName.parse name = .ok parsed) :
    ∀ character ∈ (parsed.render style).toList, style.isQualified character = true := by
  have each := QualifiedName.isSpelledName_of_parse spelled read
  intro character listed
  rw [QualifiedName.render, String.toList_intercalate] at listed
  rcases mem_of_mem_intercalate listed with between | ⟨text, written, member⟩
  · rw [NameStyle.isQualified, List.contains_iff_mem.mpr between, Bool.or_true]
  · have spells : isIdentifier character = true := by
      obtain ⟨part, found, rfl⟩ := List.mem_map.mp written
      rcases List.mem_append.mp found with scope | final
      · obtain ⟨part, inside, rfl⟩ := List.mem_map.mp scope
        exact isIdentifier_avoidReserved _
          (isIdentifier_apply _ (each part (List.mem_append_left _ inside))) character member
      · rw [List.mem_singleton.mp final] at member
        exact isIdentifier_avoidReserved _
          (isIdentifier_apply _ (each parsed.leaf (by simp))) character member
    rw [NameStyle.isQualified, spells, Bool.true_or]

end FixtureLiterals
