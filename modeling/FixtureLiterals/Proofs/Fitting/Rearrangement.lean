import FixtureLiterals.Emission.Handles
import FixtureLiterals.Proofs.Fitting.Likeness
import FixtureLiterals.Proofs.Fitting.Records
import Mathlib.Logic.Relation

/-!
# The order of fields is of no account

A record value lists its fields in an order of its own. A struct or a table whose names are
declared and distinct is fitted in the order of the declaration, whatever the order of the value;
only unknown fields keep theirs. A table also does without the fields that are absent. A union
has one field, and otherwise fails by their number.

None of this depends on whether the value is fitted or where it fails. A fault is met at a name, by
the order of declaration, or at an unknown ordinal, by an order that is kept. So what is shown
is that the outcomes are equal, not that one of them is a success if the other is.
-/

namespace FixtureLiterals

namespace Field

variable {α : Type} {fields others : List (Field α)}

/-- The fields under names are selected one by one. -/
theorem underNames_eq_filterMap (fields : List (Field α)) :
    underNames fields = fields.filterMap fun field =>
      match field.key with
      | .declared name => some (name, field.value)
      | .unknown _ => none := by
  induction fields with
  | nil => rfl
  | cons field fields inductionHypothesis =>
    obtain ⟨key, value⟩ := field
    cases key <;> simp [underNames, inductionHypothesis]

/-- The fields under unknown ordinals are selected one by one. -/
theorem underOrdinals_eq_filterMap (fields : List (Field α)) :
    underOrdinals fields = fields.filterMap fun field =>
      match field.key with
      | .declared _ => none
      | .unknown ordinal => some (ordinal, field.value) := by
  induction fields with
  | nil => rfl
  | cons field fields inductionHypothesis =>
    obtain ⟨key, value⟩ := field
    cases key <;> simp [underOrdinals, inductionHypothesis]

/-- Named fields are rearranged with all others. -/
theorem underNames_perm (permuted : fields.Perm others) :
    (underNames fields).Perm (underNames others) := by
  rw [underNames_eq_filterMap, underNames_eq_filterMap]
  exact permuted.filterMap _

/-- Leaving a field out leaves out no other name. -/
theorem underNames_sublist (left : others.Sublist fields) :
    (underNames others).Sublist (underNames fields) := by
  rw [underNames_eq_filterMap, underNames_eq_filterMap]
  exact left.filterMap _

/-- Leaving out a named field leaves out nothing under an unknown ordinal. -/
theorem underOrdinals_append_cons (before after : List (Field α)) (name : String) (value : α) :
    underOrdinals (before ++ ⟨.declared name, value⟩ :: after) = underOrdinals (before ++ after) := by
  simp [underOrdinals_eq_filterMap]

/-- The first unknown ordinal is the first one of those fields. -/
theorem firstUnknownOrdinal?_eq_head? (fields : List (Field Value)) :
    Literal.firstUnknownOrdinal? fields = (underOrdinals fields).head?.map Prod.fst := by
  induction fields with
  | nil => rfl
  | cons field fields inductionHypothesis =>
    obtain ⟨key, value⟩ := field
    cases key with
    | declared name => exact inductionHypothesis
    | unknown ordinal => rfl

end Field

/-- Whether declared members are set, and none of them twice, does not depend on the order. -/
theorem SetsNames.perm {α β : Type} {members : List (Member α)} {entries others : List (String × β)}
    (sets : SetsNames members entries) (permuted : entries.Perm others) :
    SetsNames members others where
  declared entry listed := sets.declared entry (permuted.mem_iff.mpr listed)
  distinct := ((permuted.map Prod.fst).nodup_iff).mp sets.distinct

/-- Fewer entries set fewer members. -/
theorem SetsNames.sublist {α β : Type} {members : List (Member α)}
    {entries others : List (String × β)} (sets : SetsNames members entries)
    (left : others.Sublist entries) : SetsNames members others where
  declared entry listed := sets.declared entry (left.subset listed)
  distinct := sets.distinct.sublist (left.map Prod.fst)

/-- One step of rearranging a value of a declaration, at itself or at one place in it. -/
inductive Rearrangement : Declaration → Value → Value → Prop
  /-- The fields of a struct or table are permuted, but not the unknown ones among themselves. -/
  | permute {header : RecordHeader} {members : List (Member Declaration)}
      {fields others : List (Field Value)} (kind : header.kind ≠ .union)
      (sets : SetsNames members (Field.underNames fields)) (permuted : fields.Perm others)
      (ordinals : Field.underOrdinals fields = Field.underOrdinals others) :
      Rearrangement (.record header members) (.record fields) (.record others)
  /-- The fields of a union are permuted, which it has only one of unless it fails. -/
  | permuteUnion {header : RecordHeader} {members : List (Member Declaration)}
      {fields others : List (Field Value)} (kind : header.kind = .union)
      (permuted : fields.Perm others) :
      Rearrangement (.record header members) (.record fields) (.record others)
  /-- A field of a table is left out that is absent. -/
  | omitNull {header : RecordHeader} {members : List (Member Declaration)}
      {before after : List (Field Value)} {name : String} (kind : header.kind = .table)
      (sets : SetsNames members (Field.underNames (before ++ Value.named name .null :: after))) :
      Rearrangement (.record header members) (.record (before ++ Value.named name .null :: after))
        (.record (before ++ after))
  | inArray {element : Declaration} {size : UInt64} {before after : List Value}
      {item changed : Value} (inside : Rearrangement element item changed) :
      Rearrangement (.array element size) (.list (before ++ item :: after))
        (.list (before ++ changed :: after))
  | inVector {element : Declaration} {nullable : Bool} {before after : List Value}
      {item changed : Value} (inside : Rearrangement element item changed) :
      Rearrangement (.vector element nullable) (.list (before ++ item :: after))
        (.list (before ++ changed :: after))
  /-- The value under a name is rearranged for every member of the name, of which a sound record
  has one. -/
  | inMember {header : RecordHeader} {members : List (Member Declaration)}
      {before after : List (Field Value)} {name : String} {value changed : Value}
      (declared : ∃ member ∈ members, member.name = name)
      (inside : ∀ member ∈ members, member.name = name →
        Rearrangement member.content value changed) :
      Rearrangement (.record header members) (.record (before ++ Value.named name value :: after))
        (.record (before ++ Value.named name changed :: after))

/-- A value of a declaration is rearranged by any number of steps. -/
abbrev Rearranged (declaration : Declaration) : Value → Value → Prop :=
  Relation.ReflTransGen (Rearrangement declaration)

/-- No rearrangement makes a value absent, or is one of the absent value. -/
theorem Rearrangement.isNull {declaration : Declaration} {value changed : Value}
    (rearrangement : Rearrangement declaration value changed) : value.isNull = changed.isNull := by
  cases rearrangement <;> rfl

namespace Literal

variable (environment : Environment) (header : RecordHeader) {members : List (Member Fitter)}
  {fields others : List (Field Value)}

/-- Unknown fields are fitted without regard to those under names. -/
theorem fitUnknownFields_of_underOrdinals {α : Type} (members : List (Member α))
    (seen : List UInt64) (fields : List (Field Value)) :
    fitUnknownFields environment header members seen fields =
      fitUnknownFields environment header members seen
        ((Field.underOrdinals fields).map fun entry => ⟨.unknown entry.1, entry.2⟩) := by
  induction fields generalizing seen with
  | nil => rfl
  | cons field fields inductionHypothesis =>
    obtain ⟨key, value⟩ := field
    cases key with
    | declared name => exact inductionHypothesis seen
    | unknown ordinal =>
      simp only [fitUnknownFields, Field.underOrdinals, List.map_cons, ← inductionHypothesis]

/-- Present members are told by what is found that is not the absent value. -/
theorem presentMembers_congr {α : Type} (members : List (Member α))
    {known others : List (String × Value)}
    (same : ∀ name value, value ≠ .null →
      (known.lookup name = some value ↔ others.lookup name = some value)) :
    presentMembers members known = presentMembers members others := by
  have selected (entries : List (String × Value)) : presentMembers members entries =
      members.filterMap fun member =>
        ((entries.lookup member.name).filter fun value => !value.isNull).map (member, ·) := by
    apply List.filterMap_congr
    intro member _
    cases entries.lookup member.name with
    | none => rfl
    | some value => cases absent : value.isNull <;> simp [Option.filter, absent]
  have present (name : String) : (known.lookup name).filter (fun value => !value.isNull) =
      (others.lookup name).filter fun value => !value.isNull := by
    apply Option.ext
    intro value
    simp only [Option.filter_eq_some_iff, Bool.not_eq_true', ← Bool.not_eq_true, isNull_iff]
    constructor
    · rintro ⟨found, present⟩
      exact ⟨(same name value present).mp found, present⟩
    · rintro ⟨found, present⟩
      exact ⟨(same name value present).mpr found, present⟩
  simp only [selected, present]

section SameFields

variable (sets : SetsNames members (Field.underNames fields))
  (alsoSets : SetsNames members (Field.underNames others))
  (ordinals : Field.underOrdinals fields = Field.underOrdinals others)
include sets alsoSets ordinals

/-- Structs of the same fields are fitted alike, in whatever order they are. -/
theorem fitStruct_of_fields
    (same : ∀ name value, ⟨.declared name, value⟩ ∈ fields ↔ ⟨.declared name, value⟩ ∈ others) :
    fitStruct header members fields = fitStruct header members others := by
  have scanned := (knownFields_eq_ok_iff header members fields _).mpr ⟨sets, rfl⟩
  have alsoScanned := (knownFields_eq_ok_iff header members others _).mpr ⟨alsoSets, rfl⟩
  have found (name : String) : (Field.underNames fields).reverse.lookup name =
      (Field.underNames others).reverse.lookup name := by
    rw [lookup_reverse _ sets.distinct, lookup_reverse _ alsoSets.distinct]
    apply Option.ext
    intro value
    rw [lookup_underNames sets, lookup_underNames alsoSets]
    exact same name value
  simp only [fitStruct, Field.firstUnknownOrdinal?_eq_head?, ordinals, scanned, alsoScanned]
  cases (Field.underOrdinals others).head? with
  | some entry => rfl
  | none => simp only [Option.map_none, bind, Except.bind, found]

/-- Tables of the same present fields are fitted alike, in whatever order they are. -/
theorem fitTable_of_fields (same : ∀ name value, value ≠ .null →
      (⟨.declared name, value⟩ ∈ fields ↔ ⟨.declared name, value⟩ ∈ others)) :
    fitTable environment header members fields = fitTable environment header members others := by
  have scanned := (knownFields_eq_ok_iff header members fields _).mpr ⟨sets, rfl⟩
  have alsoScanned := (knownFields_eq_ok_iff header members others _).mpr ⟨alsoSets, rfl⟩
  have present : presentMembers members (Field.underNames fields) =
      presentMembers members (Field.underNames others) := by
    apply presentMembers_congr members
    intro name value present
    rw [lookup_underNames sets, lookup_underNames alsoSets]
    exact same name value present
  have unknown : fitUnknownFields environment header members [] fields =
      fitUnknownFields environment header members [] others := by
    rw [fitUnknownFields_of_underOrdinals, ordinals, ← fitUnknownFields_of_underOrdinals]
  simp only [fitTable, scanned, alsoScanned, unknown, presentMembers_reverse sets,
    presentMembers_reverse alsoSets, present, bind, Except.bind]

end SameFields

/-- Unions of permuted fields are fitted alike: one field cannot be permuted, and any other number
fails as such. -/
theorem fitUnion_of_perm (permuted : fields.Perm others) :
    fitUnion environment header members fields = fitUnion environment header members others := by
  have counted := permuted.length_eq
  match fields, others, permuted with
  | [], _, permuted => rw [permuted.nil_eq]
  | [field], _, permuted => rw [permuted.singleton_eq]
  | _ :: _ :: _, _ :: _ :: _, _ => simp only [fitUnion, counted]

/-- One step of rearranging a value does not change what it is fitted to, or where and why it
fails.

The induction is on the place of the step. -/
theorem same_of_rearrangement {declaration : Declaration} {value changed : Value}
    (rearrangement : Rearrangement declaration value changed) :
    Likeness.equality.Same (fit environment declaration value)
      (fit environment declaration changed) := by
  induction rearrangement with
  | @permute header members fields others kind sets permuted ordinals =>
    have names := (setsNames_map (fit environment) members _).mpr sets
    have alsoNames := names.perm (Field.underNames_perm permuted)
    apply Matches.eq_iff.mpr
    simp only [fit, fitPresent, fitRecord, fitters_eq_map]
    cases shape : header.kind with
    | union => exact absurd shape kind
    | struct =>
      exact fitStruct_of_fields header names alsoNames ordinals fun _ _ => permuted.mem_iff
    | table =>
      exact fitTable_of_fields environment header names alsoNames ordinals
        fun _ _ _ => permuted.mem_iff
  | permuteUnion kind permuted =>
    apply Matches.eq_iff.mpr
    simp only [fit, fitPresent, fitRecord, kind]
    exact fitUnion_of_perm environment _ permuted
  | @omitNull header members before after name kind sets =>
    have names := (setsNames_map (fit environment) members _).mpr sets
    have left : (before ++ after).Sublist (before ++ Value.named name .null :: after) :=
      (List.Sublist.refl before).append (List.sublist_cons_self _ after)
    have alsoNames := names.sublist (Field.underNames_sublist left)
    apply Matches.eq_iff.mpr
    simp only [fit, fitPresent, fitRecord, fitters_eq_map, kind]
    apply fitTable_of_fields environment header names alsoNames
    · exact Field.underOrdinals_append_cons before after name .null
    · intro other value present
      simp [Value.named, present]
  | inArray inside inductionHypothesis =>
    exact fit_array_same environment _ _ inductionHypothesis _
  | inVector inside inductionHypothesis =>
    exact fit_vector_same environment _ _ inductionHypothesis _
  | @inMember header members before after name value changed declared inside inductionHypothesis =>
    obtain ⟨member, listed, named⟩ := declared
    have absent : value.isNull = changed.isNull := (inside member listed named).isNull
    exact fit_record_same header environment before after
      (.declared ⟨absent, List.forall_mem_map.mpr inductionHypothesis⟩)

/-- However a value is rearranged, it is fitted to the same literal, or fails for the same cause at
the same place, in whatever surroundings. -/
theorem fit_of_rearranged {declaration : Declaration} {value changed : Value}
    (rearranged : Rearranged declaration value changed) (environment : Environment) :
    fit environment declaration changed = fit environment declaration value := by
  induction rearranged with
  | refl => rfl
  | tail _ rearrangement inductionHypothesis =>
    rw [← Matches.eq_iff.mp (same_of_rearrangement environment rearrangement), inductionHypothesis]

/-- In a vector, a table loses its absent field, and its other two are swapped. Its number is out of
range before and afterwards. -/
theorem fit_of_rearranged_table :
    let environment : Environment := ⟨.go, GoWriter.supportsHandle, 0⟩
    let sample : Declaration := .record ⟨"lib/Sample", .table, false, .value, .strict⟩
      [⟨"count", 1, .primitive .uint8⟩, ⟨"label", 2, .string true⟩]
    let number : Field Value := Value.named "count" (.integer (.signed 300))
    let data : Field Value := Value.unknown 9 ⟨[1], []⟩
    let value : Value := .list [.record [Value.named "label" .null, number, data]]
    let changed : Value := .list [.record [data, number]]
    Rearranged (.vector sample false) value changed ∧
      fit environment (.vector sample false) changed =
        fit environment (.vector sample false) value := by
  intro environment sample number data value changed
  have omitted : Rearrangement sample (.record ([] ++ Value.named "label" .null :: [number, data]))
      (.record ([] ++ [number, data])) :=
    .omitNull rfl ⟨by simp [Field.underNames, Value.named, Value.unknown, number, data], by decide⟩
  have swapped : Rearrangement sample (.record [number, data]) (.record [data, number]) :=
    .permute (by decide) ⟨by simp [Field.underNames, Value.named, Value.unknown, number, data],
      by decide⟩ (.swap ..) rfl
  have rearranged : Rearranged (.vector sample false) value changed :=
    .tail (.single (@Rearrangement.inVector _ _ [] [] _ _ omitted))
      (@Rearrangement.inVector _ _ [] [] _ _ swapped)
  exact ⟨rearranged, fit_of_rearranged rearranged environment⟩

end Literal

end FixtureLiterals
