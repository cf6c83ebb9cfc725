import FixtureLiterals.Proofs.Emission.Parts

/-!
# Parts of Go expressions

The parts of a Go literal that have no literals in them: numbers, strings, handles, names
and the contents of unknown fields. Each of them reveals what it was written from. Only the
standard settings are looked at where the text of a setting stands in one form of a part and
not in another one.
-/

namespace FixtureLiterals.GoWriter

open Emission Text

section Numbers

/-- A float that is not finite is written by what stands for it. -/
theorem float_of_not_finite (subtype : Primitive) {value : Binary64}
    (infinite : value.isFinite = false) :
    float subtype value =
      if subtype = .float32 then
        "float32(" ++ special "math.NaN()" "math.Inf(-1)" "math.Inf(1)" value ++ ")"
      else special "math.NaN()" "math.Inf(-1)" "math.Inf(1)" value := by
  rw [float, if_neg (by rw [infinite]; exact Bool.false_ne_true)]
  rfl

/-- All that is written for floats that are not finite. -/
def infiniteTexts : List String :=
  ["math.NaN()", "math.Inf(-1)", "math.Inf(1)", "float32(math.NaN())", "float32(math.Inf(-1))",
    "float32(math.Inf(1))"]

/-- A float that is not finite is written in one of six ways. -/
theorem float_mem_infiniteTexts (subtype : Primitive) {value : Binary64}
    (infinite : value.isFinite = false) : float subtype value ∈ infiniteTexts := by
  rw [float_of_not_finite subtype infinite, special]
  by_cases single : subtype = .float32
  · rw [if_pos single]
    cases value.isNaN <;> cases value.isNegative <;> decide
  · rw [if_neg single]
    cases value.isNaN <;> cases value.isNegative <;> decide

/-- A finite float is not mistaken for one that is not. -/
theorem apart_float (subtype : Primitive) {finite infinite : Binary64}
    (number : finite.isFinite = true) (boundless : infinite.isFinite = false) :
    Apart (float subtype finite).toList (float subtype infinite).toList := by
  have letters : ∀ text ∈ infiniteTexts,
      text.toList.head? = some 'm' ∨ text.toList.head? = some 'f' := by decide
  rw [float, if_pos number]
  rcases letters _ (float_mem_infiniteTexts subtype boundless) with head | head
  · obtain ⟨others, spelled⟩ := List.head?_eq_some_iff.mp head
    rw [spelled]
    exact apart_floatText _ _ (by decide) (by decide) _
  · obtain ⟨others, spelled⟩ := List.head?_eq_some_iff.mp head
    rw [spelled]
    exact apart_floatText _ _ (by decide) (by decide) _

/-- A float reveals its value, but not which pattern without a number it is. -/
theorem reveals_float (subtype : Primitive) (first second : Binary64) :
    Reveals Ends (float subtype first).toList (float subtype second).toList
      (first = second ∨ (first.isNaN = true ∧ second.isNaN = true)) := by
  cases finite : first.isFinite <;> cases number : second.isFinite
  case true.true =>
    rw [float, if_pos finite, float, if_pos number]
    have text := Binary64.reveals_text Binary64.sourceLayout first second
    exact (text.narrow fun _ => leaves_of_ends (by decide) (by decide)).imp .inl
  case true.false => exact .of_apart (apart_float subtype finite number)
  case false.true => exact .of_apart (apart_float subtype number finite).symm
  case false.false =>
    have reveals := @reveals_special "math.NaN()" "math.Inf(-1)" "math.Inf(1)"
      (.of_differ (by decide)) (.of_differ (by decide)) (.of_differ (by decide)) _ _ finite number
    rw [float_of_not_finite subtype finite, float_of_not_finite subtype number]
    split
    case isTrue => exact (reveals.opened _).ended _ fun _ => trivial
    case isFalse => exact reveals.narrow fun _ _ => trivial

/-- A float by its pattern starts with a function for patterns. -/
theorem exists_floatBits_eq (subtype : Primitive) (bits : UInt64) :
    ∃ others, (floatBits subtype bits).toList = "math.Float".toList ++ others := by
  rw [floatBits, String.toList_append, String.toList_append, List.append_assoc]
  split
  case isTrue => exact ⟨_, rfl⟩
  case isFalse => exact ⟨_, rfl⟩

/-- No float is mistaken for one that is given by its pattern. -/
theorem apart_floatBits (subtype : Primitive) (value : Binary64) (bits : UInt64) :
    Apart (float subtype value).toList (floatBits subtype bits).toList := by
  obtain ⟨others, spelled⟩ := exists_floatBits_eq subtype bits
  rw [spelled]
  cases finite : value.isFinite with
  | true =>
    rw [float, if_pos finite]
    exact apart_floatText _ _ (by decide) (by decide) _
  | false =>
    have differing : ∀ text ∈ infiniteTexts, differ "math.Float".toList text.toList = true := by
      decide
    have apart := Apart.of_differ (differing _ (float_mem_infiniteTexts subtype finite))
    exact (apart.longer others).symm

/-- A float by its pattern reveals the pattern. -/
theorem reveals_floatBits (subtype : Primitive) (first second : UInt64) :
    Reveals Ends (floatBits subtype first).toList (floatBits subtype second).toList
      (first = second) := by
  have digits := (reveals_hexadecimal first.toNat second.toNat).imp UInt64.toNat_inj.mp
  exact (digits.opened _).ended _ fun rest => leaves_append [] rest (by decide)

end Numbers

/-- A string reveals its text, in either form. -/
theorem reveals_string (nullable : Bool) (first second : String) :
    Reveals Ends (string nullable first).toList (string nullable second).toList
      (first = second) := by
  cases nullable with
  | false => exact (reveals_goQuoted first second).narrow fun _ _ => trivial
  | true => exact ((reveals_goQuoted first second).opened _).ended _ fun _ => trivial

section Handles

variable (writer : GoWriter)

/-- One of the created handles reveals its index. -/
theorem reveals_handleAt (first second : UInt64) :
    Reveals Anything (writer.handleAt first).toList (writer.handleAt second).toList
      (first = second) := by
  exact ((reveals_ordinal first second).opened _).ended _ fun rest =>
    leaves_append [] rest (by decide)

/-- A handle reveals its index. -/
theorem reveals_handle (subtype : HandleSubtype) (first second : UInt64) :
    Reveals Ends (writer.handle first subtype).toList (writer.handle second subtype).toList
      (first = second) := by
  have reveals := reveals_handleAt writer first second
  rw [handle, handle]
  split
  case isTrue => exact reveals.narrow fun _ _ => trivial
  case isFalse => exact (reveals.opened _).ended _ fun _ => trivial

/-- No handle is mistaken for the absent one. -/
theorem apart_handle (index : UInt64) (subtype : HandleSubtype) :
    Apart (GoWriter.standard.handle index subtype).toList "zx.HandleInvalid".toList := by
  rw [handle]
  split
  case isTrue =>
    unfold handleAt
    simp only [String.toList_append, List.append_assoc]
    exact (Apart.of_differ (by decide)).longer _
  case isFalse typed =>
    simp only [String.toList_append]
    rw [List.append_assoc]
    refine Apart.longer (Apart.of_differ ?_) _
    cases subtype
    case handle => exact absurd rfl typed
    all_goals decide

/-- A handle of an unknown field reveals its index. -/
theorem reveals_handleInfo (first second : UInt64) :
    Reveals Anything (writer.handleInfo first).toList (writer.handleInfo second).toList
      (first = second) := by
  unfold handleInfo
  simp only [String.toList_append, List.append_assoc]
  refine Reveals.prefixed ?_ _
  -- The definition repeats the index, so behind the same index the texts are the same.
  exact (reveals_handleAt writer first second).followed fun same => by rw [same]

/-- A list of composite items, written as `nil` if it is empty, reveals its items. -/
theorem reveals_unless_nil {α : Type} {write : α → String} (type : String)
    (typed : Apart "nil".toList type.toList)
    (each : ∀ left right, Reveals Anything (write left).toList (write right).toList (left = right))
    (opened : ∀ element, Apart (write element).toList "\x7d".toList) (first second : List α) :
    Reveals Anything
      (if first.isEmpty then "nil" else composite type (first.map write)).toList
      (if second.isEmpty then "nil" else composite type (second.map write)).toList
      (first = second) := by
  have apart (items : List String) : Apart "nil".toList (composite type items).toList := by
    rw [composite, toList_block, String.toList_append, List.append_assoc]
    exact (typed.symm.longer _).symm
  cases first with
  | nil =>
    cases second with
    | nil => exact .refl _ rfl
    | cons right second => exact .of_apart (apart _)
  | cons left first =>
    cases second with
    | nil => exact .of_apart (apart _).symm
    | cons right second =>
      exact reveals_block_eq each _ (.of_differ (by decide)) opened (left :: first)
        (right :: second)

/-- The text for some handles is a list of them. -/
theorem handleInfos_cons (index : UInt64) (indices : List UInt64) :
    writer.handleInfos (index :: indices) =
      block ("[]" ++ writer.kernelPackage ++ ".HandleInfo" ++ "\x7b")
        ((index :: indices).map writer.handleInfo) "\x7d" := rfl

/-- The handles of an unknown field are revealed. -/
theorem reveals_handleInfos (first second : List UInt64) :
    Reveals Anything (writer.handleInfos first).toList (writer.handleInfos second).toList
      (first = second) := by
  refine reveals_unless_nil _ ?_ (reveals_handleInfo writer) (fun index => ?_) first second
  · simp only [String.toList_append, List.append_assoc]
    exact ((Apart.of_differ (by decide)).longer _).symm
  · unfold handleInfo
    simp only [String.toList_append, List.append_assoc]
    exact (Apart.of_differ (by decide)).longer _

/-- The content of an unknown field is revealed. -/
theorem reveals_unknownData (first second : UnknownData) :
    Reveals Anything (writer.unknownData first).toList (writer.unknownData second).toList
      (first = second) := by
  have bytes : Reveals (Begins [',']) ("Bytes: " ++ writer.bytes first.bytes).toList
      ("Bytes: " ++ writer.bytes second.bytes).toList (first.bytes = second.bytes) := by
    refine Reveals.opened (Reveals.narrow ?_ fun _ _ => trivial) _
    exact reveals_byteBlock _ _ (.of_differ (by decide)) (.of_differ (by decide)) _ _
  have handles : Reveals (Begins [',']) ("Handles: " ++ writer.handleInfos first.handles).toList
      ("Handles: " ++ writer.handleInfos second.handles).toList
      (first.handles = second.handles) :=
    ((reveals_handleInfos writer _ _).narrow fun _ _ => trivial).opened _
  refine (reveals_pair _ (.of_differ (by decide)) bytes handles).imp ?_
  rintro ⟨sameBytes, sameHandles⟩
  cases first
  cases second
  obtain rfl := sameBytes
  obtain rfl := sameHandles
  rfl

/-- The entry of a table that holds its unknown fields reveals them, whether it is there or
not. -/
theorem reveals_unknownEntry (first second : List (UInt64 × UnknownData)) :
    Reveals (Begins ['\x7d']) (lines (writer.unknownEntry first))
      (lines (writer.unknownEntry second)) (first = second) := by
  rw [unknownEntry, unknownEntry]
  refine reveals_line_unless_empty ?_ ?_ ?_
  · refine Reveals.opened (Reveals.narrow ?_ fun _ _ => trivial) _
    have each (left right : UInt64 × UnknownData) : Reveals Anything
        (decimal left.1.toNat ++ ": " ++ writer.unknownData left.2).toList
        (decimal right.1.toNat ++ ": " ++ writer.unknownData right.2).toList (left = right) :=
      reveals_unknownField (reveals_unknownData writer)
        (fun rest => leaves_append [' '] rest (by decide)) left right
    have inline : Apart ['\n'] "\x7d".toList := .of_differ (by decide)
    refine reveals_block_eq each _ inline (fun entry => ?_) first second
    simp only [String.toList_append, List.append_assoc]
    exact (apart_decimal entry.1.toNat (by decide) []).longer _
  · rintro rest tail ⟨behind, rfl⟩
    rw [String.toList_append]
    exact (Apart.of_differ (by decide)).longer _ _ _
  · rintro rest tail ⟨behind, rfl⟩
    rw [String.toList_append]
    exact (Apart.of_differ (by decide)).longer _ _ _

end Handles

end FixtureLiterals.GoWriter
