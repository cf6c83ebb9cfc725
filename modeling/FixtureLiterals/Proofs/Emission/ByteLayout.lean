import FixtureLiterals.Fixture
import FixtureLiterals.Proofs.Document.Quoted
import FixtureLiterals.Proofs.Emission.Blocks
import FixtureLiterals.Proofs.Emission.Quoted

/-!
# The layout of bytes

A reader of a fixture sees a block of bytes as tokens on lines. The layout says how many lines
there are, how many tokens each of them has, and which bytes the tokens are read as. It mentions
no way of dividing the bytes, so it is what any division has to come to.

The width is a setting. A writer starts from the standard settings or from a document, and each
adjustment replaces one setting, so the width that counts is the one that was asked for last. No
way of asking leads to a width of zero, for which there would be no layout.
-/

namespace FixtureLiterals

open Document Emission Text

namespace Emission

/-- Reads a token: two lower-case hexadecimal digits between `0x` and a comma. -/
def byteToken? : List Char → Option UInt8
  | ['0', 'x', high, low, ','] =>
    if isHexadecimal high && isHexadecimal low then some (UInt8.ofNat (hexadecimalValue [high, low]))
    else none
  | _ => none

/-- The layout of bytes between an opener and a closer, with `width` tokens on a line. -/
inductive LaidOut (width : Nat) (opener closer : String) : List UInt8 → String → Prop where
  /-- Without bytes there are no lines. -/
  | touching : LaidOut width opener closer [] (opener ++ closer)
  /-- The number of lines is the number of bytes over the width, rounded up. Only the last line
  may be shorter, and it has a token. -/
  | lines {bytes : List UInt8} {lines : List (List String)} (nonempty : bytes ≠ [])
      (counted : lines.length = (bytes.length + width - 1) / width)
      (full : ∀ line ∈ lines.dropLast, line.length = width)
      (last : ∀ line ∈ lines.getLast?, 1 ≤ line.length ∧ line.length ≤ width)
      (read : lines.flatten.map (fun token => byteToken? token.toList) = bytes.map some) :
      LaidOut width opener closer bytes
        (opener ++ "\n" ++ String.join (lines.map fun line => " ".intercalate line ++ "\n") ++ closer)

/-- A byte is read from its token. -/
theorem byteToken?_byteItem (byte : UInt8) : byteToken? (byteItem byte).toList = some byte := by
  have bounded : byte.toNat < 16 ^ 2 := byte.toNat_lt
  have counted := length_paddedHexadecimal (by decide) bounded
  have value := value_paddedHexadecimal 2 byte.toNat
  have digits : ∀ digit ∈ (paddedHexadecimal 2 byte.toNat).toList, isHexadecimal digit = true :=
    fun _ => isHexadecimal_of_mem_padded
  obtain ⟨high, low, spelled⟩ := List.length_eq_two.mp counted
  rw [spelled] at value digits
  have both : isHexadecimal high = true ∧ isHexadecimal low = true := by simpa using digits
  have text : (byteItem byte).toList = ['0', 'x', high, low, ','] := by
    simp [byteItem, String.toList_append, spelled]
  rw [text, byteToken?, if_pos (Bool.and_eq_true_iff.mpr both), value, UInt8.ofNat_toNat]

section Lines

variable {width : Nat} (positive : 0 < width)
include positive

/-- The lines of a block are as many as its bytes over the width, rounded up. -/
theorem length_byteLines (bytes : List UInt8) :
    (byteLines width bytes).length = (bytes.length + width - 1) / width := by
  induction bytes using byteLines.induct width with
  | case1 =>
    rw [byteLines, List.length_nil, List.length_nil, Nat.zero_add]
    exact (Nat.div_eq_of_lt (Nat.sub_lt positive Nat.one_pos)).symm
  | case2 first rest inductionHypothesis =>
    rw [byteLines, List.length_cons, inductionHypothesis, List.length_drop, List.length_cons]
    by_cases short : rest.length < width
    · have none : rest.length - (width - 1) = 0 := by omega
      have one : rest.length + 1 + width - 1 = rest.length + width := by omega
      rw [none, one, Nat.zero_add, Nat.div_eq_of_lt (Nat.sub_lt positive Nat.one_pos),
        Nat.add_div_right _ positive, Nat.div_eq_of_lt short]
    · have more : rest.length + 1 + width - 1 = rest.length - (width - 1) + width - 1 + width := by
        omega
      rw [more, Nat.add_div_right _ positive]

/-- No line of a block is longer than the width. -/
theorem length_le_of_mem_byteLines {bytes line : List UInt8}
    (listed : line ∈ byteLines width bytes) : line.length ≤ width := by
  induction bytes using byteLines.induct width with
  | case1 =>
    rw [byteLines] at listed
    exact absurd listed List.not_mem_nil
  | case2 first rest inductionHypothesis =>
    rw [byteLines] at listed
    rcases List.mem_cons.mp listed with rfl | later
    · rw [List.length_cons, List.length_take]
      omega
    · exact inductionHypothesis later

/-- Only the last line of a block may be shorter than the width. -/
theorem length_eq_of_mem_dropLast_byteLines {bytes line : List UInt8}
    (listed : line ∈ (byteLines width bytes).dropLast) : line.length = width := by
  induction bytes using byteLines.induct width with
  | case1 =>
    rw [byteLines, List.dropLast_nil] at listed
    exact absurd listed List.not_mem_nil
  | case2 first rest inductionHypothesis =>
    rw [byteLines] at listed
    -- A line has others behind it only if there are bytes left for them.
    cases left : rest.drop (width - 1) with
    | nil =>
      rw [left, byteLines, List.dropLast_singleton] at listed
      exact absurd listed List.not_mem_nil
    | cons next others =>
      have some : byteLines width (rest.drop (width - 1)) ≠ [] := by
        rw [left, byteLines]
        exact List.cons_ne_nil _ _
      rw [List.dropLast_cons_of_ne_nil some] at listed
      rcases List.mem_cons.mp listed with rfl | later
      · have enough : (rest.drop (width - 1)).length = others.length + 1 := by
          rw [left, List.length_cons]
        rw [List.length_drop] at enough
        rw [List.length_cons, List.length_take]
        omega
      · exact inductionHypothesis later

/-- A block of bytes is laid out. -/
theorem laidOut_byteBlock (opener closer : String) (bytes : List UInt8) :
    LaidOut width opener closer bytes (byteBlock width opener bytes closer) := by
  cases bytes with
  | nil => exact .touching
  | cons first rest =>
    have texts : (byteLines width (first :: rest)).map byteLine =
        ((byteLines width (first :: rest)).map (List.map byteItem)).map
          fun line => " ".intercalate line ++ "\n" := by
      rw [List.map_map]
      rfl
    simp only [byteBlock]
    rw [texts]
    refine .lines (List.cons_ne_nil _ _) ?counted ?full ?last ?read
    case counted => rw [List.length_map, length_byteLines positive]
    case full =>
      intro line listed
      rw [← List.map_dropLast] at listed
      obtain ⟨bytes, earlier, rfl⟩ := List.mem_map.mp listed
      rw [List.length_map, length_eq_of_mem_dropLast_byteLines positive earlier]
    case last =>
      intro line listed
      obtain ⟨bytes, member, rfl⟩ := List.mem_map.mp (List.mem_of_mem_getLast? listed)
      rw [List.length_map]
      exact ⟨List.length_pos_iff.mpr (ne_nil_of_mem_byteLines member),
        length_le_of_mem_byteLines positive member⟩
    case read =>
      rw [← List.map_flatten, flatten_byteLines, List.map_map]
      exact List.map_congr_left fun byte _ => byteToken?_byteItem byte

end Lines

end Emission

/-- The number of bytes that a document of settings asks for on a line, where the settings are
the members with the given names. -/
def requestedBytes? (names : List String) (depth : Nat) (reading : Reading) (tree : Tree) :
    Option UInt64 := do
  settingOr depth reading (← members? names tree) "bytes_per_line" 8

/-- The settings of a Go text in a document. -/
def GoWriter.settings : List String :=
  ["handles_var", "handle_defs_var", "fidl_package", "zx_package", "bytes_per_line"]

/-- The settings of a Rust text in a document. -/
def RustWriter.settings : List String :=
  ["handles_var", "handle_defs_var", "fidl_crate", "bytes_per_line"]

/-- A document of Go settings asks for a number of bytes on a line, and zero counts as one. -/
theorem GoWriter.bytesPerLine_of_ofTree? {depth : Nat} {reading : Reading} {tree : Tree}
    {writer : GoWriter} (accepted : GoWriter.ofTree? (depth + 1) reading tree = some writer) :
    ∃ count, requestedBytes? settings depth reading tree = some count ∧
      writer.bytesPerLine = max count.toNat 1 := by
  simp only [GoWriter.ofTree?, Option.bind_eq_bind, Option.bind_eq_some_iff] at accepted
  obtain ⟨members, listed, _, -, _, -, _, -, _, -, count, asked, built⟩ := accepted
  refine ⟨count, ?_, ?_⟩
  · rw [requestedBytes?, settings, listed]
    exact asked
  · rw [← Option.some.inj built]
    rfl

/-- A document of Rust settings asks for a number of bytes on a line, and zero counts as one. -/
theorem RustWriter.bytesPerLine_of_ofTree? {depth : Nat} {reading : Reading} {tree : Tree}
    {writer : RustWriter} (accepted : RustWriter.ofTree? (depth + 1) reading tree = some writer) :
    ∃ count, requestedBytes? settings depth reading tree = some count ∧
      writer.bytesPerLine = max count.toNat 1 := by
  simp only [RustWriter.ofTree?, Option.bind_eq_bind, Option.bind_eq_some_iff] at accepted
  obtain ⟨members, listed, _, -, _, -, _, -, count, asked, built⟩ := accepted
  refine ⟨count, ?_, ?_⟩
  · rw [requestedBytes?, settings, listed]
    exact asked
  · rw [← Option.some.inj built]
    rfl

namespace Writer

/-- The writers that can be come by, with the number of bytes on a line that was asked for
last. Every document of settings asks for some number, so it is no restriction to name it:
`exists_configured_of_document`. -/
inductive Configured : Nat → Writer → Prop where
  | standard (target : Target) : Configured 8 (Writer.standard target)
  | goDocument {depth : Nat} {reading : Reading} {tree : Tree} {writer : GoWriter} {count : UInt64}
      (accepted : GoWriter.ofTree? (depth + 1) reading tree = some writer)
      (asked : requestedBytes? GoWriter.settings depth reading tree = some count) :
      Configured count.toNat (.go writer)
  | rustDocument {depth : Nat} {reading : Reading} {tree : Tree} {writer : RustWriter}
      {count : UInt64} (accepted : RustWriter.ofTree? (depth + 1) reading tree = some writer)
      (asked : requestedBytes? RustWriter.settings depth reading tree = some count) :
      Configured count.toNat (.rust writer)
  | goHandlesVariable {count : Nat} {writer : GoWriter} (earlier : Configured count (.go writer))
      (name : String) : Configured count (.go (writer.withHandlesVariable name))
  | goDefinitionsVariable {count : Nat} {writer : GoWriter}
      (earlier : Configured count (.go writer)) (name : String) :
      Configured count (.go (writer.withDefinitionsVariable name))
  | runtimePackage {count : Nat} {writer : GoWriter} (earlier : Configured count (.go writer))
      (name : String) : Configured count (.go (writer.withRuntimePackage name))
  | kernelPackage {count : Nat} {writer : GoWriter} (earlier : Configured count (.go writer))
      (name : String) : Configured count (.go (writer.withKernelPackage name))
  | goBytesPerLine {earlierCount : Nat} {writer : GoWriter}
      (earlier : Configured earlierCount (.go writer)) (count : Nat) :
      Configured count (.go (writer.withBytesPerLine count))
  | rustHandlesVariable {count : Nat} {writer : RustWriter}
      (earlier : Configured count (.rust writer)) (name : String) :
      Configured count (.rust (writer.withHandlesVariable name))
  | rustDefinitionsVariable {count : Nat} {writer : RustWriter}
      (earlier : Configured count (.rust writer)) (name : String) :
      Configured count (.rust (writer.withDefinitionsVariable name))
  | runtimeCrate {count : Nat} {writer : RustWriter} (earlier : Configured count (.rust writer))
      (name : String) : Configured count (.rust (writer.withRuntimeCrate name))
  | rustBytesPerLine {earlierCount : Nat} {writer : RustWriter}
      (earlier : Configured earlierCount (.rust writer)) (count : Nat) :
      Configured count (.rust (writer.withBytesPerLine count))

/-- The number of bytes that a writer puts on a line. -/
def bytesPerLine : Writer → Nat
  | .go writer => writer.bytesPerLine
  | .rust writer => writer.bytesPerLine

/-- Every document of settings configures a writer. -/
theorem exists_configured_of_document {depth : Nat} {reading : Reading} {tree : Tree} :
    (∀ writer, GoWriter.ofTree? depth reading tree = some writer →
      ∃ count, Configured count (.go writer)) ∧
    ∀ writer, RustWriter.ofTree? depth reading tree = some writer →
      ∃ count, Configured count (.rust writer) := by
  cases depth with
  | zero => exact ⟨fun _ accepted => (nomatch accepted), fun _ accepted => (nomatch accepted)⟩
  | succ depth =>
    constructor
    · intro writer accepted
      obtain ⟨count, asked, -⟩ := GoWriter.bytesPerLine_of_ofTree? accepted
      exact ⟨_, .goDocument accepted asked⟩
    · intro writer accepted
      obtain ⟨count, asked, -⟩ := RustWriter.bytesPerLine_of_ofTree? accepted
      exact ⟨_, .rustDocument accepted asked⟩

/-- However a writer was come by, its lines are as wide as was asked for last. -/
theorem Configured.bytesPerLine_eq {count : Nat} {writer : Writer}
    (configured : Configured count writer) : writer.bytesPerLine = max count 1 := by
  induction configured with
  | standard target => cases target <;> rfl
  | goDocument accepted asked =>
    obtain ⟨count, requested, width⟩ := GoWriter.bytesPerLine_of_ofTree? accepted
    rw [Option.some.inj (asked.symm.trans requested)]
    exact width
  | rustDocument accepted asked =>
    obtain ⟨count, requested, width⟩ := RustWriter.bytesPerLine_of_ofTree? accepted
    rw [Option.some.inj (asked.symm.trans requested)]
    exact width
  | goHandlesVariable _ _ inductionHypothesis | goDefinitionsVariable _ _ inductionHypothesis
  | runtimePackage _ _ inductionHypothesis | kernelPackage _ _ inductionHypothesis
  | rustHandlesVariable _ _ inductionHypothesis | rustDefinitionsVariable _ _ inductionHypothesis
  | runtimeCrate _ _ inductionHypothesis => exact inductionHypothesis
  | goBytesPerLine _ count | rustBytesPerLine _ count => rfl

/-- The content of an unknown field. -/
def unknownData : Writer → UnknownData → String
  | .go writer => writer.unknownData
  | .rust writer => writer.unknownData

/-- The content of an unknown field, given the text of its bytes. -/
def unknownDataWith (bytes : String) (handles : List UInt64) : Writer → String
  | .go writer =>
    GoWriter.composite (writer.runtimePackage ++ ".UnknownData")
      ["Bytes: " ++ bytes, "Handles: " ++ writer.handleInfos handles]
  | .rust writer =>
    block "UnknownData \x7b"
      ["bytes: " ++ bytes, "handles: " ++ block "vec![" (handles.map writer.handleInfo) "]"] "\x7d"

/-- What stands in front of expected bytes. -/
def expectedOpener : Target → String
  | .go => "[]byte\x7b"
  | .rust => "&["

/-- What stands in front of the bytes of an unknown field. -/
def unknownOpener : Target → String
  | .go => "[]byte\x7b"
  | .rust => "vec!["

/-- What stands behind bytes. -/
def byteCloser : Target → String
  | .go => "\x7d"
  | .rust => "]"

/-- However a writer was come by, it lays out all bytes, those that are expected and those of
unknown fields, with as many on a line as was asked for last, and at least one. -/
theorem byte_blocks_laid_out {count : Nat} {writer : Writer}
    (configured : Configured count writer) :
    1 ≤ writer.bytesPerLine ∧ writer.bytesPerLine = max count 1 ∧
      (∀ bytes, LaidOut writer.bytesPerLine (expectedOpener writer.target)
        (byteCloser writer.target) bytes (writer.bytes bytes)) ∧
      ∀ data, ∃ text, LaidOut writer.bytesPerLine (unknownOpener writer.target)
        (byteCloser writer.target) data.bytes text ∧
          writer.unknownData data = unknownDataWith text data.handles writer := by
  have width := configured.bytesPerLine_eq
  have positive : 0 < writer.bytesPerLine := by omega
  refine ⟨positive, width, fun bytes => ?_, fun data => ?_⟩
  · cases writer with
    | go writer => exact laidOut_byteBlock positive _ _ bytes
    | rust writer => exact laidOut_byteBlock positive _ _ bytes
  · refine ⟨byteBlock writer.bytesPerLine (unknownOpener writer.target) data.bytes
      (byteCloser writer.target), laidOut_byteBlock positive _ _ data.bytes, ?_⟩
    cases writer with
    | go writer => rfl
    | rust writer => rfl

/-- Three bytes in lines of two, by a writer that was asked for none on a line before. -/
theorem byte_blocks_laid_out_pairs :
    LaidOut 2 "&[" "]" [0x0a, 0xff, 0x00] "&[\n0x0a, 0xff,\n0x00,\n]" := by
  have lines : byteLines 2 [0x0a, 0xff, 0x00] = [[0x0a, 0xff], [0x00]] := by simp [byteLines]
  have text : byteBlock 2 "&[" [0x0a, 0xff, 0x00] "]" = "&[\n0x0a, 0xff,\n0x00,\n]" := by
    rw [byteBlock, lines]
    · decide
    · exact List.cons_ne_nil _ _
  have laid := (byte_blocks_laid_out
    (.rustBytesPerLine (.rustBytesPerLine (.standard .rust) 0) 2)).2.2.1 [0x0a, 0xff, 0x00]
  exact text ▸ laid

end Writer

end FixtureLiterals
