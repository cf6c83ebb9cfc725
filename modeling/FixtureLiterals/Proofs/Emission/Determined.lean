import FixtureLiterals.Proofs.Emission.Go
import FixtureLiterals.Proofs.Emission.Rust

/-!
# Written values determine their literals

Each of the two standard writers keeps apart whatever it is meant to keep apart. Where the
names in a declaration can be told apart, values that are written alike have been fitted to
literals that differ in nothing but what the target leaves out.
-/

namespace FixtureLiterals

open Emission

/-- Both standard writers reveal literals node by node. -/
theorem revealsNodes_standard (environment : Environment) (target : Target) :
    RevealsNodes environment target (Writer.standard target).expression := by
  cases target with
  | go => exact GoWriter.revealsNodes
  | rust => exact RustWriter.revealsNodes

/-- Both standard writers reveal the literals of readable declarations. -/
theorem revealsLiterals_standard {environment : Environment} (target : Target)
    {declaration : Declaration} (readable : declaration.All (Readable target)) :
    RevealsLiterals environment target (Writer.standard target).expression declaration :=
  (revealsNodes_standard environment target).revealsLiterals readable

/-- Values that are written alike have been fitted to literals that are alike. -/
theorem alike_of_encode_eq (target : Target) (handles : HandleTable) {declaration : Declaration}
    (readable : declaration.All (Readable target)) {first second : Value}
    {written spelled : Literal}
    (fits : (Writer.standard target).fit handles declaration first = .ok written)
    (suits : (Writer.standard target).fit handles declaration second = .ok spelled)
    (same : (Writer.standard target).encode handles declaration first =
      (Writer.standard target).encode handles declaration second) :
    Alike target written spelled := by
  have reveals := revealsLiterals_standard target readable written spelled
    (Literal.wellFormed_of_fit fits) (Literal.wellFormed_of_fit suits)
  have texts : (Writer.standard target).expression written =
      (Writer.standard target).expression spelled := by
    rw [Writer.encode, Writer.encode, fits, suits] at same
    exact Except.ok.inj same
  -- Both expressions stand alone, so nothing is behind either of them.
  exact (reveals [] [] nofun nofun (by rw [texts])).1

/-- In Go, tables are written alike if they differ in the rights that they ask for on a
channel, and in the sign in which a number was written. -/
theorem alike_of_encode_eq_table :
    let declaration : Declaration := .record ⟨"lib/Sample", .table, false, .resource, .flexible⟩
      [⟨"peer", 1, .handle .channel ⟨0⟩ false⟩, ⟨"count", 2, .primitive .uint8⟩]
    let handles : HandleTable := [⟨.channel, ⟨0⟩⟩]
    let first : Value := .record [Value.named "peer" (.handle ⟨0, none⟩),
      Value.named "count" (.integer (.signed 7))]
    let second : Value := .record [Value.named "peer" (.handle ⟨0, some ⟨1⟩⟩),
      Value.named "count" (.integer (.unsigned 7))]
    (Writer.standard .go).encode handles declaration first =
        (Writer.standard .go).encode handles declaration second ∧
      Alike .go
        (.table ⟨["lib"], "Sample"⟩ false [("peer", .handle 0 .channel none),
          ("count", .integer (.signed 7) .uint8)] [])
        (.table ⟨["lib"], "Sample"⟩ false [("peer", .handle 0 .channel (some ⟨1⟩)),
          ("count", .integer (.unsigned 7) .uint8)] []) := by
  intro declaration handles first second
  have readable : declaration.All (Readable .go) := ⟨by decide, trivial, trivial, trivial⟩
  have fits : (Writer.standard .go).fit handles declaration first = .ok
      (.table ⟨["lib"], "Sample"⟩ false [("peer", .handle 0 .channel none),
        ("count", .integer (.signed 7) .uint8)] []) := rfl
  have suits : (Writer.standard .go).fit handles declaration second = .ok
      (.table ⟨["lib"], "Sample"⟩ false [("peer", .handle 0 .channel (some ⟨1⟩)),
        ("count", .integer (.unsigned 7) .uint8)] []) := rfl
  have same : (Writer.standard .go).encode handles declaration first =
      (Writer.standard .go).encode handles declaration second := rfl
  exact ⟨same, alike_of_encode_eq .go handles readable fits suits same⟩

end FixtureLiterals
