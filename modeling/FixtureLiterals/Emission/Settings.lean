import FixtureLiterals.Document.Reading

/-!
# Writers and their settings

A writer for a target knows how the surrounding test spells the things that a literal
refers to: the variables that hold the handles and their definitions, and the packages
of the bindings' runtime. It also knows how many bytes go on a line, which is never
none: a setting of zero counts as one.

In documents the settings are a structure whose members may all be left out.
-/

namespace FixtureLiterals

open Document

/-- The settings of Go texts. -/
structure GoWriter where
  /-- The variable that holds the created handles. -/
  handlesVariable : String
  /-- The variable that holds the handle definitions. -/
  definitionsVariable : String
  /-- The package of the bindings' runtime. -/
  runtimePackage : String
  /-- The package of the kernel's interface. -/
  kernelPackage : String
  bytesPerLine : Nat
  bytesPerLine_pos : 0 < bytesPerLine

/-- The settings that hold where nothing else is asked for. -/
def GoWriter.standard : GoWriter where
  handlesVariable := "handles"
  definitionsVariable := "handleDefs"
  runtimePackage := "fidl"
  kernelPackage := "zx"
  bytesPerLine := 8
  bytesPerLine_pos := Nat.succ_pos 7

/-- The settings of Rust texts. -/
structure RustWriter where
  /-- The variable that holds the created handles. -/
  handlesVariable : String
  /-- The variable that holds the handle definitions. -/
  definitionsVariable : String
  /-- The crate of the bindings' runtime. -/
  runtimeCrate : String
  bytesPerLine : Nat
  bytesPerLine_pos : 0 < bytesPerLine

/-- The settings that hold where nothing else is asked for. -/
def RustWriter.standard : RustWriter where
  handlesVariable := "handles"
  definitionsVariable := "handle_defs"
  runtimeCrate := "fidl"
  bytesPerLine := 8
  bytesPerLine_pos := Nat.succ_pos 7

namespace GoWriter

/-- The same writer with another variable for the handles. -/
def withHandlesVariable (writer : GoWriter) (name : String) : GoWriter :=
  { writer with handlesVariable := name }

/-- The same writer with another variable for the handle definitions. -/
def withDefinitionsVariable (writer : GoWriter) (name : String) : GoWriter :=
  { writer with definitionsVariable := name }

/-- The same writer with another package for the bindings' runtime. -/
def withRuntimePackage (writer : GoWriter) (name : String) : GoWriter :=
  { writer with runtimePackage := name }

/-- The same writer with another package for the kernel's interface. -/
def withKernelPackage (writer : GoWriter) (name : String) : GoWriter :=
  { writer with kernelPackage := name }

/-- The same writer with another number of bytes on a line. -/
def withBytesPerLine (writer : GoWriter) (count : Nat) : GoWriter :=
  { writer with
    bytesPerLine := max count 1
    bytesPerLine_pos := Nat.le_max_right count 1 }

end GoWriter

namespace RustWriter

/-- The same writer with another variable for the handles. -/
def withHandlesVariable (writer : RustWriter) (name : String) : RustWriter :=
  { writer with handlesVariable := name }

/-- The same writer with another variable for the handle definitions. -/
def withDefinitionsVariable (writer : RustWriter) (name : String) : RustWriter :=
  { writer with definitionsVariable := name }

/-- The same writer with another crate for the bindings' runtime. -/
def withRuntimeCrate (writer : RustWriter) (name : String) : RustWriter :=
  { writer with runtimeCrate := name }

/-- The same writer with another number of bytes on a line. -/
def withBytesPerLine (writer : RustWriter) (count : Nat) : RustWriter :=
  { writer with
    bytesPerLine := max count 1
    bytesPerLine_pos := Nat.le_max_right count 1 }

end RustWriter

/-- A setting that may be left out. -/
def settingOr {α : Type} [Documented α] (depth : Nat) (reading : Reading) (members : Members)
    (name : String) (default : α) : Option α :=
  members.withDefault name default (Documented.ofTree? depth reading)

/-- A Go writer with the settings of a document. -/
def GoWriter.ofTree? : Nat → Reading → Tree → Option GoWriter
  | 0, _, _ => none
  | depth + 1, reading, tree => do
    let members ← members? ["handles_var", "handle_defs_var", "fidl_package", "zx_package",
      "bytes_per_line"] tree
    let standard := GoWriter.standard
    let handlesVariable ←
      settingOr depth reading members "handles_var" standard.handlesVariable
    let definitionsVariable ←
      settingOr depth reading members "handle_defs_var" standard.definitionsVariable
    let runtimePackage ← settingOr depth reading members "fidl_package" standard.runtimePackage
    let kernelPackage ← settingOr depth reading members "zx_package" standard.kernelPackage
    let bytesPerLine ←
      settingOr depth reading members "bytes_per_line" (UInt64.ofNat standard.bytesPerLine)
    return { standard with handlesVariable, definitionsVariable, runtimePackage, kernelPackage }
      |>.withBytesPerLine bytesPerLine.toNat

/-- A Rust writer with the settings of a document. -/
def RustWriter.ofTree? : Nat → Reading → Tree → Option RustWriter
  | 0, _, _ => none
  | depth + 1, reading, tree => do
    let members ← members? ["handles_var", "handle_defs_var", "fidl_crate", "bytes_per_line"] tree
    let standard := RustWriter.standard
    let handlesVariable ←
      settingOr depth reading members "handles_var" standard.handlesVariable
    let definitionsVariable ←
      settingOr depth reading members "handle_defs_var" standard.definitionsVariable
    let runtimeCrate ← settingOr depth reading members "fidl_crate" standard.runtimeCrate
    let bytesPerLine ←
      settingOr depth reading members "bytes_per_line" (UInt64.ofNat standard.bytesPerLine)
    return { standard with handlesVariable, definitionsVariable, runtimeCrate }
      |>.withBytesPerLine bytesPerLine.toNat

end FixtureLiterals
