import FixtureLiterals.Document.Reading
import FixtureLiterals.Handle

/-!
# Handles in documents

Rights are written as the number of their bits. Handle definitions and dispositions
are structures all of whose members are required, and a handle table is the array of
its definitions.
-/

namespace FixtureLiterals

open Document

instance : Documented Rights where
  ofTree? depth reading tree := (Documented.ofTree? depth reading tree).map Rights.mk
  toTree rights := Documented.toTree rights.bits

instance : Documented HandleDefinition where
  ofTree?
    | 0, _, _ => none
    | depth + 1, reading, tree => do
      let members ← members? ["subtype", "rights"] tree
      return {
        subtype := ← members.required "subtype" (Documented.ofTree? depth reading)
        rights := ← members.required "rights" (Documented.ofTree? depth reading)
      }
  toTree definition := ofMembers [
    ("subtype", Documented.toTree definition.subtype),
    ("rights", Documented.toTree definition.rights)]

instance : Documented HandleDisposition where
  ofTree?
    | 0, _, _ => none
    | depth + 1, reading, tree => do
      let members ← members? ["handle", "subtype", "rights"] tree
      return {
        handle := ← members.required "handle" (Documented.ofTree? depth reading)
        subtype := ← members.required "subtype" (Documented.ofTree? depth reading)
        rights := ← members.required "rights" (Documented.ofTree? depth reading)
      }
  toTree disposition := ofMembers [
    ("handle", Documented.toTree disposition.handle),
    ("subtype", Documented.toTree disposition.subtype),
    ("rights", Documented.toTree disposition.rights)]

end FixtureLiterals
