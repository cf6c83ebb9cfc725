import FixtureLiterals.Text.Numeral

/-!
# Blocks of lines

A block stands between an opener and a closer. Without content the two touch; with
content each item gets lines of its own and ends in a comma. Bytes are the exception: a
line takes as many of them as the settings say, divided by spaces.
-/

namespace FixtureLiterals.Emission

/-- Items between an opener and a closer, each on lines of its own. -/
def block (opener : String) (items : List String) (closer : String) : String :=
  match items with
  | [] => opener ++ closer
  | _ => opener ++ "\n" ++ String.join (items.map fun item => item ++ ",\n") ++ closer

/-- Bytes in lines of a positive width; only the last line may be shorter. -/
def byteLines (width : Nat) (bytes : List UInt8) : List (List UInt8) :=
  match bytes with
  | [] => []
  | first :: rest => (first :: rest.take (width - 1)) :: byteLines width (rest.drop (width - 1))
termination_by bytes.length
decreasing_by
  simp only [List.length_drop, List.length_cons]
  omega

/-- One byte and its comma. -/
def byteItem (byte : UInt8) : String := "0x" ++ Text.paddedHexadecimal 2 byte.toNat ++ ","

/-- One line of bytes. -/
def byteLine (bytes : List UInt8) : String := " ".intercalate (bytes.map byteItem) ++ "\n"

/-- Bytes between an opener and a closer, `width` of them on each line. -/
def byteBlock (width : Nat) (opener : String) (bytes : List UInt8) (closer : String) : String :=
  match bytes with
  | [] => opener ++ closer
  | _ => opener ++ "\n" ++ String.join ((byteLines width bytes).map byteLine) ++ closer

end FixtureLiterals.Emission
