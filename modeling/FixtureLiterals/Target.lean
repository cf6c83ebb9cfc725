import FixtureLiterals.Text.Vocabulary

/-!
# Targets

A target is a language that fixtures are written in. It is chosen by its word, and a
word that names no target is reported together with those that do.
-/

namespace FixtureLiterals

/-- A language that fixtures are written in. -/
inductive Target where
  | go
  | rust
deriving DecidableEq, Repr

/-- A word that names no target. -/
structure UnknownTarget where
  word : String
deriving DecidableEq, Repr

namespace Target

/-- The word of a target. -/
def word : Target → String
  | .go => "go"
  | .rust => "rust"

instance : Text.Vocabulary Target where
  all := [.go, .rust]
  word := word
  mem_all := by intro member; cases member <;> decide
  distinct := by decide

/-- The target that a word names. -/
def ofWord (text : String) : Except UnknownTarget Target :=
  match Text.Vocabulary.ofWord? text with
  | some target => .ok target
  | none => .error ⟨text⟩

end Target

/-- The wording for a word that names no target. -/
def UnknownTarget.message (unknown : UnknownTarget) : String :=
  "unknown target `" ++ unknown.word ++ "` (expected one of: " ++
    ", ".intercalate ((Text.Vocabulary.all : List Target).map Target.word) ++ ")"

end FixtureLiterals
