import CurlyScript.Token

namespace CurlyScript

/-- A place in a source, as people count it: lines and columns from one. -/
structure Location where
  line : Nat := 1
  column : Nat := 1
  deriving DecidableEq, Repr

/-- The place after one more character. -/
def Location.advance (location : Location) (c : Char) : Location :=
  if c = '\n' then ⟨location.line + 1, 1⟩ else ⟨location.line, location.column + 1⟩

/-- The place where the token of an index starts, or just after the last token when the index
    lies past the end. -/
def locate (tokens : List Token) (index : Nat) : Location :=
  ((tokens.take index).flatMap (·.raw.toList)).foldl Location.advance {}

end CurlyScript
