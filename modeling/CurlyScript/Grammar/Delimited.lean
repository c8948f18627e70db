import CurlyScript.Grammar.Attempt

namespace CurlyScript

/-- What stands between the items of a list and what ends it. -/
structure Delimiters where
  separator : Symbol
  closer : Symbol
  deriving DecidableEq, Repr

namespace Delimiters

/-- Statements of a block. -/
def statements : Delimiters :=
  ⟨.semiColon, .closeCurly⟩

/-- Arguments of a call. -/
def arguments : Delimiters :=
  ⟨.comma, .closeParen⟩

/-- How a message names the two. -/
def expected (delimiters : Delimiters) : String :=
  delimiters.separator.char.toString ++ " or " ++ delimiters.closer.char.toString

/-- Whether one of the two stands at an index. -/
def seenAt (delimiters : Delimiters) (ts : TokenStream) (i : Nat) : Bool :=
  ts.sees i delimiters.separator || ts.sees i delimiters.closer

/-- Rejects a list that does not go on at an index. -/
def missing {α : Type} (delimiters : Delimiters) (ts : TokenStream) (i : Nat) : Attempt α :=
  .reject (.expectedSeparator delimiters.expected (ts.describe? i)) i

/-- Reads the items of a list from inside its brackets, through the closing one. Separators may be
    repeated and may stand at either end, but two items need one between them. The closer of this
    list cannot be mistaken for another, since every item is read on its own. Every round consumes
    a token, so a list that has used up a `budget` of all the tokens left is at the end of the
    input. The items found so far are kept with the latest first. -/
def items (delimiters : Delimiters) (ts : TokenStream) :
    (budget : Nat) → Cursor → List Node → Attempt (List Node × Cursor)
  | 0, cursor, _ => delimiters.missing ts cursor.token
  | budget + 1, cursor, found => do
    let cursor := cursor.skipBlanks ts
    match ts[cursor.token]? with
    | none => delimiters.missing ts cursor.token
    | some token =>
      if token.is delimiters.separator then
        delimiters.items ts budget (cursor.advance token) found
      else if token.is delimiters.closer then
        return (found.reverse, cursor.advance token)
      else
        let item ← Attempt.require ⟨cursor.token, none⟩
        let cursor := (cursor.moveTo item.cursor.token).skipBlanks ts
        if delimiters.seenAt ts cursor.token then
          delimiters.items ts budget cursor (item.node :: found)
        else
          delimiters.missing ts cursor.token

/-- Reads a whole list from just after its opening bracket. -/
def read (delimiters : Delimiters) (ts : TokenStream) (cursor : Cursor) :
    Attempt (List Node × Cursor) :=
  delimiters.items ts (ts.size - cursor.token) cursor []

end Delimiters

end CurlyScript
