import CurlyScript.Location
import CurlyScript.Segmentation
import CurlyScript.Session

namespace CurlyScript

/-- A source that was read as the statements of one outermost block. Its tokens are those of the
    source between the two brackets of that block, which the source does not contain. -/
structure Script where
  tokens : TokenStream
  root : Node

namespace Script

/-- The tokens of a source as those of a block. -/
def enclose (source : List Token) : TokenStream :=
  (.symbol .openCurly :: (source ++ [.symbol .closeCurly])).toArray

/-- Reads the outermost block. A closing bracket too many in the source ends it early, and then the
    token after it is in excess. -/
def rootOf (limit : Nat) (tokens : TokenStream) : Except ParseError Node × Journal :=
  let (outcome, session) := Session.parse ⟨tokens, limit, {}⟩ ⟨0, none⟩
  let root := outcome.bind fun parsed =>
    match tokens.describe? parsed.cursor.token with
    | none => .ok parsed.node
    | some extra => .error (.malformed ⟨.unexpected (some extra), parsed.cursor.token⟩)
  (root, session.journal)

/-- Parses a source and tells what happened on the way. An empty source has no block: its root is
    the empty node. -/
def parseLogged (limit : Nat) (source : String) : Except ParseError Script × Array Event :=
  let body := tokenize source
  let tokens := enclose body
  let (root, journal) :=
    if body.isEmpty then (.ok (.empty ⟨0, tokens.size⟩), {}) else rootOf limit tokens
  match root with
  | .ok root =>
    (.ok ⟨tokens, root⟩, (journal.log (.finished tokens.size root.children.length)).events)
  | .error error => (.error error, journal.events)

/-- Parses a source that may nest to a limit. -/
def parse (limit : Nat) (source : String) : Except ParseError Script :=
  (parseLogged limit source).1

/-- Where in the source a token of the script starts. The opening bracket, which is not in the
    source, is left out of the count. -/
def locate (script : Script) (index : Nat) : Location :=
  CurlyScript.locate (script.tokens.toList.drop 1) (index - 1)

end Script

end CurlyScript
