import CurlyScript.Token

namespace CurlyScript

/-- Operators combine, so that several of them in a row are one piece of text. -/
def isCombining (c : Char) : Bool :=
  ['=', '+', '-', '*', '/', '^', '%'].contains c

/-- Delimiters separate. The marks '!' and '?' do so too, although they are no symbols. -/
def isSeparating (c : Char) : Bool :=
  [';', ',', '.', ':', '!', '?', '(', ')', '[', ']', '{', '}', '<', '>', '\\', '\'', '"', '\x60',
    ' ', '\n'].contains c

/-- What is kept while a source is read: the pieces that are complete, the characters of the piece
    that is not, and whether these are operators. -/
structure Lexer where
  raw : Array String := #[]
  buffer : String := ""
  combining : Bool := false
  deriving DecidableEq, Repr

namespace Lexer

/-- The piece that is being read is complete, if there is one. -/
def flush (lexer : Lexer) : Lexer :=
  if lexer.buffer.isEmpty then { lexer with combining := false }
  else { raw := lexer.raw.push lexer.buffer, buffer := "", combining := false }

/-- Reads a character. An operator goes on with operators, and any other character that does not
    separate goes on with such characters. -/
def step (lexer : Lexer) (c : Char) : Lexer :=
  if isCombining c then
    let lexer := if lexer.combining then lexer else lexer.flush
    { lexer with buffer := lexer.buffer.push c, combining := true }
  else if isSeparating c then
    let lexer := lexer.flush
    { lexer with raw := lexer.raw.push c.toString }
  else
    let lexer := if lexer.combining then lexer.flush else lexer
    { lexer with buffer := lexer.buffer.push c }

/-- The pieces there are once all characters are read. -/
def run (lexer : Lexer) (chars : List Char) : List String :=
  (chars.foldl step lexer).flush.raw.toList

end Lexer

/-- The pieces of a source, in order. -/
def split (source : String) : List String :=
  Lexer.run {} source.toList

/-- The tokens of a source, one for each piece. -/
def tokenize (source : String) : List Token :=
  (split source).map Token.classify

end CurlyScript
