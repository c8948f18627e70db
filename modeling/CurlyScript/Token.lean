import CurlyScript.Symbol

namespace CurlyScript

/-- One lexical unit of a script: a symbol, or a run of other characters. -/
inductive Token where
  | text (content : String)
  | symbol (symbol : Symbol)
  deriving DecidableEq, Repr

/-- The three columns of a token listing. -/
inductive TokenKind where
  | text
  | symbol
  | whitespace
  deriving DecidableEq, Repr

/-- The name that listings give to a kind of token. -/
def TokenKind.name : TokenKind → String
  | .text => "Text"
  | .symbol => "Symbol"
  | .whitespace => "Whitespace"

namespace Token

def kind : Token → TokenKind
  | .text _ => .text
  | .symbol s => if s.isWhitespace then .whitespace else .symbol

def symbol? : Token → Option Symbol
  | .text _ => none
  | .symbol s => some s

def text? : Token → Option String
  | .text content => some content
  | .symbol _ => none

/-- A token is a symbol only by being that symbol: text that spells it does not count. -/
def is (token : Token) (s : Symbol) : Bool :=
  token.symbol? == some s

def isWhitespace (token : Token) : Bool :=
  token.kind == .whitespace

/-- The kind of string that a token opens and closes. -/
def quote? (token : Token) : Option Quote :=
  token.symbol?.bind Symbol.quote?

/-- The characters of the script that a token was read from. -/
def raw : Token → String
  | .text content => content
  | .symbol s => s.char.toString

/-- How a message names a token. Whitespace is spelled out, since it would not be seen. -/
def describe : Token → String
  | .text content => "token " ++ content
  | .symbol .space => "space"
  | .symbol .newline => "newline"
  | .symbol s => s.char.toString

/-- One line of a token listing, without its end. -/
def listing (token : Token) : String :=
  let shown := match token with
    | .text content => content
    | .symbol s => s.name
  "token<" ++ token.kind.name ++ ">\x7b " ++ shown ++ " \x7d"

/-- A single character with a symbol of its own becomes that symbol. Everything else is text,
    also a run of several operator characters. -/
def classify (raw : String) : Token :=
  match raw.toList with
  | [c] => match Symbol.ofChar? c with
    | some s => .symbol s
    | none => .text raw
  | _ => .text raw

theorem is_iff {token : Token} {s : Symbol} : token.is s = true ↔ token = .symbol s := by
  cases token <;> simp [is, symbol?]

theorem raw_classify (raw : String) : (classify raw).raw = raw := by
  unfold classify
  split
  · next c hchars =>
    split
    · next s hs =>
      have hraw : raw = String.ofList [c] := by rw [← hchars, String.ofList_toList]
      rw [Token.raw, Symbol.char_of_ofChar? hs, hraw]
      rfl
    · rfl
  · rfl

end Token

end CurlyScript
