namespace CurlyScript

/-- The characters that open and close a quoted string. -/
inductive Quote where
  | single
  | double
  | back
  deriving DecidableEq, Repr

/-- Every character with a meaning of its own. All other characters are part of some text. -/
inductive Symbol where
  | equal
  | add
  | sub
  | mul
  | div
  | pow
  | mod
  | semiColon
  | comma
  | period
  | colon
  | openParen
  | closeParen
  | openSquare
  | closeSquare
  | openCurly
  | closeCurly
  | leftChevron
  | rightChevron
  | backslash
  | singleQuote
  | doubleQuote
  | backQuote
  | space
  | newline
  deriving DecidableEq, Repr

/-- The character that delimits a string of this kind. -/
def Quote.char : Quote → Char
  | .single => '\''
  | .double => '"'
  | .back => '\x60'

namespace Symbol

/-- The symbols in the order of their table. -/
def all : List Symbol :=
  [.equal, .add, .sub, .mul, .div, .pow, .mod, .semiColon, .comma, .period, .colon,
    .openParen, .closeParen, .openSquare, .closeSquare, .openCurly, .closeCurly,
    .leftChevron, .rightChevron, .backslash, .singleQuote, .doubleQuote, .backQuote,
    .space, .newline]

/-- The character that a symbol stands for. -/
def char : Symbol → Char
  | .equal => '='
  | .add => '+'
  | .sub => '-'
  | .mul => '*'
  | .div => '/'
  | .pow => '^'
  | .mod => '%'
  | .semiColon => ';'
  | .comma => ','
  | .period => '.'
  | .colon => ':'
  | .openParen => '('
  | .closeParen => ')'
  | .openSquare => '['
  | .closeSquare => ']'
  | .openCurly => '{'
  | .closeCurly => '}'
  | .leftChevron => '<'
  | .rightChevron => '>'
  | .backslash => '\\'
  | .singleQuote => '\''
  | .doubleQuote => '"'
  | .backQuote => '\x60'
  | .space => ' '
  | .newline => '\n'

/-- The name that listings give to a symbol. -/
def name : Symbol → String
  | .equal => "Equal"
  | .add => "Add"
  | .sub => "Sub"
  | .mul => "Mul"
  | .div => "Div"
  | .pow => "Pow"
  | .mod => "Mod"
  | .semiColon => "SemiColon"
  | .comma => "Comma"
  | .period => "Period"
  | .colon => "Colon"
  | .openParen => "OpenParen"
  | .closeParen => "CloseParen"
  | .openSquare => "OpenSquare"
  | .closeSquare => "CloseSquare"
  | .openCurly => "OpenCurly"
  | .closeCurly => "CloseCurly"
  | .leftChevron => "LeftChevron"
  | .rightChevron => "RightChevron"
  | .backslash => "Backslash"
  | .singleQuote => "SingleQuote"
  | .doubleQuote => "DoubleQuote"
  | .backQuote => "BackQuote"
  | .space => "Space"
  | .newline => "Newline"

/-- The symbol of a character, if the character has one. -/
def ofChar? (c : Char) : Option Symbol :=
  all.find? (·.char == c)

/-- Only these two characters are whitespace: a tab is part of the text around it. -/
def isWhitespace : Symbol → Bool
  | .space | .newline => true
  | _ => false

/-- The kind of string that a symbol opens and closes. -/
def quote? : Symbol → Option Quote
  | .singleQuote => some .single
  | .doubleQuote => some .double
  | .backQuote => some .back
  | _ => none

/-- Chevrons are not brackets: an arrow ends in one and nothing closes it. -/
def isOpeningBracket : Symbol → Bool
  | .openParen | .openSquare | .openCurly => true
  | _ => false

def isClosingBracket : Symbol → Bool
  | .closeParen | .closeSquare | .closeCurly => true
  | _ => false

theorem mem_all (s : Symbol) : s ∈ all := by
  cases s <;> decide

theorem ofChar?_char (s : Symbol) : ofChar? s.char = some s := by
  cases s <;> decide

theorem char_of_ofChar? {c : Char} {s : Symbol} (h : ofChar? c = some s) : s.char = c := by
  have hfound := List.find?_some h
  simpa using hfound

/-- A character determines its symbol, so a symbol can be written by its character alone. -/
theorem char_injective {s t : Symbol} (h : s.char = t.char) : s = t := by
  have hs := ofChar?_char s
  rw [h, ofChar?_char t] at hs
  exact (Option.some.inj hs).symm

end Symbol

end CurlyScript
