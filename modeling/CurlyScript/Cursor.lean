import CurlyScript.Token

namespace CurlyScript

/-- A reading position in a token stream, with what has been opened on the way there: the
    brackets outside strings that are still open, and the string that is still open. -/
structure Cursor where
  token : Nat := 0
  depth : Nat := 0
  quote : Option Quote := none
  deriving DecidableEq, Repr

namespace Cursor

/-- A cursor that has seen nothing yet. -/
def fresh (token : Nat) : Cursor :=
  { token }

def insideQuote (cursor : Cursor) : Bool :=
  cursor.quote.isSome

/-- A quote opens a string, and only a quote of the same kind closes it. -/
def toggle (opened : Option Quote) (quote : Quote) : Option Quote :=
  match opened with
  | none => some quote
  | some inner => if inner = quote then none else some inner

/-- Takes note of a symbol. Brackets inside a string are not counted, and a closing bracket with
    nothing open changes nothing. -/
def accountSymbol (cursor : Cursor) (s : Symbol) : Cursor :=
  let quote := match s.quote? with
    | some q => toggle cursor.quote q
    | none => cursor.quote
  let depth :=
    if quote.isSome then cursor.depth
    else if s.isOpeningBracket then cursor.depth + 1
    else if s.isClosingBracket then cursor.depth - 1
    else cursor.depth
  { cursor with depth, quote }

/-- Takes note of what a token opens or closes, without moving. -/
def account (cursor : Cursor) (token : Token) : Cursor :=
  match token.symbol? with
  | none => cursor
  | some s => cursor.accountSymbol s

/-- Moves past the token at the cursor without taking note of it. -/
def skip (cursor : Cursor) : Cursor :=
  { cursor with token := cursor.token + 1 }

/-- Moves past a token and takes note of it. -/
def advance (cursor : Cursor) (token : Token) : Cursor :=
  cursor.skip.account token

/-- Moves past a part that was read on its own and left nothing open. -/
def moveTo (cursor : Cursor) (token : Nat) : Cursor :=
  { cursor with token }

theorem account_token (cursor : Cursor) (token : Token) :
    (cursor.account token).token = cursor.token := by
  cases token <;> rfl

@[simp] theorem fresh_token (i : Nat) : (fresh i).token = i := by
  rw [fresh]

@[simp] theorem skip_token (cursor : Cursor) : cursor.skip.token = cursor.token + 1 := by
  rw [skip]

@[simp] theorem moveTo_token (cursor : Cursor) (i : Nat) : (cursor.moveTo i).token = i := by
  rw [moveTo]

@[simp] theorem advance_token (cursor : Cursor) (token : Token) :
    (cursor.advance token).token = cursor.token + 1 :=
  account_token cursor.skip token

/-- A cursor that has nothing open is told by its place alone. -/
@[simp] theorem fresh_skip (i : Nat) : (fresh i).skip = fresh (i + 1) := by
  rw [skip, fresh, fresh]

@[simp] theorem fresh_moveTo (i j : Nat) : (fresh i).moveTo j = fresh j := by
  rw [moveTo, fresh, fresh]

/-- Text opens and closes nothing, and neither does a symbol that is neither quote nor bracket. -/
@[simp] theorem fresh_advance_text (i : Nat) (content : String) :
    (fresh i).advance (.text content) = fresh (i + 1) := by
  rw [advance, fresh_skip, account, Token.symbol?]

theorem fresh_advance_symbol {s : Symbol} (hquote : s.quote? = none)
    (hopen : s.isOpeningBracket = false) (i : Nat) :
    (fresh i).advance (.symbol s) = fresh (i + 1) := by
  simp [fresh, advance, account, Token.symbol?, accountSymbol, skip, hquote, hopen]

end Cursor

/-- A cursor as a machine keeps it. The depth is a word, which not every count fits into. -/
structure WordCursor where
  token : Nat := 0
  depth : UInt64 := 0
  quote : Option Quote := none
  deriving DecidableEq, Repr

namespace WordCursor

def ofCursor (cursor : Cursor) : WordCursor :=
  { cursor with depth := cursor.depth.toUInt64 }

/-- The cursor with its depth as a number. -/
def toCursor (cursor : WordCursor) : Cursor :=
  { cursor with depth := cursor.depth.toNat }

/-- One more. There is none after the largest word: a machine that checks its arithmetic stops
    there, and any other begins at zero again. -/
def increment (checked : Bool) (depth : UInt64) : Option UInt64 :=
  if checked && depth + 1 == 0 then none else some (depth + 1)

/-- One less, but never less than zero. -/
def decrement (depth : UInt64) : UInt64 :=
  if depth == 0 then 0 else depth - 1

/-- What a symbol makes of the depth, within a string or outside of any. -/
def count (checked inside : Bool) (depth : UInt64) (s : Symbol) : Option UInt64 :=
  if inside then some depth
  else if s.isOpeningBracket then increment checked depth
  else if s.isClosingBracket then some (decrement depth)
  else some depth

def accountSymbol (checked : Bool) (cursor : WordCursor) (s : Symbol) : Option WordCursor :=
  let quote := match s.quote? with
    | some q => Cursor.toggle cursor.quote q
    | none => cursor.quote
  (count checked quote.isSome cursor.depth s).map fun depth => { cursor with depth, quote }

/-- Takes note of what a token opens or closes, unless the machine stops. -/
def account (checked : Bool) (cursor : WordCursor) (token : Token) : Option WordCursor :=
  match token.symbol? with
  | none => some cursor
  | some s => cursor.accountSymbol checked s

/-- The cursor before, between and after some tokens, as far as the machine gets. -/
def trail (checked : Bool) (cursor : WordCursor) : List Token → List WordCursor
  | [] => [cursor]
  | token :: rest =>
    cursor :: match cursor.account checked token with
      | none => []
      | some next => trail checked next rest

end WordCursor

/-- The cursor before, between and after some tokens, of which a machine takes note that does not
    check its arithmetic. -/
def Cursor.trail (cursor : Cursor) (tokens : List Token) : List Cursor :=
  ((WordCursor.ofCursor cursor).trail false tokens).map WordCursor.toCursor

end CurlyScript
