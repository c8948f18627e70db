import CurlyScript.Cursor

namespace CurlyScript

/-- The tokens that are parsed. Places in it are indices, which may lie past the end. -/
abbrev TokenStream := Array Token

namespace TokenStream

/-- Whether a symbol stands at an index. -/
def sees (ts : TokenStream) (i : Nat) (s : Symbol) : Bool :=
  ts[i]?.any (·.is s)

/-- How a message names the token at an index; nothing at the end of the input. -/
def describe? (ts : TokenStream) (i : Nat) : Option String :=
  ts[i]?.map Token.describe

/-- The first index from `i` on that holds no whitespace. -/
def skipBlanks (ts : TokenStream) (i : Nat) : Nat :=
  if h : i < ts.size then
    if ts[i].isWhitespace then skipBlanks ts (i + 1) else i
  else i
termination_by ts.size - i

theorem le_skipBlanks (ts : TokenStream) (i : Nat) : i ≤ ts.skipBlanks i := by
  fun_induction skipBlanks ts i with
  | case1 i hlt hblank ih => omega
  | case2 i hlt hblank => exact Nat.le_refl i
  | case3 i hge => exact Nat.le_refl i

theorem sees_iff {ts : TokenStream} {i : Nat} {s : Symbol} :
    ts.sees i s = true ↔ ts[i]? = some (.symbol s) := by
  cases h : ts[i]? <;> simp [sees, h, Token.is_iff]

theorem lt_size_of_sees {ts : TokenStream} {i : Nat} {s : Symbol} (h : ts.sees i s = true) :
    i < ts.size :=
  (Array.getElem?_eq_some_iff.mp (sees_iff.mp h)).1

end TokenStream

/-- Moves past whitespace, which opens and closes nothing. -/
def Cursor.skipBlanks (cursor : Cursor) (ts : TokenStream) : Cursor :=
  cursor.moveTo (ts.skipBlanks cursor.token)

@[simp] theorem Cursor.skipBlanks_token (cursor : Cursor) (ts : TokenStream) :
    (cursor.skipBlanks ts).token = ts.skipBlanks cursor.token := by
  rw [skipBlanks, moveTo_token]

@[simp] theorem Cursor.fresh_skipBlanks (i : Nat) (ts : TokenStream) :
    (fresh i).skipBlanks ts = fresh (ts.skipBlanks i) := by
  rw [skipBlanks, fresh_moveTo, fresh_token]

end CurlyScript
