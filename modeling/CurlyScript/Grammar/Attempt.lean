import CurlyScript.Grammar.Inquiry
import CurlyScript.Grammar.Stream

namespace CurlyScript

/-- The two ways in which a rule fails. A rule that declines leaves its place to the next one. A
    rule that rejects has recognised its construct, and no other rule is tried. -/
inductive Refusal where
  | declined
  | rejected (error : SyntaxError)

/-- The inquiry of a rule that may refuse. -/
abbrev Attempt := ExceptT Refusal Inquiry

namespace Attempt

def decline {α : Type} : Attempt α :=
  throw .declined

def reject {α : Type} (fault : Fault) (position : Nat) : Attempt α :=
  throw (.rejected ⟨fault, position⟩)

/-- Asks for the verdict on a place. -/
def verdictOn (request : Request) : Attempt Verdict :=
  ExceptT.mk (.ask request fun verdict => .done (.ok verdict))

/-- A part that has to be there: its error is the error of the whole. -/
def require (request : Request) : Attempt Parsed := do
  match ← verdictOn request with
  | .ok parsed => return parsed
  | .error error => throw (.rejected error)

/-- A part that tells whether a rule applies at all: without it the rule declines. -/
def probe (request : Request) : Attempt Parsed := do
  match ← verdictOn request with
  | .ok parsed => return parsed
  | .error _ => decline

/-- Consumes a symbol or declines. -/
def eat (ts : TokenStream) (s : Symbol) (cursor : Cursor) : Attempt Cursor :=
  if ts.sees cursor.token s then return cursor.advance (.symbol s) else decline

end Attempt

end CurlyScript
