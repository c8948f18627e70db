import CurlyScript.Cursor
import CurlyScript.Grammar.Rule
import CurlyScript.Node.Equality
import CurlyScript.ParseError

namespace CurlyScript

/-- A node together with the cursor just after it. A closing parenthesis of a grouping may lie
    between the end of the node and the cursor. -/
structure Parsed where
  node : Node
  cursor : Cursor
  deriving DecidableEq, Repr

/-- What the grammar says about a place: the node that stands there, or why there is none. -/
abbrev Verdict := Except SyntaxError Parsed

/-- The question which node stands at a place. -/
structure Request where
  start : Nat
  filter : Option NodeFilter := none
  deriving DecidableEq, Repr

/-- What happens while a request is worked on. -/
inductive Step where
  | entered (request : Request)
  | matched (rule : Rule) (stop : Nat)
  | declined (rule : Rule)
  deriving DecidableEq, Repr

/-- A way of working something out, apart from how its questions are answered: it may ask for the
    verdict on another place and go on from the answer, and it notes its steps. An answer is always
    a verdict of the grammar, so giving up for lack of depth is out of a rule's sight. -/
inductive Inquiry (α : Type) where
  | done (result : α)
  | ask (request : Request) (resume : Verdict → Inquiry α)
  | note (step : Step) (next : Inquiry α)

namespace Inquiry

def bind {α β : Type} : Inquiry α → (α → Inquiry β) → Inquiry β
  | .done result, f => f result
  | .ask request resume, f => .ask request fun verdict => (resume verdict).bind f
  | .note step next, f => .note step (next.bind f)

instance : Monad Inquiry where
  pure := .done
  bind := .bind

/-- Works an inquiry out where `answer` settles its questions and `log` records its steps. -/
def run {m : Type → Type} [Monad m] {α : Type} (answer : Request → m Verdict)
    (log : Step → m Unit) : Inquiry α → m α
  | .done result => pure result
  | .ask request resume => do
    let verdict ← answer request
    run answer log (resume verdict)
  | .note step next => do
    log step
    run answer log next

theorem bind_done {α : Type} (inquiry : Inquiry α) : inquiry.bind .done = inquiry := by
  induction inquiry with
  | done result => rfl
  | ask request resume ih => simp only [Inquiry.bind, ih]
  | note step next ih => simp only [Inquiry.bind, ih]

theorem bind_assoc {α β γ : Type} (inquiry : Inquiry α) (f : α → Inquiry β) (g : β → Inquiry γ) :
    (inquiry.bind f).bind g = inquiry.bind fun result => (f result).bind g := by
  induction inquiry with
  | done result => rfl
  | ask request resume ih => simp only [Inquiry.bind, ih]
  | note step next ih => simp only [Inquiry.bind, ih]

instance : LawfulMonad Inquiry := LawfulMonad.mk' Inquiry bind_done (fun _ _ => rfl) bind_assoc

end Inquiry

end CurlyScript
