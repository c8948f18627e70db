import Mathlib
import CurlyScript.Session

namespace CurlyScript

/-- Works with a journal and gives back what comes of it with the journal then. -/
def Recorder.runFrom {α : Type} (recorder : Recorder α) (journal : Journal) :
    Except TooDeep α × Journal :=
  recorder.run.run journal

namespace Recorder

variable {α β : Type} (journal : Journal)

theorem runFrom_pure (a : α) : (pure a : Recorder α).runFrom journal = (.ok a, journal) :=
  rfl

theorem runFrom_modify (f : Journal → Journal) :
    (modify f : Recorder Unit).runFrom journal = (.ok (), f journal) :=
  rfl

theorem runFrom_get : (get : Recorder Journal).runFrom journal = (.ok journal, journal) :=
  rfl

theorem runFrom_bind (recorder : Recorder α) (f : α → Recorder β) :
    (recorder >>= f).runFrom journal = match recorder.runFrom journal with
      | (.error stop, next) => (.error stop, next)
      | (.ok a, next) => (f a).runFrom next := by
  unfold runFrom ExceptT.run StateT.run
  simp only [bind, ExceptT.bind, ExceptT.mk, StateT.bind]
  rcases recorder journal with ⟨_ | _, next⟩ <;> rfl

end Recorder

/-- A verdict is looked up or else worked out and remembered. Giving up is not remembered. -/
theorem answer_succ (ts : TokenStream) (limit levels : Nat) (request : Request)
    (journal : Journal) :
    (answer ts limit (levels + 1) request).runFrom journal =
      match journal.lookup request with
      | some found => (.ok found, journal)
      | none =>
        match ((request.inquiry ts).run (answer ts limit levels) fun step =>
          modify (·.log (.step (limit - levels) step))).runFrom journal with
        | (.error stop, next) => (.error stop, next)
        | (.ok found, next) => (.ok found, next.remember request found) := by
  rw [answer, Recorder.runFrom_bind, Recorder.runFrom_get]
  cases hlookup : journal.lookup request with
  | some found => simp only [hlookup, Recorder.runFrom_pure]
  | none =>
    simp only [hlookup, Recorder.runFrom_bind]
    split <;> simp_all [Recorder.runFrom_modify, Recorder.runFrom_pure]

end CurlyScript
