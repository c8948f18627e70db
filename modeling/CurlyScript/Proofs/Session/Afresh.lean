import CurlyScript.Proofs.Inquiry.Oracle
import CurlyScript.Session

namespace CurlyScript

/-- Answers a request as `answer` does but without a journal: whatever is asked again is worked out
    again, at the level at which it is asked. -/
def answerAfresh (ts : TokenStream) (limit : Nat) :
    (levels : Nat) → Request → Except TooDeep Verdict
  | 0, request => throw ⟨limit, request.start⟩
  | levels + 1, request =>
    (request.inquiry ts).run (answerAfresh ts limit levels) fun _ => pure ()

/-- How the answer to a request is reported. -/
def outcome : Except TooDeep Verdict → Except ParseError Parsed
  | .error stop => .error (.tooDeep stop)
  | .ok (.error error) => .error (.malformed error)
  | .ok (.ok parsed) => .ok parsed

/-- Parses without a journal. -/
def parseAfresh (ts : TokenStream) (limit : Nat) (request : Request) : Except ParseError Parsed :=
  outcome (answerAfresh ts limit (limit + 1) request)

theorem Session.parse_fst (session : Session) (request : Request) :
    (session.parse request).1 =
      outcome ((answer session.tokens session.limit (session.limit + 1) request).run.run
        session.journal).1 :=
  rfl

theorem outcome_eq_ok {result : Except TooDeep Verdict} {parsed : Parsed} :
    outcome result = .ok parsed ↔ result = .ok (.ok parsed) := by
  unfold outcome
  split <;> simp

theorem outcome_eq_malformed {result : Except TooDeep Verdict} {error : SyntaxError} :
    outcome result = .error (.malformed error) ↔ result = .ok (.error error) := by
  unfold outcome
  split <;> simp

theorem outcome_eq_tooDeep {result : Except TooDeep Verdict} {stop : TooDeep} :
    outcome result = .error (.tooDeep stop) ↔ result = .error stop := by
  unfold outcome
  split <;> simp

namespace Inquiry

variable {α ε ε' : Type}

/-- An answerer that knows more works out all that one who knows less does, and in the same way. -/
theorem run_eq_ok_mono {less : Request → Except ε Verdict} {more : Request → Except ε' Verdict}
    (hmore : ∀ request verdict, less request = .ok verdict → more request = .ok verdict)
    {inquiry : Inquiry α} {a : α} (hrun : inquiry.run less (fun _ => pure ()) = .ok a) :
    inquiry.run more (fun _ => pure ()) = .ok a := by
  induction inquiry with
  | done result => exact congrArg Except.ok (Except.ok.inj hrun)
  | ask request resume ih =>
    rw [run] at hrun ⊢
    cases hless : less request with
    | error stop =>
      rw [hless] at hrun
      cases hrun
    | ok verdict =>
      rw [hless] at hrun
      rw [hmore request verdict hless]
      exact ih verdict hrun
  | note step next ih => exact ih hrun

/-- The one who gives up is the one who answers. -/
theorem run_eq_error {answer : Request → Except ε Verdict} {P : ε → Prop}
    (hanswer : ∀ request stop, answer request = .error stop → P stop)
    {inquiry : Inquiry α} {stop : ε} (hrun : inquiry.run answer (fun _ => pure ()) = .error stop) :
    P stop := by
  induction inquiry with
  | done result => cases hrun
  | ask request resume ih =>
    rw [run] at hrun
    cases hfirst : answer request with
    | error first =>
      rw [hfirst] at hrun
      cases hrun
      exact hanswer request stop hfirst
    | ok verdict =>
      rw [hfirst] at hrun
      exact ih verdict hrun
  | note step next ih => exact ih hrun

end Inquiry

/-- A verdict that was found stays the verdict when there is more room, whatever the limit is that
    giving up would have reported. -/
theorem answerAfresh_mono {ts : TokenStream} {limit levels levels' : Nat} {request : Request}
    {verdict : Verdict} (limit' : Nat) (hle : levels ≤ levels')
    (hanswer : answerAfresh ts limit levels request = .ok verdict) :
    answerAfresh ts limit' levels' request = .ok verdict := by
  induction levels generalizing levels' request verdict with
  | zero => cases hanswer
  | succ levels ih =>
    obtain _ | levels' := levels'
    · omega
    · exact Inquiry.run_eq_ok_mono (fun _ _ => ih (by omega)) hanswer

theorem answerAfresh_error {ts : TokenStream} {limit levels : Nat} {request : Request}
    {stop : TooDeep} (hanswer : answerAfresh ts limit levels request = .error stop) :
    stop.limit = limit := by
  induction levels generalizing request stop with
  | zero =>
    cases hanswer
    rfl
  | succ levels ih => exact Inquiry.run_eq_error (fun _ _ => ih) hanswer

end CurlyScript
