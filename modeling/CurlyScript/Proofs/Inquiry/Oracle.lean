import Mathlib
import CurlyScript.Grammar.Reading

namespace CurlyScript

/-- Verdicts on all places at once, from wherever they come. -/
abbrev Oracle := Request → Verdict

namespace Inquiry

variable {α β : Type}

/-- What an inquiry comes to when an oracle settles its questions. -/
def eval (oracle : Oracle) : Inquiry α → α
  | .done result => result
  | .ask request resume => (resume (oracle request)).eval oracle
  | .note _ next => next.eval oracle

/-- The questions that an inquiry asks an oracle, in order. -/
def asks (oracle : Oracle) : Inquiry α → List Request
  | .done _ => []
  | .ask request resume => request :: (resume (oracle request)).asks oracle
  | .note _ next => next.asks oracle

theorem eval_bind (oracle : Oracle) (inquiry : Inquiry α) (f : α → Inquiry β) :
    (inquiry >>= f).eval oracle = (f (inquiry.eval oracle)).eval oracle := by
  change (inquiry.bind f).eval oracle = _
  induction inquiry with
  | done result => rfl
  | ask request resume ih => exact ih (oracle request)
  | note step next ih => exact ih

theorem asks_bind (oracle : Oracle) (inquiry : Inquiry α) (f : α → Inquiry β) :
    (inquiry >>= f).asks oracle =
      inquiry.asks oracle ++ (f (inquiry.eval oracle)).asks oracle := by
  change (inquiry.bind f).asks oracle = _
  induction inquiry with
  | done result => rfl
  | ask request resume ih => exact congrArg (request :: ·) (ih (oracle request))
  | note step next ih => exact ih

/-- An inquiry is worked out exactly if all its questions are settled, and then it comes to what an
    oracle with the same answers makes of it. Only the questions that are really asked matter. -/
theorem run_eq_ok_iff {ε : Type} {answer : Request → Except ε Verdict} {oracle : Oracle}
    (hanswer : ∀ request verdict, answer request = .ok verdict → verdict = oracle request)
    (inquiry : Inquiry α) (a : α) :
    inquiry.run answer (fun _ => pure ()) = .ok a ↔
      (∀ request ∈ inquiry.asks oracle, answer request = .ok (oracle request)) ∧
        a = inquiry.eval oracle := by
  induction inquiry with
  | done result =>
    simp only [run, asks, eval, List.not_mem_nil, false_implies, implies_true, true_and]
    exact ⟨fun h => (Except.ok.inj h).symm, fun h => h ▸ rfl⟩
  | ask request resume ih =>
    simp only [run, asks, eval, List.forall_mem_cons]
    cases hfirst : answer request with
    | error stop =>
      constructor
      · intro h
        cases h
      · rintro ⟨⟨h, _⟩, _⟩
        cases h
    | ok verdict =>
      obtain rfl := hanswer request verdict hfirst
      change (resume (oracle request)).run answer _ = .ok a ↔ _
      rw [ih (oracle request)]
      simp only [true_and]
  | note step next ih => exact ih

end Inquiry

namespace Attempt

variable {α β : Type}

/-- What comes of a rule when an oracle settles its questions. -/
def eval (oracle : Oracle) (attempt : Attempt α) : Except Refusal α :=
  Inquiry.eval oracle attempt.run

/-- The questions that a rule asks an oracle, in order. -/
def asks (oracle : Oracle) (attempt : Attempt α) : List Request :=
  Inquiry.asks oracle attempt.run

section

variable (oracle : Oracle)

@[simp] theorem eval_pure (a : α) : (pure a : Attempt α).eval oracle = .ok a :=
  rfl

@[simp] theorem asks_pure (a : α) : (pure a : Attempt α).asks oracle = [] :=
  rfl

@[simp] theorem eval_throw (refusal : Refusal) :
    (throw refusal : Attempt α).eval oracle = .error refusal :=
  rfl

@[simp] theorem asks_throw (refusal : Refusal) : (throw refusal : Attempt α).asks oracle = [] :=
  rfl

@[simp] theorem eval_decline : (decline : Attempt α).eval oracle = .error .declined :=
  rfl

@[simp] theorem asks_decline : (decline : Attempt α).asks oracle = [] :=
  rfl

@[simp] theorem eval_reject (fault : Fault) (position : Nat) :
    (reject fault position : Attempt α).eval oracle = .error (.rejected ⟨fault, position⟩) :=
  rfl

@[simp] theorem asks_reject (fault : Fault) (position : Nat) :
    (reject fault position : Attempt α).asks oracle = [] :=
  rfl

@[simp] theorem eval_verdictOn (request : Request) :
    (verdictOn request).eval oracle = .ok (oracle request) :=
  rfl

@[simp] theorem asks_verdictOn (request : Request) :
    (verdictOn request).asks oracle = [request] :=
  rfl

/-- An oracle takes a sequence of two parts to the sequence of what comes of them. -/
@[simp] theorem eval_bind (attempt : Attempt α) (f : α → Attempt β) :
    (attempt >>= f).eval oracle = (attempt.eval oracle).bind fun a => (f a).eval oracle := by
  refine (Inquiry.eval_bind oracle attempt.run _).trans ?_
  cases h : Inquiry.eval oracle attempt.run with
  | ok a => simp only [eval, h, Except.bind]; rfl
  | error refusal => simp only [eval, h, Except.bind]; rfl

/-- The second part asks nothing where the first has refused. -/
@[simp] theorem asks_bind (attempt : Attempt α) (f : α → Attempt β) :
    (attempt >>= f).asks oracle = attempt.asks oracle ++
      (attempt.eval oracle).toOption.elim [] fun a => (f a).asks oracle := by
  refine (Inquiry.asks_bind oracle attempt.run _).trans ?_
  cases h : Inquiry.eval oracle attempt.run with
  | ok a => simp only [eval, asks, h, Except.toOption, Option.elim]; rfl
  | error refusal => simp only [eval, asks, h, Except.toOption, Option.elim]; rfl

theorem eval_require (request : Request) :
    (require request).eval oracle = (oracle request).mapError .rejected := by
  rw [require, eval_bind, eval_verdictOn, Except.bind]
  cases oracle request <;> rfl

theorem asks_require (request : Request) : (require request).asks oracle = [request] := by
  rw [require, asks_bind, asks_verdictOn, eval_verdictOn]
  simp only [Except.toOption, Option.elim]
  cases oracle request <;> rfl

theorem eval_probe (request : Request) :
    (probe request).eval oracle = (oracle request).mapError fun _ => .declined := by
  rw [probe, eval_bind, eval_verdictOn, Except.bind]
  cases oracle request <;> rfl

theorem asks_probe (request : Request) : (probe request).asks oracle = [request] := by
  rw [probe, asks_bind, asks_verdictOn, eval_verdictOn]
  simp only [Except.toOption, Option.elim]
  cases oracle request <;> rfl

theorem eval_eat (ts : TokenStream) (s : Symbol) (cursor : Cursor) :
    (eat ts s cursor).eval oracle =
      if ts.sees cursor.token s then .ok (cursor.advance (.symbol s)) else .error .declined := by
  unfold eat
  split <;> rfl

theorem asks_eat (ts : TokenStream) (s : Symbol) (cursor : Cursor) :
    (eat ts s cursor).asks oracle = [] := by
  unfold eat
  split <;> rfl

end

end Attempt

theorem eval_tryRules_nil (oracle : Oracle) (ts : TokenStream) (start : Nat) (cursor : Cursor) :
    (tryRules ts start cursor []).eval oracle =
      .error ⟨.unexpected (ts.describe? cursor.token), cursor.token⟩ :=
  rfl

theorem eval_tryRules_cons (oracle : Oracle) (ts : TokenStream) (start : Nat) (cursor : Cursor)
    (rule : Rule) (rest : List Rule) :
    (tryRules ts start cursor (rule :: rest)).eval oracle =
      match (rule.attempt ts start cursor).eval oracle with
      | .ok parsed => .ok parsed
      | .error .declined => (tryRules ts start cursor rest).eval oracle
      | .error (.rejected error) => .error error := by
  refine (Inquiry.eval_bind oracle (rule.attempt ts start cursor).run _).trans ?_
  change Inquiry.eval oracle (match (rule.attempt ts start cursor).eval oracle with
    | .ok parsed => _
    | .error .declined => _
    | .error (.rejected error) => _) = _
  rcases (rule.attempt ts start cursor).eval oracle with (_ | _) | _ <;> rfl

theorem asks_tryRules_cons (oracle : Oracle) (ts : TokenStream) (start : Nat) (cursor : Cursor)
    (rule : Rule) (rest : List Rule) :
    (tryRules ts start cursor (rule :: rest)).asks oracle =
      (rule.attempt ts start cursor).asks oracle ++
        match (rule.attempt ts start cursor).eval oracle with
        | .error .declined => (tryRules ts start cursor rest).asks oracle
        | _ => [] := by
  refine (Inquiry.asks_bind oracle (rule.attempt ts start cursor).run _).trans ?_
  change _ ++ Inquiry.asks oracle (match (rule.attempt ts start cursor).eval oracle with
    | .ok parsed => _
    | .error .declined => _
    | .error (.rejected error) => _) = _
  rcases (rule.attempt ts start cursor).eval oracle with (_ | _) | _ <;> rfl

end CurlyScript
