import CurlyScript.Proofs.Inquiry.Oracle

namespace CurlyScript

/-- What an inquiry and those who answer it may rely on. The state is whatever the two share: a
    question is only asked in states that allow it, and its answer leads to another state. -/
structure Contract (σ : Type) where
  allows : σ → Request → Prop
  answers : σ → Request → Verdict → σ → Prop

namespace Inquiry

variable {α β σ : Type}

/-- An inquiry that starts in a state, asks only what it may and ends as `post` says, whatever
    answers it is given under the contract. -/
def Keeps (contract : Contract σ) (post : α → σ → Prop) : Inquiry α → σ → Prop
  | .done result, state => post result state
  | .ask request resume, state =>
    contract.allows state request ∧
      ∀ verdict next, contract.answers state request verdict next →
        (resume verdict).Keeps contract post next
  | .note _ next, state => next.Keeps contract post state

theorem Keeps.mono {contract : Contract σ} {post post' : α → σ → Prop}
    (himp : ∀ a state, post a state → post' a state) {inquiry : Inquiry α} {state : σ}
    (hkeeps : inquiry.Keeps contract post state) : inquiry.Keeps contract post' state := by
  induction inquiry generalizing state with
  | done result => exact himp result state hkeeps
  | ask request resume ih =>
    exact ⟨hkeeps.1, fun verdict next hnext => ih verdict (hkeeps.2 verdict next hnext)⟩
  | note step next ih => exact ih hkeeps

theorem keeps_bind (contract : Contract σ) (post : β → σ → Prop) (inquiry : Inquiry α)
    (f : α → Inquiry β) (state : σ) :
    (inquiry >>= f).Keeps contract post state ↔
      inquiry.Keeps contract (fun a next => (f a).Keeps contract post next) state := by
  change (inquiry.bind f).Keeps contract post state ↔ _
  induction inquiry generalizing state with
  | done result => rfl
  | ask request resume ih => simp only [Inquiry.bind, Keeps, ih]
  | note step next ih => exact ih state

/-- An inquiry that asks nothing depends on no contract. -/
theorem keeps_of_asks_eq_nil {contract : Contract σ} {oracle : Oracle} {post : α → σ → Prop}
    {inquiry : Inquiry α} {state : σ} (hasks : inquiry.asks oracle = [])
    (hpost : post (inquiry.eval oracle) state) : inquiry.Keeps contract post state := by
  induction inquiry with
  | done result => exact hpost
  | ask request resume ih => cases hasks
  | note step next ih => exact ih hasks hpost

/-- Whoever fulfils the contract can work out every inquiry that keeps it. -/
theorem Keeps.exists_run {ε : Type} {contract : Contract σ} {answer : Request → Except ε Verdict}
    (hanswer : ∀ state request, contract.allows state request →
      ∃ verdict next, answer request = .ok verdict ∧ contract.answers state request verdict next)
    {post : α → σ → Prop} {inquiry : Inquiry α} {state : σ}
    (hkeeps : inquiry.Keeps contract post state) :
    ∃ a next, inquiry.run answer (fun _ => pure ()) = .ok a ∧ post a next := by
  induction inquiry generalizing state with
  | done result => exact ⟨result, state, rfl, hkeeps⟩
  | ask request resume ih =>
    obtain ⟨verdict, next, hverdict, hnext⟩ := hanswer state request hkeeps.1
    obtain ⟨a, last, hrun, hpost⟩ := ih verdict (hkeeps.2 verdict next hnext)
    refine ⟨a, last, ?_, hpost⟩
    rw [run, hverdict]
    exact hrun
  | note step next ih => exact ih hkeeps

/-- With answers under the contract an inquiry ends as it should, or else it is given up over
    something that may be asked. -/
theorem Keeps.run_cases {ε : Type} {contract : Contract σ} {answer : Request → Except ε Verdict}
    (hanswer : ∀ state request verdict, contract.allows state request →
      answer request = .ok verdict → ∃ next, contract.answers state request verdict next)
    {post : α → σ → Prop} {inquiry : Inquiry α} {state : σ}
    (hkeeps : inquiry.Keeps contract post state) :
    (∃ a next, inquiry.run answer (fun _ => pure ()) = .ok a ∧ post a next) ∨
      ∃ stop before request, inquiry.run answer (fun _ => pure ()) = .error stop ∧
        contract.allows before request ∧ answer request = .error stop := by
  induction inquiry generalizing state with
  | done result => exact .inl ⟨result, state, rfl, hkeeps⟩
  | ask request resume ih =>
    rw [run]
    cases hfirst : answer request with
    | error stop => exact .inr ⟨stop, state, request, rfl, hkeeps.1, hfirst⟩
    | ok verdict =>
      obtain ⟨next, hnext⟩ := hanswer state request verdict hkeeps.1 hfirst
      exact ih verdict (hkeeps.2 verdict next hnext)
  | note step next ih => exact ih hkeeps

/-- What is worked out with answers under the contract is as the inquiry ends. -/
theorem Keeps.exists_of_run_eq_ok {ε : Type} {contract : Contract σ}
    {answer : Request → Except ε Verdict}
    (hanswer : ∀ state request verdict, contract.allows state request →
      answer request = .ok verdict → ∃ next, contract.answers state request verdict next)
    {post : α → σ → Prop} {inquiry : Inquiry α} {state : σ} {a : α}
    (hkeeps : inquiry.Keeps contract post state)
    (hrun : inquiry.run answer (fun _ => pure ()) = .ok a) : ∃ next, post a next := by
  obtain ⟨found, next, hfound, hpost⟩ | ⟨stop, _, _, hstop, -⟩ := hkeeps.run_cases hanswer
  · cases hfound.symm.trans hrun
    exact ⟨next, hpost⟩
  · cases hstop.symm.trans hrun

/-- Whoever gives up was asked something under the contract. -/
theorem Keeps.exists_of_run_eq_error {ε : Type} {contract : Contract σ}
    {answer : Request → Except ε Verdict}
    (hanswer : ∀ state request verdict, contract.allows state request →
      answer request = .ok verdict → ∃ next, contract.answers state request verdict next)
    {post : α → σ → Prop} {inquiry : Inquiry α} {state : σ} {stop : ε}
    (hkeeps : inquiry.Keeps contract post state)
    (hrun : inquiry.run answer (fun _ => pure ()) = .error stop) :
    ∃ state request, contract.allows state request ∧ answer request = .error stop := by
  obtain ⟨_, _, hfound, -⟩ | ⟨_, before, request, hstop, hasked⟩ := hkeeps.run_cases hanswer
  · cases hfound.symm.trans hrun
  · cases hstop.symm.trans hrun
    exact ⟨before, request, hasked⟩

/-- Every question that is asked of an oracle that fulfils the contract is one that may be asked. -/
theorem Keeps.allows_of_mem_asks {contract : Contract σ} {oracle : Oracle}
    (horacle : ∀ state request, contract.allows state request →
      ∃ next, contract.answers state request (oracle request) next)
    {post : α → σ → Prop} {inquiry : Inquiry α} {state : σ}
    (hkeeps : inquiry.Keeps contract post state) :
    ∀ request ∈ inquiry.asks oracle, ∃ before, contract.allows before request := by
  induction inquiry generalizing state with
  | done result => simp [asks]
  | ask request resume ih =>
    obtain ⟨next, hnext⟩ := horacle state request hkeeps.1
    have hrest := ih (oracle request) (hkeeps.2 _ next hnext)
    simp only [asks, List.forall_mem_cons]
    exact ⟨⟨state, hkeeps.1⟩, hrest⟩
  | note step next ih => exact ih hkeeps

end Inquiry

namespace Attempt

variable {α β σ : Type}

/-- A rule that keeps a contract and, unless it rejects, matches or declines as it should. A rule
    that rejects ends the whole inquiry, so nothing is asked of it. -/
def Keeps (contract : Contract σ) (matched : α → σ → Prop) (declined : σ → Prop)
    (attempt : Attempt α) (state : σ) : Prop :=
  Inquiry.Keeps contract (fun result next => match result with
    | .ok a => matched a next
    | .error .declined => declined next
    | .error (.rejected _) => True) attempt.run state

theorem Keeps.mono {contract : Contract σ} {matched matched' : α → σ → Prop}
    {declined declined' : σ → Prop} {attempt : Attempt α} {state : σ}
    (hkeeps : attempt.Keeps contract matched declined state)
    (hmatched : ∀ a next, matched a next → matched' a next)
    (hdeclined : ∀ next, declined next → declined' next) :
    attempt.Keeps contract matched' declined' state := by
  refine Inquiry.Keeps.mono (fun result next hpost => ?_) hkeeps
  match result with
  | .ok a => exact hmatched a next hpost
  | .error .declined => exact hdeclined next hpost
  | .error (.rejected _) => trivial

variable (contract : Contract σ) (matched : α → σ → Prop) (declined : σ → Prop) (state : σ)

@[simp] theorem keeps_pure (a : α) :
    (pure a : Attempt α).Keeps contract matched declined state ↔ matched a state :=
  Iff.rfl

@[simp] theorem keeps_decline :
    (decline : Attempt α).Keeps contract matched declined state ↔ declined state :=
  Iff.rfl

@[simp] theorem keeps_reject (fault : Fault) (position : Nat) :
    (reject fault position : Attempt α).Keeps contract matched declined state :=
  trivial

@[simp] theorem keeps_rejected (error : SyntaxError) :
    (throw (.rejected error) : Attempt α).Keeps contract matched declined state :=
  trivial

@[simp] theorem keeps_ite (c : Prop) [Decidable c] (a b : Attempt α) :
    (if c then a else b).Keeps contract matched declined state ↔
      if c then a.Keeps contract matched declined state
      else b.Keeps contract matched declined state := by
  split <;> rfl

@[simp] theorem keeps_bind (matched : β → σ → Prop) (attempt : Attempt α) (f : α → Attempt β) :
    (attempt >>= f).Keeps contract matched declined state ↔
      attempt.Keeps contract (fun a next => (f a).Keeps contract matched declined next)
        declined state := by
  refine (Inquiry.keeps_bind contract _ attempt.run _ state).trans ⟨?_, ?_⟩
  all_goals
    refine Inquiry.Keeps.mono fun result next hpost => ?_
    match result with
    | .ok a => exact hpost
    | .error .declined => exact hpost
    | .error (.rejected _) => trivial

@[simp] theorem keeps_verdictOn (matched : Verdict → σ → Prop) (request : Request) :
    (verdictOn request).Keeps contract matched declined state ↔
      contract.allows state request ∧
        ∀ verdict next, contract.answers state request verdict next → matched verdict next :=
  Iff.rfl

@[simp] theorem keeps_require (matched : Parsed → σ → Prop) (request : Request) :
    (require request).Keeps contract matched declined state ↔
      contract.allows state request ∧
        ∀ parsed next, contract.answers state request (.ok parsed) next → matched parsed next := by
  simp only [require, keeps_bind, keeps_verdictOn]
  refine and_congr_right fun _ => ⟨fun h parsed next => h (.ok parsed) next, fun h => ?_⟩
  rintro (error | parsed) next hnext
  · trivial
  · exact h parsed next hnext

@[simp] theorem keeps_probe (matched : Parsed → σ → Prop) (request : Request) :
    (probe request).Keeps contract matched declined state ↔
      contract.allows state request ∧
        (∀ parsed next, contract.answers state request (.ok parsed) next → matched parsed next) ∧
        ∀ error next, contract.answers state request (.error error) next → declined next := by
  simp only [probe, keeps_bind, keeps_verdictOn]
  refine and_congr_right fun _ => ⟨fun h => ⟨fun parsed next => h (.ok parsed) next,
    fun error next => h (.error error) next⟩, fun h => ?_⟩
  rintro (error | parsed) next hnext
  · exact h.2 error next hnext
  · exact h.1 parsed next hnext

@[simp] theorem keeps_eat (matched : Cursor → σ → Prop) (ts : TokenStream) (s : Symbol)
    (cursor : Cursor) :
    (eat ts s cursor).Keeps contract matched declined state ↔
      if ts.sees cursor.token s then matched (cursor.advance (.symbol s)) state
      else declined state := by
  unfold eat
  split <;> rfl

end Attempt

section

variable {σ : Type} {contract : Contract σ} {matched : Parsed → σ → Prop} {declined : σ → Prop}
  {post : Verdict → σ → Prop} {ts : TokenStream} {start : Nat} {cursor : Cursor}

theorem keeps_tryRules_cons
    (hmatched : ∀ parsed state, matched parsed state → post (.ok parsed) state)
    (herror : ∀ error state, post (.error error) state) {rule : Rule} {rest : List Rule} {state : σ}
    (hrule : (rule.attempt ts start cursor).Keeps contract matched declined state)
    (hrest : ∀ next, declined next → (tryRules ts start cursor rest).Keeps contract post next) :
    (tryRules ts start cursor (rule :: rest)).Keeps contract post state := by
  rw [tryRules, Inquiry.keeps_bind]
  refine Inquiry.Keeps.mono (fun result next hpost => ?_) hrule
  match result with
  | .ok parsed => exact hmatched parsed next hpost
  | .error .declined => exact hrest next hpost
  | .error (.rejected error) => exact herror error next

/-- Rules that keep a contract one by one keep it when they are tried in turn. What holds when a
    rule declines has to be what the next one starts from, and in the end what the rest of the
    rules starts from. -/
theorem keeps_tryRules_append
    (hmatched : ∀ parsed state, matched parsed state → post (.ok parsed) state)
    (herror : ∀ error state, post (.error error) state) {rules rest : List Rule}
    (hrules : ∀ rule ∈ rules, ∀ state, declined state →
      (rule.attempt ts start cursor).Keeps contract matched declined state)
    (hrest : ∀ next, declined next → (tryRules ts start cursor rest).Keeps contract post next)
    {state : σ} (hstate : declined state) :
    (tryRules ts start cursor (rules ++ rest)).Keeps contract post state := by
  induction rules generalizing state with
  | nil => exact hrest state hstate
  | cons rule rules ih =>
    have hrule := hrules rule (List.mem_cons_self ..) state hstate
    exact keeps_tryRules_cons hmatched herror hrule
      fun _ hnext => ih (fun r hr => hrules r (List.mem_cons_of_mem _ hr)) hnext

/-- Rules that keep a contract one by one keep it together if nothing is left to be tried. -/
theorem keeps_tryRules
    (hmatched : ∀ parsed state, matched parsed state → post (.ok parsed) state)
    (herror : ∀ error state, post (.error error) state) {rules : List Rule}
    (hrules : ∀ rule ∈ rules, ∀ state, declined state →
      (rule.attempt ts start cursor).Keeps contract matched declined state)
    {state : σ} (hstate : declined state) :
    (tryRules ts start cursor rules).Keeps contract post state := by
  rw [← List.append_nil rules]
  refine keeps_tryRules_append hmatched herror hrules (fun next _ => ?_) hstate
  exact herror _ next

end

/-- What holds whenever the next item of a list is looked for, whatever is behind, with the cursor
    there and the state shared with those who answer: blanks, separators and items leave it so, and
    an item may be asked for. `closed` is what the closing bracket makes of it. -/
structure Delimiters.Invariant {σ : Type} (delimiters : Delimiters) (ts : TokenStream)
    (contract : Contract σ) (inv closed : Cursor → σ → Prop) : Prop where
  blanks : ∀ cursor state, inv cursor state → inv (cursor.skipBlanks ts) state
  separator : ∀ cursor state, inv cursor state →
    ts[cursor.token]? = some (.symbol delimiters.separator) →
    inv (cursor.advance (.symbol delimiters.separator)) state
  closer : ∀ cursor state, inv cursor state →
    ts[cursor.token]? = some (.symbol delimiters.closer) →
    closed (cursor.advance (.symbol delimiters.closer)) state
  allows : ∀ cursor state, inv cursor state → cursor.token < ts.size →
    contract.allows state ⟨cursor.token, none⟩
  item : ∀ cursor state, inv cursor state → ∀ parsed next,
    contract.answers state ⟨cursor.token, none⟩ (.ok parsed) next →
    inv (cursor.moveTo parsed.cursor.token) next

section

variable {σ : Type} {contract : Contract σ} {ts : TokenStream} {state : σ}

/-- A list never declines: it is read through its closing bracket or rejected. -/
theorem Delimiters.Invariant.keeps_items {delimiters : Delimiters} {inv closed : Cursor → σ → Prop}
    (hinv : delimiters.Invariant ts contract inv closed) (declined : σ → Prop) (budget : Nat)
    {cursor : Cursor} (found : List Node) (hstart : inv cursor state) :
    (delimiters.items ts budget cursor found).Keeps contract
      (fun result next => closed result.2 next) declined state := by
  induction budget generalizing cursor found state with
  | zero => exact Attempt.keeps_reject ..
  | succ budget ih =>
    have hhere := hinv.blanks cursor state hstart
    simp only [items]
    split
    · exact Attempt.keeps_reject ..
    · next token htoken =>
      simp only [Attempt.keeps_ite, Attempt.keeps_pure, Attempt.keeps_bind, Attempt.keeps_require]
      split
      · next hseparator =>
        rw [Token.is_iff.mp hseparator] at htoken ⊢
        exact ih found (hinv.separator _ state hhere htoken)
      · split
        · next hcloser =>
          rw [Token.is_iff.mp hcloser] at htoken ⊢
          exact hinv.closer _ state hhere htoken
        · have hlt := (Array.getElem?_eq_some_iff.mp htoken).1
          refine ⟨hinv.allows _ state hhere hlt, fun parsed next hparsed => ?_⟩
          split
          · exact ih _ (hinv.blanks _ next (hinv.item _ state hhere parsed next hparsed))
          · exact Attempt.keeps_reject ..

theorem Rule.keeps_parameterList {matched : Cursor → σ → Prop} {declined : σ → Prop}
    {cursor : Cursor} (hdeclined : declined state)
    (hmatched : ts.sees cursor.token .openParen = true →
      ts.sees (cursor.token + 1) .closeParen = true →
      matched ((cursor.advance (.symbol .openParen)).advance (.symbol .closeParen)) state) :
    (parameterList ts cursor).Keeps contract matched declined state := by
  simp only [parameterList, Attempt.keeps_bind, Attempt.keeps_eat, Cursor.advance_token]
  split
  · next hopen =>
    split
    · next hclose => exact hmatched hopen hclose
    · exact hdeclined
  · exact hdeclined

/-- Only a word is asked for as a name, and from then on the rule is bound to match. -/
theorem Rule.keeps_nameAfterType {matched : String × Cursor → σ → Prop} {declined : σ → Prop}
    {cursor : Cursor} (hdeclined : declined state)
    (hallows : cursor.token < ts.size → contract.allows state ⟨cursor.token, some .types⟩)
    (hmatched : ∀ parsed name next,
      contract.answers state ⟨cursor.token, some .types⟩ (.ok parsed) next →
      matched (name, cursor.moveTo parsed.cursor.token) next) :
    (nameAfterType ts cursor).Keeps contract matched declined state := by
  unfold nameAfterType
  split
  · next content htext =>
    simp only [Attempt.keeps_bind, Attempt.keeps_verdictOn]
    refine ⟨hallows (Array.getElem?_eq_some_iff.mp htext).1, fun verdict next hverdict => ?_⟩
    split
    · exact Attempt.keeps_reject ..
    · next parsed =>
      split
      · exact Attempt.keeps_reject ..
      · exact hmatched parsed _ next hverdict
  · exact hdeclined

end

end CurlyScript
