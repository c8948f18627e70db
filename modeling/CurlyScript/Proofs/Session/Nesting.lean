import CurlyScript.Proofs.Script.Outcome
import CurlyScript.Proofs.Session.History

namespace CurlyScript

/-- A request that is put to the answerer at a level of recursion, whether it is then worked out,
    looked up or given up. -/
structure Call where
  level : Nat
  request : Request
  deriving DecidableEq, Repr

/-- The calls that are made, in order, when an inquiry is run from a journal. Each question takes
    the calls that `calls` tells, and those after it depend on how it was answered. -/
def Inquiry.callsFrom {α : Type} (answer : Request → Recorder Verdict)
    (calls : Request → Journal → List Call) (event : Step → Event) :
    Inquiry α → Journal → List Call
  | .done _, _ => []
  | .ask request resume, journal =>
    calls request journal ++ match (answer request).runFrom journal with
      | (.ok found, next) => (resume found).callsFrom answer calls event next
      | (.error _, _) => []
  | .note step next, journal => next.callsFrom answer calls event (journal.log (event step))

/-- The calls that are made, in order, when a request is answered: the one on the request itself and
    those that `answer` makes to work it out. -/
def answerCalls (ts : TokenStream) (limit : Nat) : (levels : Nat) → Request → Journal → List Call
  | 0, request, _ => [⟨limit + 1, request⟩]
  | levels + 1, request, journal =>
    ⟨limit - levels, request⟩ :: match journal.lookup request with
      | some _ => []
      | none => (request.inquiry ts).callsFrom (answer ts limit levels)
          (answerCalls ts limit levels) (.step (limit - levels)) journal

/-- The calls that are made, in order, when a session parses a request. -/
def Session.calls (session : Session) (request : Request) : List Call :=
  answerCalls session.tokens session.limit (session.limit + 1) request session.journal

/-- Whatever a journal has logged since an earlier one was logged at the level of one of the
    calls. -/
def Journal.LoggedBy (calls : List Call) (journal next : Journal) : Prop :=
  ∀ event ∈ next.events, event ∈ journal.events ∨
    ∃ call ∈ calls, ∃ step, event = .step call.level step

section

variable {ts : TokenStream} {limit levels : Nat} {request : Request} {journal : Journal}

/-- If answers are given up only where a call lies beyond the limit, then so is an inquiry that is
    run on them. -/
theorem Inquiry.exists_run_ok_iff {α : Type} {answer : Request → Recorder Verdict}
    {calls : Request → Journal → List Call}
    (hanswer : ∀ request journal, (∃ found, ((answer request).runFrom journal).1 = .ok found) ↔
      ∀ call ∈ calls request journal, call.level ≤ limit)
    (event : Step → Event) (inquiry : Inquiry α) (journal : Journal) :
    (∃ a, ((inquiry.run answer fun step => modify (·.log (event step))).runFrom journal).1 =
        .ok a) ↔
      ∀ call ∈ inquiry.callsFrom answer calls event journal, call.level ≤ limit := by
  induction inquiry generalizing journal with
  | done result =>
    rw [callsFrom, run, Recorder.runFrom_pure]
    simp only [Except.ok.injEq, exists_eq', List.not_mem_nil, false_implies, implies_true]
  | ask request resume ih =>
    have hfirst := hanswer request journal
    simp only [run, callsFrom, Recorder.runFrom_bind, List.forall_mem_append]
    rw [← hfirst]
    rcases (answer request).runFrom journal with ⟨stop | found, next⟩
    · simp only [reduceCtorEq, exists_false, false_and]
    · simp only [Except.ok.injEq, exists_eq', true_and]
      exact ih found next
  | note step rest ih =>
    rw [run, Recorder.runFrom_bind, Recorder.runFrom_modify]
    exact ih _

/-- A request is answered exactly if no call that is made lies beyond the limit. -/
theorem exists_answer_ok_iff (hlevels : levels ≤ limit + 1) :
    (∃ found, ((answer ts limit levels request).runFrom journal).1 = .ok found) ↔
      ∀ call ∈ answerCalls ts limit levels request journal, call.level ≤ limit := by
  induction levels generalizing request journal with
  | zero =>
    constructor
    · rintro ⟨found, hfound⟩
      cases hfound
    · intro hcalls
      have hdeep := hcalls ⟨limit + 1, request⟩ (List.mem_singleton_self _)
      exact absurd hdeep (Nat.not_succ_le_self limit)
  | succ levels ih =>
    rw [answer_succ, answerCalls, List.forall_mem_cons, and_iff_right (Nat.sub_le ..)]
    cases hlookup : journal.lookup request with
    | some found =>
      simp only [Except.ok.injEq, exists_eq', List.not_mem_nil, false_implies, implies_true]
    | none =>
      have hanswer (request : Request) (journal : Journal) :
          (∃ found, ((answer ts limit levels request).runFrom journal).1 = .ok found) ↔
            ∀ call ∈ answerCalls ts limit levels request journal, call.level ≤ limit :=
        ih (by omega)
      have hrun := Inquiry.exists_run_ok_iff hanswer (.step (limit - levels)) (request.inquiry ts)
        journal
      dsimp only
      rw [← hrun]
      split
      · next hstop => simp only [hstop, reduceCtorEq]
      · next hfound => simp only [hfound, Except.ok.injEq]

theorem Journal.LoggedBy.mono {calls calls' : List Call} {next : Journal}
    (hlogged : journal.LoggedBy calls next) (hsubset : calls ⊆ calls') :
    journal.LoggedBy calls' next := by
  intro event hevent
  obtain hbefore | ⟨call, hcall, hstep⟩ := hlogged event hevent
  · exact .inl hbefore
  · exact .inr ⟨call, hsubset hcall, hstep⟩

theorem Journal.LoggedBy.trans {calls : List Call} {next last : Journal}
    (hfirst : journal.LoggedBy calls next) (hsecond : next.LoggedBy calls last) :
    journal.LoggedBy calls last := by
  intro event hevent
  obtain hnext | hcall := hsecond event hevent
  · exact hfirst event hnext
  · exact .inr hcall

theorem Journal.loggedBy_self (calls : List Call) (journal : Journal) :
    journal.LoggedBy calls journal :=
  fun _ => .inl

/-- An inquiry logs its own steps at the level of the call that it is run for. -/
theorem Inquiry.run_loggedBy {α : Type} {answer : Request → Recorder Verdict}
    {calls : Request → Journal → List Call}
    (hanswer : ∀ (request : Request) (journal : Journal),
      journal.LoggedBy (calls request journal) ((answer request).runFrom journal).2)
    (call : Call) (inquiry : Inquiry α) (journal : Journal) :
    journal.LoggedBy (call :: inquiry.callsFrom answer calls (.step call.level) journal)
      ((inquiry.run answer fun step =>
        modify (·.log (.step call.level step))).runFrom journal).2 := by
  induction inquiry generalizing journal with
  | done result => exact journal.loggedBy_self _
  | ask request resume ih =>
    have hfirst := hanswer request journal
    rw [run, callsFrom, Recorder.runFrom_bind]
    rcases hrun : (answer request).runFrom journal with ⟨stop | found, next⟩
    · rw [hrun] at hfirst
      exact hfirst.mono fun _ hcall => List.mem_cons_of_mem _ (List.mem_append_left _ hcall)
    · rw [hrun] at hfirst
      refine Journal.LoggedBy.trans (hfirst.mono fun _ hcall => ?_) ((ih found next).mono ?_)
      · exact List.mem_cons_of_mem _ (List.mem_append_left _ hcall)
      · exact List.cons_subset_cons _ (List.subset_append_right ..)
  | note step rest ih =>
    rw [run, Recorder.runFrom_bind, Recorder.runFrom_modify]
    refine Journal.LoggedBy.trans (fun event hevent => ?_) (ih _)
    obtain hbefore | rfl := Array.mem_push.mp hevent
    · exact .inl hbefore
    · exact .inr ⟨call, List.mem_cons_self, step, rfl⟩

/-- The levels in a log are those of the calls. -/
theorem answer_loggedBy (ts : TokenStream) (limit levels : Nat) (request : Request)
    (journal : Journal) : journal.LoggedBy (answerCalls ts limit levels request journal)
      ((answer ts limit levels request).runFrom journal).2 := by
  induction levels generalizing request journal with
  | zero => exact journal.loggedBy_self _
  | succ levels ih =>
    rw [answer_succ, answerCalls]
    cases hlookup : journal.lookup request with
    | some found => exact journal.loggedBy_self _
    | none =>
      have hrun := Inquiry.run_loggedBy ih ⟨limit - levels, request⟩ (request.inquiry ts) journal
      dsimp only at hrun ⊢
      split
      · next hstop =>
        rw [hstop] at hrun
        exact hrun
      · next hfound =>
        rw [hfound] at hrun
        exact hrun

/-- As long as the journal tells the truth, only questions of the grammar lead to calls. -/
theorem Inquiry.forall_mem_callsFrom {α : Type} {P : Call → Prop} {inquiry : Inquiry α}
    (hcalls : ∀ other ∈ inquiry.asks (verdict ts), ∀ journal, journal.Faithful ts →
      ∀ call ∈ answerCalls ts limit levels other journal, P call)
    (event : Step → Event) (hfaithful : journal.Faithful ts) :
    ∀ call ∈ inquiry.callsFrom (answer ts limit levels) (answerCalls ts limit levels) event journal,
      P call := by
  induction inquiry generalizing journal with
  | done result => exact fun _ hcall => nomatch hcall
  | ask request resume ih =>
    rw [callsFrom, List.forall_mem_append]
    refine ⟨hcalls request (List.mem_cons_self ..) journal hfaithful, ?_⟩
    obtain ⟨stop, next, hrun⟩ | ⟨next, hrun, hnext⟩ := answer_cases limit levels request hfaithful
    · rw [hrun]
      exact fun _ hcall => nomatch hcall
    · rw [hrun]
      apply ih _ _ hnext
      exact fun other hother => hcalls other (List.mem_cons_of_mem _ hother)
  | note step rest ih => exact ih hcalls hfaithful

/-- A call lies at most as far below the first one as it needs fewer levels. -/
theorem level_add_need_le (hlevels : levels ≤ limit + 1) (hfaithful : journal.Faithful ts) :
    ∀ call ∈ answerCalls ts limit levels request journal,
      call.level + call.request.need ts ≤ limit + 1 - levels + request.need ts := by
  induction levels generalizing request journal with
  | zero =>
    intro call hcall
    obtain rfl := List.mem_singleton.mp hcall
    exact Nat.le_refl _
  | succ levels ih =>
    rw [answerCalls, List.forall_mem_cons]
    constructor
    · dsimp only
      omega
    · cases hlookup : journal.lookup request with
      | some found => exact fun _ hcall => nomatch hcall
      | none =>
        dsimp only
        refine Inquiry.forall_mem_callsFrom ?_ _ hfaithful
        intro other hother journal hfaithful call hcall
        have hneed := need_lt_of_mem_asks hother
        have hcall := ih (by omega) hfaithful call hcall
        omega

/-- Two levels of recursion are spent on a token at most. -/
theorem Session.level_le_of_mem_calls {session : Session}
    (hfaithful : session.journal.Faithful session.tokens) {call : Call}
    (hcall : call ∈ session.calls request) :
    call.level ≤ 2 * (session.tokens.size - request.start) := by
  have hlevel := level_add_need_le (Nat.le_refl _) hfaithful call hcall
  have hneed := request.need_le session.tokens
  have hpositive := call.request.need_pos session.tokens
  omega

/-- A session whose limit covers every call does not give up. -/
theorem Session.parse_ne_tooDeep {session : Session}
    (hcalls : ∀ call ∈ session.calls request, call.level ≤ session.limit) (stop : TooDeep) :
    (session.parse request).1 ≠ .error (.tooDeep stop) := by
  obtain ⟨found, hfound⟩ := (exists_answer_ok_iff (Nat.le_refl _)).mpr hcalls
  rw [Session.parse_eq, hfound]
  exact outcome_verdict_ne_tooDeep found stop

end

theorem Session.level_le_of_mem_events (ts : TokenStream) (limit : Nat) (request : Request)
    {level : Nat} {step : Step}
    (hevent : .step level step ∈ (Session.parse ⟨ts, limit, {}⟩ request).2.journal.events) :
    level ≤ 2 * (ts.size - request.start) := by
  obtain hbefore | ⟨call, hcall, _, hstep⟩ :=
    answer_loggedBy ts limit (limit + 1) request {} _ hevent
  · exact absurd hbefore (Array.not_mem_empty _)
  · obtain ⟨rfl, -⟩ := Event.step.inj hstep
    have hmem : call ∈ Session.calls ⟨ts, limit, {}⟩ request := hcall
    exact level_le_of_mem_calls (Journal.faithful_empty ts) hmem

theorem Session.parse_ne_tooDeep_of_size_le (ts : TokenStream) (limit : Nat) (request : Request)
    (hsize : 2 * (ts.size - request.start) ≤ limit) (stop : TooDeep) :
    (Session.parse ⟨ts, limit, {}⟩ request).1 ≠ .error (.tooDeep stop) := by
  refine parse_ne_tooDeep (fun call hcall => ?_) stop
  exact (level_le_of_mem_calls (Journal.faithful_empty ts) hcall).trans hsize

/-- No call lies deeper than two levels for each token from the start on, and nothing is logged at a
    deeper level. So a limit that high is never reached, and the level of a call can be counted in a
    machine word whatever the limit. The usual limit does for a source of 126 tokens, which two
    brackets make 128. -/
theorem nesting_bounded_by_tokens :
    (∀ ts limit request, 2 * (ts.size - request.start) ≤ limit →
      (∀ call ∈ Session.calls ⟨ts, limit, {}⟩ request,
        call.level ≤ 2 * (ts.size - request.start) ∧
          (ts.size < 2 ^ 63 → call.level + 1 < 2 ^ 64)) ∧
      (∀ level step, .step level step ∈ (Session.parse ⟨ts, limit, {}⟩ request).2.journal.events →
        level ≤ 2 * (ts.size - request.start)) ∧
      ((∃ parsed, (Session.parse ⟨ts, limit, {}⟩ request).1 = .ok parsed) ∨
        ∃ error, (Session.parse ⟨ts, limit, {}⟩ request).1 = .error (.malformed error))) ∧
    ∀ source, (tokenize source).length ≤ 126 →
      ∀ stop, Script.parse defaultNesting source ≠ .error (.tooDeep stop) := by
  constructor
  · intro ts limit request hlimit
    refine ⟨?_, fun level step => Session.level_le_of_mem_events ts limit request, ?_⟩
    · intro call hcall
      have hlevel : call.level ≤ 2 * (ts.size - request.start) :=
        Session.level_le_of_mem_calls (Journal.faithful_empty ts) hcall
      exact ⟨hlevel, fun hsize => by omega⟩
    · have hroom := Session.parse_ne_tooDeep_of_size_le ts limit request hlimit
      cases hparse : (Session.parse ⟨ts, limit, {}⟩ request).1 with
      | ok parsed => exact .inl ⟨parsed, rfl⟩
      | error error =>
        cases error with
        | malformed error => exact .inr ⟨error, rfl⟩
        | tooDeep stop => exact absurd hparse (hroom stop)
  · intro source hlength stop
    by_cases hempty : tokenize source = []
    · rw [Script.parse_of_empty hempty]
      exact nofun
    · have hsize : 2 * ((Script.enclose (tokenize source)).size - 0) ≤ defaultNesting := by
        rw [size_enclose, defaultNesting]
        omega
      have hroom := Session.parse_ne_tooDeep_of_size_le _ _ ⟨0, none⟩ hsize stop
      rw [Script.parse_of_nonempty hempty]
      cases hparse : (Session.parse ⟨Script.enclose (tokenize source), defaultNesting, {}⟩
          ⟨0, none⟩).1 with
      | ok parsed => exact Script.ofParsed_ne_tooDeep _ parsed stop
      | error error =>
        rw [hparse] at hroom
        rintro ⟨⟩
        exact hroom rfl

/-- A lone bracket reaches the two levels: what it opens may be what a call calls, and that may be a
    function whose type comes first. -/
theorem nesting_bounded_by_tokens_lone_bracket :
    2 * ((#[.symbol .openParen] : TokenStream).size - 0) ≤ 2 ∧
      (Session.calls ⟨#[.symbol .openParen], 2, {}⟩ ⟨0, none⟩).map Call.level =
        [0, 1, 1, 1, 2, 2, 2, 1] ∧
      (∀ call ∈ Session.calls ⟨#[.symbol .openParen], 2, {}⟩ ⟨0, none⟩,
        call.level ≤ 2 ∧ call.level + 1 < 2 ^ 64) ∧
      (tokenize "(").length ≤ 126 ∧
      ∀ stop, Script.parse defaultNesting "(" ≠ .error (.tooDeep stop) := by
  have hlength : (tokenize "(").length ≤ 126 := by cbv
  have hcalls := (nesting_bounded_by_tokens.1 #[.symbol .openParen] 2 ⟨0, none⟩ (by decide)).1
  refine ⟨by decide, by cbv, fun call hcall => ?_, hlength, nesting_bounded_by_tokens.2 "(" hlength⟩
  exact ⟨(hcalls call hcall).1, (hcalls call hcall).2 (by decide)⟩

end CurlyScript
