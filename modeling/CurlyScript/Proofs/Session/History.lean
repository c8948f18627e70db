import CurlyScript.Proofs.Session.Limit

namespace CurlyScript

/-- Answers a session's requests one after the other, and keeps nothing but the session. -/
def Session.parseAll (session : Session) (requests : List Request) : Session :=
  requests.foldl (fun session request => (session.parse request).2) session

/-- A journal that remembers verdicts of the grammar only. Unlike a sound one it may lack what a
    verdict was found by, so that it outlives a parse that was given up. -/
def Journal.Faithful (ts : TokenStream) (journal : Journal) : Prop :=
  ∀ request found, journal.lookup request = some found → found = verdict ts request

/-- How a journal goes on: nothing is forgotten, and what is added is true. -/
structure Journal.Continues (ts : TokenStream) (journal next : Journal) : Prop where
  keeps : ∀ request found, journal.lookup request = some found → next.lookup request = some found
  faithful : next.Faithful ts

/-- A result that is the value, or that was given up because something does not fit. -/
def Settles {α : Type} (limit : Nat) (value : α) (fits : Prop) : Except TooDeep α → Prop
  | .ok a => a = value
  | .error stop => stop.limit = limit ∧ ¬ fits

/-- Whatever it remembers from before, a computation comes to the same value unless it is given up,
    and it is only given up where something does not fit. -/
def Recorder.Reliable {α : Type} (ts : TokenStream) (limit : Nat) (value : α) (fits : Prop)
    (recorder : Recorder α) : Prop :=
  ∀ journal, journal.Faithful ts → journal.Continues ts (recorder.runFrom journal).2 ∧
    Settles limit value fits (recorder.runFrom journal).1

theorem Settles.mono {α : Type} {limit : Nat} {value : α} {fits fits' : Prop}
    {result : Except TooDeep α} (hsettles : Settles limit value fits result)
    (hfits : fits' → fits) : Settles limit value fits' result := by
  cases result with
  | ok a => exact hsettles
  | error stop => exact ⟨hsettles.1, fun h => hsettles.2 (hfits h)⟩

namespace Journal

variable {ts : TokenStream} {journal next last : Journal}

theorem Continues.refl (hfaithful : journal.Faithful ts) : journal.Continues ts journal where
  keeps _ _ hfound := hfound
  faithful := hfaithful

theorem Continues.trans (hfirst : journal.Continues ts next) (hsecond : next.Continues ts last) :
    journal.Continues ts last where
  keeps request found hfound := hsecond.keeps request found (hfirst.keeps request found hfound)
  faithful := hsecond.faithful

/-- A verdict that is remembered takes the place of the same verdict or of none. -/
theorem Faithful.continues_remember (hfaithful : journal.Faithful ts) (request : Request) :
    journal.Continues ts (journal.remember request (verdict ts request)) where
  keeps other found hfound := by
    rw [lookup_remember]
    split
    · next heq => rw [hfaithful other found hfound, heq]
    · exact hfound
  faithful other found hfound := by
    rw [lookup_remember] at hfound
    split at hfound
    · next heq =>
      rw [heq]
      exact (Option.some.inj hfound).symm
    · exact hfaithful other found hfound

theorem faithful_empty (ts : TokenStream) : Journal.Faithful ts {} :=
  (sound_empty ts).verdicts

end Journal

section

variable {ts : TokenStream} {limit levels : Nat}

/-- What is worked out from reliable answers is reliable, up to the first answer that is given
    up. -/
theorem Inquiry.run_reliable {α : Type}
    (hanswer : ∀ request, (answer ts limit levels request).Reliable ts limit (verdict ts request)
      (request.Fits ts levels)) (event : Step → Event) (inquiry : Inquiry α) :
    (inquiry.run (answer ts limit levels) fun step => modify (·.log (event step))).Reliable ts limit
      (inquiry.eval (verdict ts))
      (∀ other ∈ inquiry.asks (verdict ts), other.Fits ts levels) := by
  induction inquiry with
  | done result => exact fun journal hfaithful => ⟨.refl hfaithful, rfl⟩
  | ask request resume ih =>
    intro journal hfaithful
    obtain ⟨hcontinues, hfirst⟩ := hanswer request journal hfaithful
    rw [run, Recorder.runFrom_bind]
    rcases hrun : (answer ts limit levels request).runFrom journal with ⟨stop | found, next⟩
    · rw [hrun] at hcontinues hfirst
      exact ⟨hcontinues, hfirst.1, fun hfits => hfirst.2 (hfits request (List.mem_cons_self ..))⟩
    · rw [hrun] at hcontinues hfirst
      obtain rfl : found = verdict ts request := hfirst
      obtain ⟨hcontinues', hrest⟩ := ih (verdict ts request) next hcontinues.faithful
      exact ⟨hcontinues.trans hcontinues', hrest.mono fun hfits other hother =>
        hfits other (List.mem_cons_of_mem _ hother)⟩
  | note step rest ih =>
    intro journal hfaithful
    rw [run, Recorder.runFrom_bind, Recorder.runFrom_modify]
    have hlogged : (journal.log (event step)).Faithful ts := hfaithful
    obtain ⟨hcontinues, hrest⟩ := ih _ hlogged
    exact ⟨⟨hcontinues.keeps, hcontinues.faithful⟩, hrest⟩

/-- Answers stay reliable whatever was asked before, since a verdict does not depend on the level
    at which it was found. -/
theorem answer_reliable (ts : TokenStream) (limit levels : Nat) (request : Request) :
    (answer ts limit levels request).Reliable ts limit (verdict ts request)
      (request.Fits ts levels) := by
  induction levels generalizing request with
  | zero => exact fun journal hfaithful => ⟨.refl hfaithful, rfl, fun hfits => hfits⟩
  | succ levels ih =>
    intro journal hfaithful
    rw [answer_succ]
    cases hlookup : journal.lookup request with
    | some found => exact ⟨.refl hfaithful, hfaithful request found hlookup⟩
    | none =>
      obtain ⟨hcontinues, hrun⟩ := Inquiry.run_reliable ih (.step (limit - levels))
        (request.inquiry ts) journal hfaithful
      dsimp only
      split
      · next stop next hstop =>
        rw [hstop] at hcontinues hrun
        exact ⟨hcontinues, hrun⟩
      · next found next hfound =>
        rw [hfound] at hcontinues hrun
        obtain rfl : found = verdict ts request := hrun.trans (verdict_eq ts request).symm
        exact ⟨hcontinues.trans (hcontinues.faithful.continues_remember request), rfl⟩

/-- With a faithful journal an answer is given up or the verdict of the grammar, and the journal
    stays faithful. -/
theorem answer_cases (limit levels : Nat) (request : Request) {journal : Journal}
    (hfaithful : journal.Faithful ts) :
    (∃ stop next, (answer ts limit levels request).runFrom journal = (.error stop, next)) ∨
      ∃ next, (answer ts limit levels request).runFrom journal = (.ok (verdict ts request), next) ∧
        next.Faithful ts := by
  obtain ⟨hcontinues, hsettles⟩ := answer_reliable ts limit levels request journal hfaithful
  rcases hrun : (answer ts limit levels request).runFrom journal with ⟨stop | found, next⟩
  · exact .inl ⟨stop, next, rfl⟩
  · rw [hrun] at hcontinues hsettles
    obtain rfl : found = verdict ts request := hsettles
    exact .inr ⟨next, rfl, hcontinues.faithful⟩

/-- What was answered is remembered. -/
theorem lookup_of_answer {journal next : Journal} {request : Request} {found : Verdict}
    (hanswer : (answer ts limit levels request).runFrom journal = (.ok found, next)) :
    next.lookup request = some found := by
  obtain _ | levels := levels
  · cases hanswer
  · rw [answer_succ] at hanswer
    cases hlookup : journal.lookup request with
    | some known =>
      simp only [hlookup, Prod.mk.injEq, Except.ok.injEq] at hanswer
      obtain ⟨rfl, rfl⟩ := hanswer
      exact hlookup
    | none =>
      simp only [hlookup] at hanswer
      split at hanswer
      · cases hanswer
      · simp only [Prod.mk.injEq, Except.ok.injEq] at hanswer
        obtain ⟨rfl, rfl⟩ := hanswer
        rw [Journal.lookup_remember, if_pos rfl]

end

namespace Session

variable {session : Session} {request : Request}

theorem parse_eq (session : Session) (request : Request) :
    session.parse request =
      (outcome ((answer session.tokens session.limit (session.limit + 1) request).runFrom
          session.journal).1,
        { session with
          journal := ((answer session.tokens session.limit (session.limit + 1) request).runFrom
            session.journal).2 }) :=
  rfl

/-- A session on the same tokens with the same limit that remembers at least as much, and nothing
    that is wrong. -/
structure Continues (session later : Session) : Prop where
  tokens : later.tokens = session.tokens
  limit : later.limit = session.limit
  journal : session.journal.Continues session.tokens later.journal

theorem continues_parse (hfaithful : session.journal.Faithful session.tokens) (request : Request) :
    session.Continues (session.parse request).2 where
  tokens := rfl
  limit := rfl
  journal := by
    rw [parse_eq]
    exact (answer_reliable _ _ _ request session.journal hfaithful).1

theorem continues_parseAll (hfaithful : session.journal.Faithful session.tokens)
    (requests : List Request) : session.Continues (session.parseAll requests) := by
  induction requests generalizing session with
  | nil => exact ⟨rfl, rfl, .refl hfaithful⟩
  | cons request requests ih =>
    have hfirst := continues_parse hfaithful request
    have hrest : (session.parse request).2.Continues
        ((session.parse request).2.parseAll requests) := by
      apply ih
      exact hfirst.journal.faithful
    exact ⟨hrest.tokens, hrest.limit, hfirst.journal.trans hrest.journal⟩

/-- With any memory that is true a parse comes to the verdict of the grammar, or it is given up
    where a parse without memory is given up too. -/
theorem parse_faithful (hfaithful : session.journal.Faithful session.tokens) (request : Request) :
    (session.parse request).1 = outcome (.ok (verdict session.tokens request)) ∨
      (∃ position, (session.parse request).1 = .error (.tooDeep ⟨session.limit, position⟩)) ∧
        request.NestsBeyond session.tokens session.limit := by
  have hanswer := (answer_reliable session.tokens session.limit (session.limit + 1) request
    session.journal hfaithful).2
  rw [parse_eq]
  cases hresult : ((answer session.tokens session.limit (session.limit + 1) request).runFrom
    session.journal).1 with
  | ok found =>
    rw [hresult] at hanswer
    obtain rfl : found = verdict session.tokens request := hanswer
    exact .inl rfl
  | error stop =>
    rw [hresult] at hanswer
    obtain ⟨hlimit, hdeep⟩ := hanswer
    rw [Request.fits_iff_not_nestsBeyond, not_not] at hdeep
    rw [← hlimit] at hdeep ⊢
    exact .inr ⟨⟨stop.position, rfl⟩, hdeep⟩

/-- A request that was answered is answered in the same way from then on. -/
theorem Continues.parse_eq_of_answered {later : Session}
    (hcontinues : (session.parse request).2.Continues later)
    (hanswered : ∀ stop, (session.parse request).1 ≠ .error (.tooDeep stop)) :
    (later.parse request).1 = (session.parse request).1 := by
  rw [parse_eq] at hcontinues hanswered
  rcases hrun : (answer session.tokens session.limit (session.limit + 1) request).runFrom
    session.journal with ⟨stop | found, next⟩
  · rw [hrun] at hanswered
    exact absurd rfl (hanswered stop)
  · rw [hrun] at hcontinues
    have hknown := hcontinues.journal.keeps request found (lookup_of_answer hrun)
    rw [parse_eq, parse_eq, hrun]
    dsimp only
    rw [answer_succ, hknown]

section

variable (ts : TokenStream) (limit : Nat) (history : List Request)

theorem continues_new : Continues ⟨ts, limit, {}⟩ (parseAll ⟨ts, limit, {}⟩ history) := by
  apply continues_parseAll
  exact Journal.faithful_empty ts

/-- Whatever a session was used for, it remembers nothing that is wrong. -/
theorem faithful_parseAll :
    (parseAll ⟨ts, limit, {}⟩ history).journal.Faithful
      (parseAll ⟨ts, limit, {}⟩ history).tokens := by
  have hbefore := continues_new ts limit history
  rw [hbefore.tokens]
  exact hbefore.journal.faithful

theorem parse_parseAll (request : Request) :
    ((parseAll ⟨ts, limit, {}⟩ history).parse request).1 = outcome (.ok (verdict ts request)) ∨
      (∃ position, ((parseAll ⟨ts, limit, {}⟩ history).parse request).1 =
        .error (.tooDeep ⟨limit, position⟩)) ∧ request.NestsBeyond ts limit := by
  have hbefore := continues_new ts limit history
  have hparse := parse_faithful (faithful_parseAll ts limit history) request
  rwa [hbefore.tokens, hbefore.limit] at hparse

end

/-- What a session reads is there for the grammar, whatever the session was used for before. -/
theorem verdict_of_parseAll_ok {ts : TokenStream} {limit : Nat} {history : List Request}
    {request : Request} {parsed : Parsed}
    (hok : ((parseAll ⟨ts, limit, {}⟩ history).parse request).1 = .ok parsed) :
    verdict ts request = .ok parsed := by
  obtain hsame | ⟨⟨position, hdeep⟩, -⟩ := parse_parseAll ts limit history request
  · rw [hok] at hsame
    exact Except.ok.inj (outcome_eq_ok.mp hsame.symm)
  · rw [hok] at hdeep
    cases hdeep

end Session

/-- A session may be used again after any requests, failed and deep ones included: the next one is
    answered as with all the room it takes or given up, not given up where a new session would do,
    and answered in the same way ever after. -/
theorem Session.parse_after_any_history (ts : TokenStream) (limit : Nat) (history : List Request)
    (request : Request) :
    (∀ high, 2 * (ts.size - request.start) ≤ high →
      TrimmedTo limit ((Session.parseAll ⟨ts, limit, {}⟩ history).parse request).1
        (Session.parse ⟨ts, high, {}⟩ request).1) ∧
    ((∀ stop, (Session.parse ⟨ts, limit, {}⟩ request).1 ≠ .error (.tooDeep stop)) →
      ((Session.parseAll ⟨ts, limit, {}⟩ history).parse request).1 =
        (Session.parse ⟨ts, limit, {}⟩ request).1) ∧
    ((∀ stop, ((Session.parseAll ⟨ts, limit, {}⟩ history).parse request).1 ≠
        .error (.tooDeep stop)) →
      ∀ between, ((((Session.parseAll ⟨ts, limit, {}⟩ history).parse request).2.parseAll
          between).parse request).1 =
        ((Session.parseAll ⟨ts, limit, {}⟩ history).parse request).1) := by
  have hparse := parse_parseAll ts limit history request
  refine ⟨fun high hhigh => ?_, fun hfresh => ?_, fun hanswered between => ?_⟩
  · have hneed := request.need_le ts
    rw [parse_of_need_le (by omega)]
    exact hparse.imp id And.left
  · obtain hverdict | ⟨-, hdeep⟩ := hparse
    · have hfits : ¬ request.NestsBeyond ts limit := by
        rintro hbeyond
        obtain ⟨position, hstop⟩ := parse_of_nestsBeyond hbeyond
        exact hfresh _ hstop
      rw [hverdict, parse_of_not_nestsBeyond hfits]
    · obtain ⟨position, hstop⟩ := parse_of_nestsBeyond hdeep
      exact absurd hstop (hfresh _)
  · have hnext := continues_parse (faithful_parseAll ts limit history) request
    exact (continues_parseAll hnext.journal.faithful between).parse_eq_of_answered hanswered

/-- What is too deep for a new session is answered by one that remembers its parts, and as it is
    answered where there is room. -/
theorem Session.parse_after_any_history_parenthesised :
    (Session.parse ⟨#[.symbol .openParen, .text "a", .symbol .closeParen], 1, {}⟩ ⟨0, none⟩).1 =
        .error (.tooDeep ⟨1, 0⟩) ∧
      ((Session.parseAll ⟨#[.symbol .openParen, .text "a", .symbol .closeParen], 1, {}⟩
          [⟨0, none⟩, ⟨1, none⟩, ⟨0, some .callables⟩]).parse ⟨0, none⟩).1 =
        .ok ⟨.identifier ⟨1, 2⟩ "a", .fresh 3⟩ ∧
      (Session.parse ⟨#[.symbol .openParen, .text "a", .symbol .closeParen], 6, {}⟩ ⟨0, none⟩).1 =
        .ok ⟨.identifier ⟨1, 2⟩ "a", .fresh 3⟩ := by
  have hanswered : ((Session.parseAll ⟨#[.symbol .openParen, .text "a", .symbol .closeParen], 1, {}⟩
      [⟨0, none⟩, ⟨1, none⟩, ⟨0, some .callables⟩]).parse ⟨0, none⟩).1 =
        .ok ⟨.identifier ⟨1, 2⟩ "a", .fresh 3⟩ := by cbv
  obtain ⟨htrimmed, -, -⟩ := Session.parse_after_any_history
    #[.symbol .openParen, .text "a", .symbol .closeParen] 1
    [⟨0, none⟩, ⟨1, none⟩, ⟨0, some .callables⟩] ⟨0, none⟩
  refine ⟨by cbv, hanswered, ?_⟩
  obtain hsame | ⟨position, hdeep⟩ := htrimmed 6 (by decide)
  · exact hsame.symm.trans hanswered
  · cases hanswered.symm.trans hdeep

end CurlyScript
