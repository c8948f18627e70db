import CurlyScript.Proofs.Inquiry.Contract
import CurlyScript.Proofs.Session.Afresh

namespace CurlyScript

/-- So many levels are enough to answer a request, the level of the request itself included. Two
    are spent on a token at most: a call asks for its callee at its own place, and the callee asks
    for what its parentheses hold. What may name a type is read without asking. -/
def Request.need (ts : TokenStream) (request : Request) : Nat :=
  if request.filter = some .types then 1
  else if request.filter = some .callables then max 1 (2 * (ts.size - request.start))
  else 2 * (ts.size - request.start) + 1

/-- A node that is read somewhere takes up the tokens from there on, at least one of them if there
    are any. -/
def Request.AdvancedBy (ts : TokenStream) (request : Request) (verdict : Verdict) : Prop :=
  ∀ parsed, verdict = .ok parsed → request.start ≤ parsed.cursor.token ∧
    (request.start < ts.size → request.start < parsed.cursor.token)

/-- The contract under which some levels are enough. -/
def within (ts : TokenStream) (levels : Nat) : Contract Unit where
  allows _ request := request.need ts ≤ levels
  answers _ request verdict _ := request.AdvancedBy ts verdict

theorem Request.need_le (ts : TokenStream) (request : Request) :
    request.need ts ≤ 2 * (ts.size - request.start) + 1 := by
  unfold need
  split
  · omega
  · split <;> omega

theorem Request.need_pos (ts : TokenStream) (request : Request) : 0 < request.need ts := by
  unfold need
  split
  · omega
  · split <;> omega

theorem Request.need_types (ts : TokenStream) (i : Nat) :
    Request.need ts ⟨i, some .types⟩ = 1 :=
  if_pos rfl

theorem Request.need_callables (ts : TokenStream) (i : Nat) :
    Request.need ts ⟨i, some .callables⟩ = max 1 (2 * (ts.size - i)) := by
  have hne : NodeFilter.callables ≠ .types := by decide
  simp [need, hne]

theorem Request.need_any (ts : TokenStream) (i : Nat) :
    Request.need ts ⟨i, none⟩ = 2 * (ts.size - i) + 1 := by
  simp [need]

section

variable {ts : TokenStream} {levels : Nat}

theorem within_allows_any {i : Nat} (hlevels : 2 * (ts.size - i) + 1 ≤ levels) :
    (within ts levels).allows () ⟨i, none⟩ := by
  change Request.need ts _ ≤ levels
  rwa [Request.need_any]

theorem within_allows_types {i : Nat} (hlevels : 1 ≤ levels) :
    (within ts levels).allows () ⟨i, some .types⟩ := by
  change Request.need ts _ ≤ levels
  rwa [Request.need_types]

theorem Delimiters.invariant_within (delimiters : Delimiters) {start : Nat}
    (hlevels : 2 * (ts.size - start) + 1 ≤ levels) :
    delimiters.Invariant ts (within ts levels) (fun cursor _ => start ≤ cursor.token)
      fun cursor _ => start < cursor.token where
  blanks cursor _ hle := Nat.le_trans hle (ts.le_skipBlanks cursor.token)
  separator _ _ hle _ := Nat.le_succ_of_le hle
  closer _ _ hle _ := Nat.lt_succ_of_le hle
  allows _ _ hle _ := within_allows_any (by omega)
  item _ _ hle parsed _ hparsed := Nat.le_trans hle (hparsed parsed rfl).1

theorem Delimiters.items_keeps (delimiters : Delimiters) (budget : Nat) (cursor : Cursor)
    (found : List Node) (hlevels : 2 * (ts.size - cursor.token) + 1 ≤ levels) :
    (delimiters.items ts budget cursor found).Keeps (within ts levels)
      (fun result _ => cursor.token < result.2.token) (fun _ => True) () :=
  (delimiters.invariant_within hlevels).keeps_items _ budget found (Nat.le_refl _)

theorem Rule.blockAt_keeps (start : Nat) (cursor : Cursor)
    (hlevels : 2 * (ts.size - cursor.token) ≤ levels + 1) :
    (blockAt ts start cursor).Keeps (within ts levels)
      (fun parsed _ => cursor.token < parsed.cursor.token) (fun _ => True) () := by
  simp only [blockAt, Attempt.keeps_ite, Attempt.keeps_bind, Attempt.keeps_pure,
    Attempt.keeps_decline]
  split
  · next hsees =>
    have hlt := TokenStream.lt_size_of_sees hsees
    refine (Delimiters.items_keeps _ _ cursor.skip [] ?_).mono (fun result _ h => ?_) fun _ h => h
    · rw [Cursor.skip_token]
      omega
    · exact Nat.lt_of_succ_lt h
  · trivial

theorem Rule.restOfString_advances {quote : Quote} {cursor next : Cursor}
    {captured tokens : List Token}
    (hrest : restOfString ts quote cursor captured = .ok (tokens, next)) :
    cursor.token < next.token := by
  fun_induction restOfString ts quote cursor captured with
  | case1 cursor captured hlt token next' hinside ih =>
    have hstep := ih hrest
    rw [Cursor.advance_token] at hstep
    omega
  | case2 cursor captured hlt token next' hinside =>
    obtain ⟨-, rfl⟩ := Prod.mk.inj (Except.ok.inj hrest)
    rw [Cursor.advance_token]
    omega
  | case3 cursor captured hge => cases hrest

theorem Rule.stringAt_keeps (start : Nat) (cursor : Cursor) :
    (stringAt ts start cursor).Keeps (within ts levels)
      (fun parsed _ => cursor.token < parsed.cursor.token) (fun _ => True) () := by
  unfold stringAt
  split
  · trivial
  · next token htoken =>
    split
    · trivial
    · next quote hquote =>
      split
      · next tokens next hrest =>
        have hadvances := restOfString_advances hrest
        rw [Cursor.advance_token] at hadvances
        exact Nat.lt_of_succ_lt hadvances
      · exact Attempt.keeps_rejected ..

theorem Rule.namedBody_keeps {start i : Nat} (name : String) (cursor : Cursor)
    (hbefore : i < cursor.token) (hlevels : 2 * (ts.size - cursor.token) + 1 ≤ levels) :
    (namedBody start name cursor).Keeps (within ts levels)
      (fun parsed _ => i < parsed.cursor.token) (fun _ => True) () := by
  simp only [namedBody, Attempt.keeps_bind, Attempt.keeps_require, Attempt.keeps_pure]
  refine ⟨within_allows_any hlevels, fun parsed _ hparsed => ?_⟩
  exact Nat.lt_of_lt_of_le hbefore (hparsed parsed rfl).1

theorem Rule.parameterList_keeps {matched : Cursor → Unit → Prop} (cursor : Cursor)
    (hmatched : ∀ next, next.token = cursor.token + 2 → cursor.token < ts.size → matched next ()) :
    (parameterList ts cursor).Keeps (within ts levels) matched (fun _ => True) () :=
  keeps_parameterList trivial fun hopen _ => hmatched _ rfl (TokenStream.lt_size_of_sees hopen)

theorem Rule.nameAfterType_keeps {matched : String × Cursor → Unit → Prop} (cursor : Cursor)
    (hlevels : 1 ≤ levels)
    (hmatched : ∀ name next, cursor.token ≤ next.token → matched (name, next) ()) :
    (nameAfterType ts cursor).Keeps (within ts levels) matched (fun _ => True) () :=
  keeps_nameAfterType trivial (fun _ => within_allows_types hlevels)
    fun parsed name _ hparsed => hmatched name _ (hparsed parsed rfl).1

theorem Rule.namedFunctionAt_keeps (start : Nat) (cursor : Cursor) (hpositive : 1 ≤ levels)
    (hlevels : 2 * (ts.size - cursor.token) ≤ levels + 1) :
    (namedFunctionAt ts start cursor).Keeps (within ts levels)
      (fun parsed _ => cursor.token < parsed.cursor.token) (fun _ => True) () := by
  simp only [namedFunctionAt, Attempt.keeps_bind, Attempt.keeps_probe]
  refine ⟨within_allows_types hpositive, fun first _ hfirst => ?_, fun _ _ _ => trivial⟩
  have hmoved : cursor.token ≤ first.cursor.token := (hfirst first rfl).1
  have hbody (name : String) (next : Cursor) (hnext : cursor.token + 2 ≤ next.token)
      (hlt : cursor.token < ts.size) :
      (namedBody start name (next.skipBlanks ts)).Keeps (within ts levels)
        (fun parsed _ => cursor.token < parsed.cursor.token) (fun _ => True) () := by
    have hskip := ts.le_skipBlanks next.token
    apply namedBody_keeps
    · rw [Cursor.skipBlanks_token]
      omega
    · rw [Cursor.skipBlanks_token]
      omega
  split
  · simp only [Attempt.keeps_bind]
    refine nameAfterType_keeps _ hpositive fun name next hnext => ?_
    refine parameterList_keeps next fun last hlast hlt => ?_
    rw [Cursor.advance_token, Cursor.moveTo_token] at hnext
    exact hbody name last (by omega) (by omega)
  · split
    · trivial
    · next name hname =>
      simp only [Attempt.keeps_bind]
      refine parameterList_keeps _ fun last hlast hlt => ?_
      rw [Cursor.moveTo_token] at hlast hlt
      simp only [Attempt.keeps_ite]
      split
      · exact hbody name last (by omega) (by omega)
      · trivial

theorem Rule.inlineFunctionAt_keeps (start : Nat) (cursor : Cursor) (hpositive : 1 ≤ levels)
    (hlevels : 2 * (ts.size - cursor.token) ≤ levels + 1) :
    (inlineFunctionAt ts start cursor).Keeps (within ts levels)
      (fun parsed _ => cursor.token < parsed.cursor.token) (fun _ => True) () := by
  simp only [inlineFunctionAt, Attempt.keeps_bind, Attempt.keeps_probe]
  refine ⟨within_allows_types hpositive, fun type _ htype => ?_, fun _ _ _ => trivial⟩
  have hmoved : cursor.token ≤ type.cursor.token := (htype type rfl).1
  refine parameterList_keeps _ fun last hlast hlt => ?_
  rw [Cursor.moveTo_token] at hlast hlt
  have hskip := ts.le_skipBlanks last.token
  simp only [Attempt.keeps_eat, Attempt.keeps_require, Attempt.keeps_pure]
  split
  · split
    · have hskip' := ts.le_skipBlanks (ts.skipBlanks last.token + 1 + 1)
      simp only [Cursor.skipBlanks_token, Cursor.advance_token, Cursor.moveTo_token]
      refine ⟨within_allows_any (by omega), fun body _ hbody => ?_⟩
      have hbodyMoved := (hbody body rfl).1
      simp only at hbodyMoved
      omega
    · trivial
  · trivial

theorem Rule.executionAt_keeps (start : Nat) (cursor : Cursor) (hpositive : 1 ≤ levels)
    (hlevels : 2 * (ts.size - cursor.token) ≤ levels) :
    (executionAt ts start cursor).Keeps (within ts levels)
      (fun parsed _ => cursor.token < parsed.cursor.token) (fun _ => True) () := by
  simp only [executionAt, Attempt.keeps_bind, Attempt.keeps_probe, Attempt.keeps_ite,
    Attempt.keeps_pure, Attempt.keeps_decline]
  refine ⟨?_, fun callee _ hcallee => ?_, fun _ _ _ => trivial⟩
  · change Request.need ts _ ≤ levels
    rw [Request.need_callables]
    omega
  · have hmoved : cursor.token ≤ callee.cursor.token := (hcallee callee rfl).1
    have hskip := ts.le_skipBlanks callee.cursor.token
    split
    · next hopen =>
      have hlt := TokenStream.lt_size_of_sees hopen
      simp only [Cursor.skipBlanks_token, Cursor.moveTo_token] at hlt
      refine (Delimiters.items_keeps _ _ (Cursor.skip _) [] ?_).mono (fun result _ h => ?_)
        fun _ h => h
      · simp only [Cursor.skip_token, Cursor.skipBlanks_token, Cursor.moveTo_token]
        omega
      · simp only [Cursor.skip_token, Cursor.skipBlanks_token, Cursor.moveTo_token] at h
        omega
    · trivial

theorem Rule.groupingAt_keeps (cursor : Cursor)
    (hlevels : 2 * (ts.size - cursor.token) ≤ levels + 1) :
    (groupingAt ts cursor).Keeps (within ts levels)
      (fun parsed _ => cursor.token < parsed.cursor.token) (fun _ => True) () := by
  simp only [groupingAt, Attempt.keeps_bind, Attempt.keeps_eat, Attempt.keeps_require,
    Attempt.keeps_pure]
  split
  · next hopen =>
    have hlt := TokenStream.lt_size_of_sees hopen
    simp only [Cursor.advance_token]
    refine ⟨within_allows_any (by omega), fun inner _ hinner => ?_⟩
    have hmoved : cursor.token + 1 ≤ inner.cursor.token := (hinner inner rfl).1
    have hskip := ts.le_skipBlanks inner.cursor.token
    split
    · simp only [Cursor.skipBlanks_token, Cursor.moveTo_token]
      omega
    · trivial
  · trivial

theorem Rule.identifierAt_keeps (start : Nat) (cursor : Cursor) :
    (identifierAt ts start cursor).Keeps (within ts levels)
      (fun parsed _ => cursor.token < parsed.cursor.token) (fun _ => True) () := by
  unfold identifierAt
  split
  · simp only [Attempt.keeps_ite, Attempt.keeps_pure, Attempt.keeps_decline, Cursor.advance_token]
    split
    · omega
    · trivial
  · trivial

theorem Rule.attempt_keeps (start : Nat) (cursor : Cursor) (rule : Rule) (hpositive : 1 ≤ levels)
    (hlevels : 2 * (ts.size - cursor.token) ≤ levels + 1)
    (hexecution : rule = .execution → 2 * (ts.size - cursor.token) ≤ levels) :
    (rule.attempt ts start cursor).Keeps (within ts levels)
      (fun parsed _ => cursor.token < parsed.cursor.token) (fun _ => True) () := by
  cases rule with
  | block => exact blockAt_keeps start cursor hlevels
  | string => exact stringAt_keeps start cursor
  | namedFunction => exact namedFunctionAt_keeps start cursor hpositive hlevels
  | inlineFunction => exact inlineFunctionAt_keeps start cursor hpositive hlevels
  | execution => exact executionAt_keeps start cursor hpositive (hexecution rfl)
  | grouping => exact groupingAt_keeps cursor hlevels
  | identifier => exact identifierAt_keeps start cursor

end

theorem Rule.candidates_types : Rule.candidates (some .types) = [.identifier] :=
  rfl

theorem Rule.candidates_callables :
    Rule.candidates (some .callables) = [.identifier, .namedFunction, .inlineFunction, .grouping] :=
  rfl

theorem Rule.attempt_keeps_of_mem_candidates {ts : TokenStream} {levels : Nat} {request : Request}
    (hlevels : request.need ts ≤ levels + 1) (hlt : request.start < ts.size) {rule : Rule}
    (hrule : rule ∈ candidates request.filter) (cursor : Cursor)
    (hcursor : request.start ≤ cursor.token) :
    (rule.attempt ts request.start cursor).Keeps (within ts levels)
      (fun parsed _ => cursor.token < parsed.cursor.token) (fun _ => True) () := by
  unfold Request.need at hlevels
  split at hlevels
  · next htypes =>
    rw [htypes, candidates_types, List.mem_singleton] at hrule
    subst hrule
    exact identifierAt_keeps ..
  · split at hlevels
    · next hcallables =>
      have hother : rule ≠ .execution := by
        rintro rfl
        rw [hcallables, candidates_callables] at hrule
        simp at hrule
      exact attempt_keeps _ cursor rule (by omega) (by omega) fun h => absurd h hother
    · exact attempt_keeps _ cursor rule (by omega) (by omega) fun _ => by omega

/-- Whatever a request asks for is answered with a level less, and a node moves on. -/
theorem Request.inquiry_keeps {ts : TokenStream} {levels : Nat} (request : Request)
    (hlevels : request.need ts ≤ levels + 1) :
    (request.inquiry ts).Keeps (within ts levels) (fun verdict _ => request.AdvancedBy ts verdict)
      () := by
  have hskip : request.start ≤ ((Cursor.fresh request.start).skipBlanks ts).token :=
    ts.le_skipBlanks request.start
  unfold Request.inquiry
  split
  · next hlt =>
    have hmatched (parsed : Parsed) (_ : Unit)
        (hparsed : ((Cursor.fresh request.start).skipBlanks ts).token < parsed.cursor.token) :
        request.AdvancedBy ts (.ok parsed) := by
      intro _ h
      cases h
      exact ⟨by omega, fun _ => by omega⟩
    have herror (error : SyntaxError) (_ : Unit) : request.AdvancedBy ts (.error error) :=
      fun _ h => nomatch h
    have hrules (rule : Rule) (hrule : rule ∈ Rule.candidates request.filter) (_ : Unit)
        (_ : True) := Rule.attempt_keeps_of_mem_candidates hlevels hlt hrule
          ((Cursor.fresh request.start).skipBlanks ts) hskip
    exact keeps_tryRules hmatched herror hrules trivial
  · next hge =>
    split
    · intro parsed h
      cases h
      exact ⟨Nat.le_refl _, fun hlt => absurd hlt hge⟩
    · intro parsed h
      cases h

/-- With as many levels as it needs, a request gets a verdict. -/
theorem exists_answerAfresh (ts : TokenStream) (limit : Nat) {levels : Nat} {request : Request}
    (hlevels : request.need ts ≤ levels) :
    ∃ verdict, answerAfresh ts limit levels request = .ok verdict ∧
      request.AdvancedBy ts verdict := by
  induction levels generalizing request with
  | zero =>
    have hpositive := request.need_pos ts
    omega
  | succ levels ih =>
    obtain ⟨verdict, _, hrun, hadvanced⟩ := (request.inquiry_keeps hlevels).exists_run
      fun _ other hother => by
        obtain ⟨verdict, hverdict, hadvanced⟩ := ih hother
        exact ⟨verdict, (), hverdict, hadvanced⟩
    exact ⟨verdict, hrun, hadvanced⟩

end CurlyScript
