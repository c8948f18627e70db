import CurlyScript.Proofs.Grammar.Extent

namespace CurlyScript

namespace TokenStream

/-- The last token is a closing bracket, so that nothing else is last. -/
def Closed (ts : TokenStream) : Prop :=
  ts.sees (ts.size - 1) .closeCurly = true

variable {ts : TokenStream} {i : Nat}

theorem Closed.skipBlanks_lt (hclosed : ts.Closed) (hlt : i < ts.size) :
    ts.skipBlanks i < ts.size := by
  fun_induction skipBlanks ts i with
  | case1 i hlt hblank ih =>
    refine ih (Nat.lt_of_le_of_ne hlt fun heq => ?_)
    have hlast : i = ts.size - 1 := by omega
    rw [Closed, ← hlast, sees_iff, Array.getElem?_eq_getElem hlt, Option.some.injEq] at hclosed
    rw [hclosed] at hblank
    cases hblank
  | case2 i hlt hblank => exact hlt
  | case3 i hge => exact hlt

theorem Closed.succ_lt_size (hclosed : ts.Closed) {s : Symbol} (hsees : ts.sees i s = true)
    (hs : s ≠ .closeCurly) : i + 1 < ts.size := by
  refine Nat.lt_of_le_of_ne (lt_size_of_sees hsees) fun heq => ?_
  have hlast : ts.size - 1 = i := by omega
  rw [Closed, hlast, sees_eq_false hsees hs] at hclosed
  cases hclosed

end TokenStream

/-- The contract under which only places from an index on are asked for, and none behind the end of
    the input. -/
def inside (ts : TokenStream) (low : Nat) : Contract Unit where
  allows _ request := low ≤ request.start ∧ request.start < ts.size
  answers _ request verdict _ := request.AdvancedBy ts verdict

section

variable {ts : TokenStream} {low : Nat}

theorem inside_allows {i : Nat} {filter : Option NodeFilter} (hlow : low ≤ i)
    (hlt : i < ts.size) : (inside ts low).allows () ⟨i, filter⟩ :=
  ⟨hlow, hlt⟩

/-- A list asks where a token stands. -/
theorem Delimiters.invariant_inside (delimiters : Delimiters) :
    delimiters.Invariant ts (inside ts low) (fun cursor _ => low ≤ cursor.token)
      fun _ _ => True where
  blanks cursor _ hle := Nat.le_trans hle (ts.le_skipBlanks cursor.token)
  separator _ _ hle _ := Nat.le_succ_of_le hle
  closer _ _ _ _ := trivial
  allows _ _ hle hlt := inside_allows hle hlt
  item _ _ hle parsed _ hparsed := Nat.le_trans hle (hparsed parsed rfl).1

theorem Delimiters.items_inside (delimiters : Delimiters) (budget : Nat) (cursor : Cursor)
    (found : List Node) (declined : Unit → Prop) (hlow : low ≤ cursor.token) :
    (delimiters.items ts budget cursor found).Keeps (inside ts low) (fun _ _ => True) declined () :=
  delimiters.invariant_inside.keeps_items declined budget found hlow

/-- What a block asks for lies behind its opening bracket. -/
theorem Rule.blockAt_inside (start : Nat) (cursor : Cursor) (hlow : low ≤ cursor.token + 1) :
    (blockAt ts start cursor).Keeps (inside ts low) (fun _ _ => True)
      (fun _ => ts.sees cursor.token .openCurly = false) () := by
  simp only [blockAt, Attempt.keeps_ite, Attempt.keeps_bind, Attempt.keeps_pure,
    Attempt.keeps_decline]
  split
  · exact Delimiters.items_inside _ _ cursor.skip [] _ hlow
  · next hsees => exact Bool.eq_false_iff.mpr hsees

theorem Rule.stringAt_inside (start : Nat) (cursor : Cursor) :
    (stringAt ts start cursor).Keeps (inside ts low) (fun _ _ => True) (fun _ => True) () := by
  unfold stringAt
  split
  · trivial
  · split
    · trivial
    · split
      · trivial
      · exact Attempt.keeps_rejected ..

theorem Rule.parameterList_inside (hclosed : ts.Closed) {matched : Cursor → Unit → Prop}
    (cursor : Cursor)
    (hmatched : ∀ next, next.token = cursor.token + 2 → next.token < ts.size → matched next ()) :
    (parameterList ts cursor).Keeps (inside ts low) matched (fun _ => True) () :=
  keeps_parameterList trivial fun _ hclose =>
    hmatched _ rfl (hclosed.succ_lt_size hclose (by decide))

theorem Rule.nameAfterType_inside {matched : String × Cursor → Unit → Prop} (cursor : Cursor)
    (hlow : low ≤ cursor.token)
    (hmatched : ∀ name next, cursor.token ≤ next.token → matched (name, next) ()) :
    (nameAfterType ts cursor).Keeps (inside ts low) matched (fun _ => True) () :=
  keeps_nameAfterType trivial (inside_allows hlow)
    fun parsed name _ hparsed => hmatched name _ (hparsed parsed rfl).1

theorem Rule.namedBody_inside (hclosed : ts.Closed) (start : Nat) (name : String)
    (cursor : Cursor) (hlow : low ≤ cursor.token) (hlt : cursor.token < ts.size) :
    (namedBody start name (cursor.skipBlanks ts)).Keeps (inside ts low) (fun _ _ => True)
      (fun _ => True) () := by
  have hskip := ts.le_skipBlanks cursor.token
  simp only [namedBody, Attempt.keeps_bind, Attempt.keeps_require, Attempt.keeps_pure,
    Cursor.skipBlanks_token]
  exact ⟨inside_allows (by omega) (hclosed.skipBlanks_lt hlt), fun _ _ _ => trivial⟩

theorem Rule.namedFunctionAt_inside (hclosed : ts.Closed) (start : Nat) (cursor : Cursor)
    (hlow : low ≤ cursor.token) (hlt : cursor.token < ts.size) :
    (namedFunctionAt ts start cursor).Keeps (inside ts low) (fun _ _ => True) (fun _ => True)
      () := by
  simp only [namedFunctionAt, Attempt.keeps_bind, Attempt.keeps_probe]
  refine ⟨inside_allows hlow hlt, fun first _ hfirst => ?_, fun _ _ _ => trivial⟩
  have hmoved : cursor.token ≤ first.cursor.token := (hfirst first rfl).1
  split
  · simp only [Attempt.keeps_bind]
    refine nameAfterType_inside _ ?_ fun name next hnext => ?_
    · rw [Cursor.advance_token, Cursor.moveTo_token]
      omega
    · rw [Cursor.advance_token, Cursor.moveTo_token] at hnext
      refine parameterList_inside hclosed next fun last hlast hinside => ?_
      exact namedBody_inside hclosed start name last (by omega) hinside
  · split
    · trivial
    · next name hname =>
      simp only [Attempt.keeps_bind]
      refine parameterList_inside hclosed _ fun last hlast hinside => ?_
      rw [Cursor.moveTo_token] at hlast
      simp only [Attempt.keeps_ite]
      split
      · exact namedBody_inside hclosed start name last (by omega) hinside
      · trivial

theorem Rule.inlineFunctionAt_inside (hclosed : ts.Closed) (start : Nat) (cursor : Cursor)
    (hlow : low ≤ cursor.token) (hlt : cursor.token < ts.size) :
    (inlineFunctionAt ts start cursor).Keeps (inside ts low) (fun _ _ => True) (fun _ => True)
      () := by
  simp only [inlineFunctionAt, Attempt.keeps_bind, Attempt.keeps_probe]
  refine ⟨inside_allows hlow hlt, fun type _ htype => ?_, fun _ _ _ => trivial⟩
  have hmoved : cursor.token ≤ type.cursor.token := (htype type rfl).1
  refine parameterList_inside hclosed _ fun last hlast _ => ?_
  rw [Cursor.moveTo_token] at hlast
  have hskip := ts.le_skipBlanks last.token
  simp only [Attempt.keeps_eat, Attempt.keeps_require, Attempt.keeps_pure]
  split
  · split
    · next harrow =>
      have hnext := hclosed.skipBlanks_lt (hclosed.succ_lt_size harrow (by decide))
      have hskip' := ts.le_skipBlanks (ts.skipBlanks last.token + 1 + 1)
      simp only [Cursor.skipBlanks_token, Cursor.advance_token] at hnext ⊢
      exact ⟨inside_allows (by omega) hnext, fun _ _ _ => trivial⟩
    · trivial
  · trivial

theorem Rule.executionAt_inside (start : Nat) (cursor : Cursor)
    (hlow : low ≤ cursor.token) (hlt : cursor.token < ts.size) :
    (executionAt ts start cursor).Keeps (inside ts low) (fun _ _ => True) (fun _ => True)
      () := by
  simp only [executionAt, Attempt.keeps_bind, Attempt.keeps_probe, Attempt.keeps_ite,
    Attempt.keeps_pure, Attempt.keeps_decline]
  refine ⟨⟨hlow, hlt⟩, fun callee _ hcallee => ?_, fun _ _ _ => trivial⟩
  have hmoved : cursor.token ≤ callee.cursor.token := (hcallee callee rfl).1
  have hskip := ts.le_skipBlanks callee.cursor.token
  split
  · apply Delimiters.items_inside
    simp only [Cursor.skip_token, Cursor.skipBlanks_token, Cursor.moveTo_token]
    omega
  · trivial

theorem Rule.groupingAt_inside (hclosed : ts.Closed) (cursor : Cursor)
    (hlow : low ≤ cursor.token) :
    (groupingAt ts cursor).Keeps (inside ts low) (fun _ _ => True) (fun _ => True) () := by
  simp only [groupingAt, Attempt.keeps_bind, Attempt.keeps_eat, Attempt.keeps_require,
    Attempt.keeps_pure]
  split
  · next hopen =>
    have hnext := hclosed.succ_lt_size hopen (by decide)
    simp only [Cursor.advance_token]
    refine ⟨inside_allows (by omega) hnext, fun inner _ _ => ?_⟩
    split <;> trivial
  · trivial

theorem Rule.identifierAt_inside (start : Nat) (cursor : Cursor) :
    (identifierAt ts start cursor).Keeps (inside ts low) (fun _ _ => True) (fun _ => True)
      () := by
  unfold identifierAt
  split
  · split <;> trivial
  · trivial

theorem Rule.attempt_inside (hclosed : ts.Closed) (start : Nat) (cursor : Cursor)
    (hlow : low ≤ cursor.token) (hlt : cursor.token < ts.size) (rule : Rule) :
    (rule.attempt ts start cursor).Keeps (inside ts low) (fun _ _ => True) (fun _ => True)
      () := by
  cases rule with
  | block =>
    exact (blockAt_inside start cursor (by omega)).mono (fun _ _ h => h) fun _ _ => trivial
  | string => exact stringAt_inside start cursor
  | namedFunction => exact namedFunctionAt_inside hclosed start cursor hlow hlt
  | inlineFunction => exact inlineFunctionAt_inside hclosed start cursor hlow hlt
  | execution => exact executionAt_inside start cursor hlow hlt
  | grouping => exact groupingAt_inside hclosed cursor hlow
  | identifier => exact identifierAt_inside start cursor

/-- Whatever a request asks for is inside the input and not before the request. -/
theorem Request.inquiry_inside (hclosed : ts.Closed) {request : Request}
    (hlow : low ≤ request.start) (hlt : request.start < ts.size) :
    (request.inquiry ts).Keeps (inside ts low) (fun _ _ => True) () := by
  have hskip := ts.le_skipBlanks request.start
  have hnext := hclosed.skipBlanks_lt hlt
  rw [Request.inquiry, if_pos hlt, Cursor.fresh_skipBlanks]
  have hrules (rule : Rule) (_ : rule ∈ Rule.candidates request.filter) (_ : Unit) (_ : True) :=
    rule.attempt_inside hclosed request.start (.fresh (ts.skipBlanks request.start))
      (Nat.le_trans hlow hskip) hnext
  exact keeps_tryRules (fun _ _ h => h) (fun _ _ => trivial) hrules trivial

/-- A block asks for nothing at its own place. -/
theorem Request.inquiry_inside_of_block {start : Nat} (hlt : start < ts.size)
    (hcurly : ts.sees (ts.skipBlanks start) .openCurly = true) :
    (Request.inquiry ts ⟨start, none⟩).Keeps (inside ts (ts.skipBlanks start + 1))
      (fun _ _ => True) () := by
  rw [Request.inquiry, if_pos hlt, Cursor.fresh_skipBlanks]
  refine keeps_tryRules_cons (fun _ _ h => h) (fun _ _ => trivial)
    (Rule.blockAt_inside start _ (Nat.le_refl _)) fun _ hdeclined => ?_
  rw [Cursor.fresh_token, hcurly] at hdeclined
  cases hdeclined

/-- Answers without a journal fulfil the contract. -/
theorem answers_inside {limit levels : Nat} (state : Unit) (request : Request) (found : Verdict)
    (_ : (inside ts low).allows state request)
    (hanswer : answerAfresh ts limit levels request = .ok found) :
    ∃ next, (inside ts low).answers state request found next := by
  rw [eq_verdict_of_answerAfresh hanswer]
  exact ⟨(), verdict_advances ts request⟩

/-- A parse is given up at a place that it came to, and not before the place at which it began. -/
theorem answerAfresh_error_inside (hclosed : ts.Closed) {limit levels : Nat} {request : Request}
    (hlow : low ≤ request.start) (hlt : request.start < ts.size) {stop : TooDeep}
    (hstop : answerAfresh ts limit levels request = .error stop) :
    low ≤ stop.position ∧ stop.position < ts.size := by
  induction levels generalizing request with
  | zero =>
    cases hstop
    exact ⟨hlow, hlt⟩
  | succ levels ih =>
    obtain ⟨_, other, hother, hdeeper⟩ :=
      (request.inquiry_inside hclosed hlow hlt).exists_of_run_eq_error answers_inside hstop
    exact ih hother.1 hother.2 hdeeper

/-- The limit is never found exceeded at the opening bracket of a block, nor behind the input. -/
theorem Session.position_of_tooDeep {limit : Nat} {stop : TooDeep} (hclosed : ts.Closed)
    (hcurly : ts.sees (ts.skipBlanks 0) .openCurly = true)
    (hdeep : (Session.parse ⟨ts, limit, {}⟩ ⟨0, none⟩).1 = .error (.tooDeep stop)) :
    stop.limit = limit ∧ 1 ≤ stop.position ∧ stop.position < ts.size := by
  rw [Session.parse_empty, outcome_eq_tooDeep] at hdeep
  refine ⟨answerAfresh_error hdeep, ?_⟩
  have hlt : 0 < ts.size := Nat.lt_of_le_of_lt (Nat.zero_le _) (TokenStream.lt_size_of_sees hcurly)
  obtain ⟨_, other, hother, hdeeper⟩ :=
    (Request.inquiry_inside_of_block hlt hcurly).exists_of_run_eq_error answers_inside hdeep
  have hinside := answerAfresh_error_inside hclosed hother.1 hother.2 hdeeper
  exact ⟨Nat.le_trans (Nat.le_add_left 1 _) hinside.1, hinside.2⟩

end

end CurlyScript
