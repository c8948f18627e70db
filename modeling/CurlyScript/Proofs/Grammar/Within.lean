import CurlyScript.Proofs.Grammar.Evidence
import CurlyScript.Proofs.Layout.Placing

namespace CurlyScript

/-- What makes a name begin a named function: a definition behind it whose type it is, or a block
    behind it of which it is the name. -/
theorem TokenStream.afterWord_eq_named_iff {ts : TokenStream} {i : Nat} {name defined : String}
    {body : Nat} (hword : ts.wordAt? i = some name) :
    ts.afterWord name (i + 1) = .named defined body ↔
      (ts.sees (i + 1) .space = true ∧ ts.wordAt? (i + 2) = some defined ∧
        ts.hasParameters (i + 3) = true ∧ body = ts.skipBlanks (i + 5)) ∨
      (ts.hasParameters (i + 1) = true ∧ ts.sees (ts.skipBlanks (i + 3)) .openCurly = true ∧
        defined = name ∧ body = ts.skipBlanks (i + 3)) := by
  constructor
  · intro hafter
    have hshows := afterWord_shows hword
    rw [hafter] at hshows
    obtain ⟨_, -, hspace, hdefined, hparameters, hbody⟩ | ⟨hsame, hparameters, hbody, hcurly⟩ :=
      hshows
    · exact .inl ⟨hspace, hdefined, hparameters, hbody⟩
    · rw [hword, Option.some.injEq] at hsame
      exact .inr ⟨hparameters, hbody ▸ hcurly, hsame.symm, hbody⟩
  · rintro (⟨hspace, hdefined, hparameters, rfl⟩ | ⟨hparameters, hcurly, rfl, rfl⟩)
    · exact afterWord_typed hspace hdefined hparameters
    · exact afterWord_untyped hparameters hcurly

theorem TokenStream.afterWord_eq_inline_iff {ts : TokenStream} {i : Nat} {name : String}
    {body : Nat} (hword : ts.wordAt? i = some name) :
    ts.afterWord name (i + 1) = .inline body ↔
      ts.hasParameters (i + 1) = true ∧ ts.sees (ts.skipBlanks (i + 3)) .equal = true ∧
        ts.sees (ts.skipBlanks (i + 3) + 1) .rightChevron = true ∧
          body = ts.skipBlanks (ts.skipBlanks (i + 3) + 2) := by
  constructor
  · intro hafter
    have hshows := afterWord_shows hword
    rw [hafter] at hshows
    obtain ⟨_, -, hparameters, hequal, hchevron, hbody⟩ := hshows
    exact ⟨hparameters, hequal, hchevron, hbody⟩
  · rintro ⟨hparameters, hequal, hchevron, rfl⟩
    exact afterWord_inline hparameters hequal hchevron

/-- All that an inquiry asks is answered with so many levels. -/
def Inquiry.Within {α : Type} (ts : TokenStream) (levels : Nat) (inquiry : Inquiry α) : Prop :=
  ∀ request ∈ inquiry.asks (verdict ts), request.Fits ts levels

namespace Attempt

variable {α β : Type}

/-- All that a rule asks is answered with so many levels. -/
def Within (ts : TokenStream) (levels : Nat) (attempt : Attempt α) : Prop :=
  Inquiry.Within ts levels attempt.run

variable (ts : TokenStream) (levels : Nat)

theorem within_iff (attempt : Attempt α) :
    attempt.Within ts levels ↔ ∀ request ∈ attempt.asks (verdict ts), request.Fits ts levels :=
  Iff.rfl

theorem within_of_asks_eq_nil {attempt : Attempt α} (hasks : attempt.asks (verdict ts) = []) :
    attempt.Within ts levels := by
  rw [within_iff, hasks]
  exact List.forall_mem_nil _

@[simp] theorem within_pure (a : α) : (pure a : Attempt α).Within ts levels :=
  within_of_asks_eq_nil ts levels rfl

@[simp] theorem within_decline : (decline : Attempt α).Within ts levels :=
  within_of_asks_eq_nil ts levels rfl

@[simp] theorem within_reject (fault : Fault) (position : Nat) :
    (reject fault position : Attempt α).Within ts levels :=
  within_of_asks_eq_nil ts levels rfl

@[simp] theorem within_eat (s : Symbol) (cursor : Cursor) : (eat ts s cursor).Within ts levels :=
  within_of_asks_eq_nil ts levels (asks_eat ..)

@[simp] theorem within_verdictOn (request : Request) :
    (verdictOn request).Within ts levels ↔ request.Fits ts levels := by
  rw [within_iff, asks_verdictOn, List.forall_mem_singleton]

@[simp] theorem within_require (request : Request) :
    (require request).Within ts levels ↔ request.Fits ts levels := by
  rw [within_iff, asks_require, List.forall_mem_singleton]

@[simp] theorem within_probe (request : Request) :
    (probe request).Within ts levels ↔ request.Fits ts levels := by
  rw [within_iff, asks_probe, List.forall_mem_singleton]

/-- The second part asks what it does with what comes of the first. -/
@[simp] theorem within_bind (attempt : Attempt α) (f : α → Attempt β) :
    (attempt >>= f).Within ts levels ↔ attempt.Within ts levels ∧
      ∀ a, attempt.eval (verdict ts) = .ok a → (f a).Within ts levels := by
  rw [within_iff, asks_bind, List.forall_mem_append, ← within_iff]
  refine and_congr_right fun _ => ?_
  cases attempt.eval (verdict ts) with
  | error refusal => simp [Except.toOption]
  | ok a => simp [Except.toOption, within_iff]

end Attempt

section

variable {ts : TokenStream} {levels i : Nat}

theorem within_tryRules_nil (ts : TokenStream) (levels start : Nat) (cursor : Cursor) :
    (tryRules ts start cursor []).Within ts levels :=
  List.forall_mem_nil _

/-- A rule is tried where those before it have declined. -/
theorem within_tryRules_cons (start : Nat) (cursor : Cursor) (rule : Rule) (rest : List Rule) :
    (tryRules ts start cursor (rule :: rest)).Within ts levels ↔
      (rule.attempt ts start cursor).Within ts levels ∧
        ((rule.attempt ts start cursor).eval (verdict ts) = .error .declined →
          (tryRules ts start cursor rest).Within ts levels) := by
  rw [Inquiry.Within, asks_tryRules_cons, List.forall_mem_append, ← Attempt.within_iff]
  refine and_congr_right fun _ => ?_
  rcases (rule.attempt ts start cursor).eval (verdict ts) with (_ | _) | _ <;>
    simp [Inquiry.Within]

section

variable {start : Nat} {cursor : Cursor} {rule : Rule} {rest : List Rule}

/-- A rule that matches or rejects is the last one to be tried. -/
theorem within_tryRules_of_settled
    (hsettled : (rule.attempt ts start cursor).eval (verdict ts) ≠ .error .declined) :
    (tryRules ts start cursor (rule :: rest)).Within ts levels ↔
      (rule.attempt ts start cursor).Within ts levels := by
  rw [within_tryRules_cons, and_iff_left fun hdeclined => absurd hdeclined hsettled]

theorem within_tryRules_of_declined
    (hdeclined : (rule.attempt ts start cursor).eval (verdict ts) = .error .declined) :
    (tryRules ts start cursor (rule :: rest)).Within ts levels ↔
      (rule.attempt ts start cursor).Within ts levels ∧
        (tryRules ts start cursor rest).Within ts levels := by
  simp only [within_tryRules_cons, hdeclined, true_imp_iff]

end

theorem Request.fits_succ_iff {request : Request} (hlt : request.start < ts.size) :
    request.Fits ts (levels + 1) ↔
      (tryRules ts request.start (.fresh (ts.skipBlanks request.start))
        (Rule.candidates request.filter)).Within ts levels := by
  rw [Fits, asks_inquiry_of_lt _ hlt]
  rfl

theorem Request.Fits.pos {request : Request} (hfits : request.Fits ts levels) : 0 < levels := by
  cases levels with
  | zero => exact hfits.elim
  | succ levels => exact Nat.succ_pos levels

theorem Request.fits_iff_of_asks_eq_nil {request : Request}
    (hasks : (request.inquiry ts).asks (verdict ts) = []) :
    request.Fits ts levels ↔ 0 < levels := by
  refine ⟨Fits.pos, fun hpos => ?_⟩
  obtain ⟨levels, rfl⟩ := Nat.exists_eq_succ_of_ne_zero (Nat.ne_of_gt hpos)
  rw [Fits, hasks]
  exact List.forall_mem_nil _

theorem Request.fits_types_iff (i : Nat) :
    Request.Fits ts levels ⟨i, some .types⟩ ↔ 0 < levels :=
  fits_iff_of_asks_eq_nil (asks_inquiry_types ts _ i)

theorem Request.fits_callables_of_word {name : String} (hword : ts.wordAt? i = some name) :
    Request.Fits ts levels ⟨i, some .callables⟩ ↔ 0 < levels :=
  fits_iff_of_asks_eq_nil (asks_callables_of_word hword)

/-- A callee in parentheses is a level on its own. -/
theorem Request.fits_callables_of_openParen (hopen : ts.sees i .openParen = true) :
    Request.Fits ts (levels + 1) ⟨i, some .callables⟩ ↔ Request.Fits ts levels ⟨i + 1, none⟩ := by
  have hblank := TokenStream.skipBlanks_of_sees hopen rfl
  rw [Fits, asks_callables_of_no_word (TokenStream.lt_size_of_sees hopen) hblank
    (TokenStream.wordAt?_of_sees hopen), if_pos hopen]
  simp only [List.forall_mem_cons, fits_types_iff]
  constructor
  · exact fun h => h.2.2.1
  · exact fun h => ⟨h.pos, h.pos, h, List.forall_mem_nil _⟩

end

namespace Rule

variable {ts : TokenStream} {levels i : Nat} (start : Nat)

theorem within_blockAt :
    (blockAt ts start (.fresh i)).Within ts levels ↔ (ts.sees i .openCurly = true →
      (Delimiters.statements.read ts (.fresh (i + 1))).Within ts levels) := by
  rw [blockAt, Cursor.fresh_token]
  split
  · next hopen =>
    simp only [Attempt.within_bind, Attempt.within_pure, implies_true, and_true, hopen,
      true_imp_iff, Cursor.fresh_skip]
  · next hopen => simp only [Attempt.within_decline, hopen, false_imp_iff, Bool.false_eq_true]

theorem within_stringAt (cursor : Cursor) : (stringAt ts start cursor).Within ts levels := by
  unfold stringAt
  split
  · exact Attempt.within_decline _ _
  · split
    · exact Attempt.within_decline _ _
    · split
      · exact Attempt.within_pure _ _ _
      · exact Attempt.within_of_asks_eq_nil _ _ rfl

theorem within_parameterList (cursor : Cursor) : (parameterList ts cursor).Within ts levels := by
  simp only [parameterList, Attempt.within_bind, Attempt.within_eat, implies_true, and_true]

theorem within_nameAfterType :
    (nameAfterType ts (.fresh i)).Within ts levels ↔ (ts.hasText i = true → 0 < levels) := by
  unfold nameAfterType
  rw [Cursor.fresh_token]
  split
  · next content hcontent =>
    have htext : ts.hasText i = true := TokenStream.hasText_iff.mpr ⟨content, hcontent⟩
    have htypes : Request.Fits ts levels ⟨i, some (.only .identifier)⟩ ↔ 0 < levels :=
      Request.fits_types_iff i
    simp only [Attempt.within_bind, Attempt.within_verdictOn, htypes, htext, true_imp_iff,
      and_iff_left_iff_imp]
    intro _ verdict _
    split
    · exact Attempt.within_reject _ _ _ _
    · split
      · exact Attempt.within_reject _ _ _ _
      · exact Attempt.within_pure _ _ _
  · next hother =>
    have htext : ¬ ts.hasText i = true := by
      rw [TokenStream.hasText_iff]
      rintro ⟨content, hcontent⟩
      exact hother content hcontent
    simp only [Attempt.within_decline, htext, false_imp_iff, Bool.false_eq_true]

theorem within_namedBody (name : String) :
    (namedBody start name (.fresh i)).Within ts levels ↔ Request.Fits ts levels ⟨i, none⟩ := by
  simp only [namedBody, Attempt.within_bind, Attempt.within_require, Attempt.within_pure,
    implies_true, and_true, Cursor.fresh_token]

theorem eval_probe_types {name : String} (hword : ts.wordAt? i = some name) :
    (Attempt.probe ⟨i, some .types⟩).eval (verdict ts) =
      .ok ⟨.identifier ⟨i, i + 1⟩ name, .fresh (i + 1)⟩ := by
  rw [Attempt.eval_probe, verdict_types (TokenStream.skipBlanks_of_wordAt? hword), hword]
  rfl

/-- Only the body of a definition takes more than a single level. -/
theorem within_namedFunctionAt_of_word {name : String} (hword : ts.wordAt? i = some name) :
    (namedFunctionAt ts start (.fresh i)).Within ts levels ↔ 0 < levels ∧
      ∀ defined body, ts.afterWord name (i + 1) = .named defined body →
        Request.Fits ts levels ⟨body, none⟩ := by
  have hblank : (Cursor.fresh (i + 1)).advance (.symbol .space) = .fresh (i + 2) :=
    Cursor.fresh_advance_symbol rfl rfl (i + 1)
  rw [namedFunctionAt, Attempt.within_bind, Attempt.within_probe, Cursor.fresh_token,
    Request.fits_types_iff]
  refine and_congr_right fun hpos => ?_
  simp only [eval_probe_types hword, Except.ok.injEq, forall_eq', Cursor.fresh_moveTo,
    Cursor.fresh_token, Node.identifier?]
  simp only [TokenStream.afterWord_eq_named_iff hword]
  cases hspace : ts.sees (i + 1) .space with
  | true =>
    simp only [TokenStream.hasParameters_eq_false_of_space hspace, if_true, hblank,
      Attempt.within_bind, within_nameAfterType, hpos, implies_true, true_and,
      eval_nameAfterType, within_parameterList, Bool.false_eq_true, false_and, or_false]
    cases hdefined : ts.wordAt? (i + 2) with
    | none => split <;> simp
    | some defined =>
      have htext : ts.hasText (i + 2) = true :=
        TokenStream.hasText_iff.mpr ⟨defined, (TokenStream.wordAt?_eq_some.mp hdefined).1⟩
      simp only [htext, if_true, Except.ok.injEq, forall_eq', eval_parameterList]
      cases ts.hasParameters (i + 2 + 1) <;> simp [within_namedBody]
  | false =>
    simp only [Bool.false_eq_true, if_false, Attempt.within_bind, within_parameterList, true_and,
      eval_parameterList, false_and, false_or]
    cases ts.hasParameters (i + 1) with
    | false => simp
    | true =>
      simp only [if_true, Except.ok.injEq, forall_eq', Cursor.fresh_skipBlanks, Cursor.fresh_token]
      cases ts.sees (ts.skipBlanks (i + 1 + 2)) .openCurly <;> simp [within_namedBody]

theorem within_inlineFunctionAt_of_word {name : String} (hword : ts.wordAt? i = some name) :
    (inlineFunctionAt ts start (.fresh i)).Within ts levels ↔ 0 < levels ∧
      ∀ body, ts.afterWord name (i + 1) = .inline body →
        Request.Fits ts levels ⟨body, none⟩ := by
  have hequal (j : Nat) : (Cursor.fresh j).advance (.symbol .equal) = .fresh (j + 1) :=
    Cursor.fresh_advance_symbol rfl rfl j
  have hchevron (j : Nat) : (Cursor.fresh j).advance (.symbol .rightChevron) = .fresh (j + 1) :=
    Cursor.fresh_advance_symbol rfl rfl j
  rw [inlineFunctionAt, Attempt.within_bind, Attempt.within_probe, Cursor.fresh_token,
    Request.fits_types_iff]
  refine and_congr_right fun _ => ?_
  simp only [eval_probe_types hword, Except.ok.injEq, forall_eq', Cursor.fresh_moveTo,
    Cursor.fresh_token, TokenStream.afterWord_eq_inline_iff hword, Attempt.within_bind,
    within_parameterList, true_and, eval_parameterList]
  cases ts.hasParameters (i + 1) with
  | false => simp
  | true =>
    simp only [if_true, Except.ok.injEq, forall_eq', Cursor.fresh_skipBlanks, Cursor.fresh_token,
      Attempt.within_eat, Attempt.within_require, Attempt.within_pure, Attempt.eval_eat, true_and,
      implies_true, and_true, hequal]
    cases ts.sees (ts.skipBlanks (i + 1 + 2)) .equal with
    | false => simp
    | true =>
      simp only [if_true, Except.ok.injEq, forall_eq', Cursor.fresh_token, hchevron]
      cases ts.sees (ts.skipBlanks (i + 1 + 2) + 1) .rightChevron <;> simp

theorem within_namedFunctionAt_of_no_word (hblank : ts.skipBlanks i = i)
    (hword : ts.wordAt? i = none) :
    (namedFunctionAt ts start (.fresh i)).Within ts levels ↔ 0 < levels := by
  rw [Attempt.within_iff, asks_namedFunctionAt_of_no_word start hblank hword,
    List.forall_mem_singleton, Request.fits_types_iff]

theorem within_inlineFunctionAt_of_no_word (hblank : ts.skipBlanks i = i)
    (hword : ts.wordAt? i = none) :
    (inlineFunctionAt ts start (.fresh i)).Within ts levels ↔ 0 < levels := by
  rw [Attempt.within_iff, asks_inlineFunctionAt_of_no_word start hblank hword,
    List.forall_mem_singleton, Request.fits_types_iff]

theorem within_groupingAt :
    (groupingAt ts (.fresh i)).Within ts levels ↔
      (ts.sees i .openParen = true → Request.Fits ts levels ⟨i + 1, none⟩) := by
  rw [Attempt.within_iff, asks_groupingAt]
  split
  · next hopen => simp only [List.forall_mem_singleton, hopen, true_imp_iff]
  · next hopen =>
    simp only [List.not_mem_nil, false_imp_iff, implies_true, hopen, Bool.false_eq_true]

theorem within_identifierAt (cursor : Cursor) :
    (identifierAt ts start cursor).Within ts levels :=
  Attempt.within_of_asks_eq_nil ts levels (asks_identifierAt ..)

theorem within_executionAt :
    (executionAt ts start (.fresh i)).Within ts levels ↔
      Request.Fits ts levels ⟨i, some .callables⟩ ∧
        ∀ callee, verdict ts ⟨i, some .callables⟩ = .ok callee →
          ts.sees (ts.skipBlanks callee.cursor.token) .openParen = true →
            (Delimiters.arguments.read ts
              (.fresh (ts.skipBlanks callee.cursor.token + 1))).Within ts levels := by
  rw [executionAt, Attempt.within_bind, Attempt.within_probe, Cursor.fresh_token]
  refine and_congr_right fun _ => forall_congr' fun callee => ?_
  rw [Attempt.eval_probe]
  cases verdict ts ⟨i, some .callables⟩ with
  | error error => simp [Except.mapError]
  | ok found =>
    simp only [Except.mapError, Except.ok.injEq, Cursor.fresh_moveTo, Cursor.fresh_skipBlanks,
      Cursor.fresh_token, Cursor.fresh_skip]
    refine imp_congr_right fun _ => ?_
    split
    · next hopen =>
      simp only [Attempt.within_bind, Attempt.within_pure, implies_true, and_true, hopen,
        true_imp_iff]
    · next hopen => simp only [Attempt.within_decline, hopen, false_imp_iff, Bool.false_eq_true]

end Rule

end CurlyScript
