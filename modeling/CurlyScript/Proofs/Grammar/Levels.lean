import CurlyScript.Proofs.Grammar.Within

namespace CurlyScript

/-- The rules that are tried where neither a block nor a string begins. -/
def Rule.plainOrder : List Rule :=
  [.namedFunction, .inlineFunction, .execution, .grouping, .identifier]

/-- What the levels have to suffice for where an opening stands. A callee in parentheses is asked
    for first, and it asks for what the parentheses hold in turn. -/
def Opening.Fits (ts : TokenStream) (levels i : Nat) : Opening → Prop
  | .block => (Delimiters.statements.read ts (.fresh (i + 1))).Within ts levels
  | .string _ => True
  | .named _ body => Request.Fits ts levels ⟨body, none⟩
  | .misnamed => 0 < levels
  | .inline body => Request.Fits ts levels ⟨body, none⟩
  | .call _ place => 0 < levels ∧ (Delimiters.arguments.read ts (.fresh place)).Within ts levels
  | .word _ => 0 < levels
  | .parenthesis => Request.Fits ts (levels - 1) ⟨i + 1, none⟩ ∧
      ∀ inner, verdict ts ⟨i + 1, none⟩ = .ok inner →
        ts.sees (ts.skipBlanks inner.cursor.token) .closeParen = true →
          ts.sees (ts.skipBlanks (ts.skipBlanks inner.cursor.token + 1)) .openParen = true →
            (Delimiters.arguments.read ts (.fresh (ts.skipBlanks
              (ts.skipBlanks inner.cursor.token + 1) + 1))).Within ts levels
  | .nothing => Request.Fits ts levels ⟨i, some .callables⟩

section

variable {ts : TokenStream} {levels start i : Nat}

theorem Rule.eval_blockAt_ne_declined (hcurly : ts.sees i .openCurly = true) :
    (blockAt ts start (.fresh i)).eval (verdict ts) ≠ .error .declined := by
  rw [eval_blockAt, if_pos hcurly]
  obtain ⟨error, hread⟩ | ⟨list, hread⟩ :=
    Delimiters.eval_read_cases ts Delimiters.plain_statements (verdict ts) (i + 1)
  · rw [hread]
    nofun
  · rw [hread]
    nofun

theorem Rule.eval_blockAt_of_not (hcurly : ts.sees i .openCurly = false) :
    (blockAt ts start (.fresh i)).eval (verdict ts) = .error .declined := by
  rw [eval_blockAt, hcurly]
  rfl

theorem within_tryRules_of_openCurly (hcurly : ts.sees i .openCurly = true) :
    (tryRules ts start (.fresh i) Rule.order).Within ts levels ↔
      (ts.opening i).Fits ts levels i := by
  rw [TokenStream.opening_of_openCurly hcurly, Rule.order,
    within_tryRules_of_settled (Rule.eval_blockAt_ne_declined hcurly), Rule.attempt,
    Rule.within_blockAt, Opening.Fits]
  exact ⟨fun h => h hcurly, fun h _ => h⟩

theorem within_tryRules_of_quote (hcurly : ts.sees i .openCurly = false) {quote : Quote}
    (hquote : ts.quoteAt? i = some quote) :
    (tryRules ts start (.fresh i) Rule.order).Within ts levels ↔
      (ts.opening i).Fits ts levels i := by
  have hsettled : (Rule.stringAt ts start (.fresh i)).eval (verdict ts) ≠ .error .declined := by
    rw [Rule.eval_stringAt, hquote]
    intro hdeclined
    split at hdeclined
    · next hother => cases hother
    · split at hdeclined <;> cases hdeclined
  rw [TokenStream.opening_of_quoteAt? hquote, Rule.order,
    within_tryRules_of_declined (Rule.eval_blockAt_of_not hcurly),
    within_tryRules_of_settled hsettled]
  refine iff_of_true ⟨?_, Rule.within_stringAt start _⟩ trivial
  rw [Rule.attempt, Rule.within_blockAt, hcurly]
  exact fun hopen => absurd hopen Bool.false_ne_true

/-- Where neither a block nor a string begins, the other rules are tried, whatever stands there. -/
theorem within_tryRules_of_other (hcurly : ts.sees i .openCurly = false)
    (hquote : ts.quoteAt? i = none) :
    (tryRules ts start (.fresh i) Rule.order).Within ts levels ↔
      (tryRules ts start (.fresh i) Rule.plainOrder).Within ts levels := by
  have hdeclined : (Rule.stringAt ts start (.fresh i)).eval (verdict ts) = .error .declined := by
    rw [Rule.eval_stringAt, hquote]
  rw [Rule.order, within_tryRules_of_declined (Rule.eval_blockAt_of_not hcurly),
    within_tryRules_of_declined hdeclined, Rule.attempt, Rule.attempt, Rule.within_blockAt, hcurly]
  simp only [Bool.false_eq_true, false_imp_iff, Rule.within_stringAt, true_and,
    Rule.plainOrder]

section

variable {name : String} (hword : ts.wordAt? i = some name)

include hword

theorem within_tryRules_of_named {defined : String} {body : Nat}
    (hafter : ts.afterWord name (i + 1) = .named defined body) :
    (tryRules ts start (.fresh i) Rule.plainOrder).Within ts levels ↔
      Request.Fits ts levels ⟨body, none⟩ := by
  have hnamed := Rule.eval_namedFunctionAt_of_word start hword
  simp only [hafter, Rule.eval_namedBody] at hnamed
  have hsettled : (Rule.namedFunctionAt ts start (.fresh i)).eval (verdict ts) ≠
      .error .declined := by
    intro hdeclined
    rw [hnamed] at hdeclined
    split at hdeclined <;> cases hdeclined
  rw [Rule.plainOrder, within_tryRules_of_settled hsettled, Rule.attempt,
    Rule.within_namedFunctionAt_of_word start hword, hafter]
  constructor
  · exact fun h => h.2 defined body rfl
  · intro hfits
    refine ⟨hfits.pos, ?_⟩
    rintro _ _ ⟨⟩
    exact hfits

theorem within_tryRules_of_misnamed (hafter : ts.afterWord name (i + 1) = .misnamed) :
    (tryRules ts start (.fresh i) Rule.plainOrder).Within ts levels ↔ 0 < levels := by
  have hnamed := Rule.eval_namedFunctionAt_of_word start hword
  rw [hafter] at hnamed
  have hsettled : (Rule.namedFunctionAt ts start (.fresh i)).eval (verdict ts) ≠
      .error .declined := by
    rw [hnamed]
    simp
  rw [Rule.plainOrder, within_tryRules_of_settled hsettled, Rule.attempt,
    Rule.within_namedFunctionAt_of_word start hword, hafter]
  simp

/-- A name that begins no named function costs a level, where its type is looked for. -/
theorem within_tryRules_of_not_named
    (hdeclined : (Rule.namedFunctionAt ts start (.fresh i)).eval (verdict ts) = .error .declined)
    (hafter : ∀ defined body, ts.afterWord name (i + 1) ≠ .named defined body) :
    (tryRules ts start (.fresh i) Rule.plainOrder).Within ts levels ↔ 0 < levels ∧
      (tryRules ts start (.fresh i) [.inlineFunction, .execution, .grouping,
        .identifier]).Within ts levels := by
  rw [Rule.plainOrder, within_tryRules_of_declined hdeclined, Rule.attempt,
    Rule.within_namedFunctionAt_of_word start hword,
    and_iff_left fun defined body h => absurd h (hafter defined body)]

theorem within_tryRules_of_inline {body : Nat} (hafter : ts.afterWord name (i + 1) = .inline body) :
    (tryRules ts start (.fresh i) Rule.plainOrder).Within ts levels ↔
      Request.Fits ts levels ⟨body, none⟩ := by
  have hnamed := Rule.eval_namedFunctionAt_of_word start hword
  have hinline := Rule.eval_inlineFunctionAt_of_word start hword
  rw [hafter] at hnamed hinline
  have hsettled : (Rule.inlineFunctionAt ts start (.fresh i)).eval (verdict ts) ≠
      .error .declined := by
    intro hdeclined
    rw [hinline] at hdeclined
    dsimp only at hdeclined
    split at hdeclined <;> cases hdeclined
  rw [within_tryRules_of_not_named hword hnamed (by simp [hafter]),
    within_tryRules_of_settled hsettled, Rule.attempt,
    Rule.within_inlineFunctionAt_of_word start hword, hafter]
  constructor
  · exact fun h => h.2.2 body rfl
  · intro hfits
    refine ⟨hfits.pos, hfits.pos, ?_⟩
    rintro _ ⟨⟩
    exact hfits

/-- A name with which nothing is defined is looked at as a callee and then on its own. -/
theorem within_tryRules_of_undefined
    (hafter : (∃ place, ts.afterWord name (i + 1) = .call name place) ∨
      ts.afterWord name (i + 1) = .word name) :
    (tryRules ts start (.fresh i) Rule.plainOrder).Within ts levels ↔
      (tryRules ts start (.fresh i) [.execution, .grouping, .identifier]).Within ts levels ∧
        0 < levels := by
  have hnamed := Rule.eval_namedFunctionAt_of_word start hword
  have hinline := Rule.eval_inlineFunctionAt_of_word start hword
  have hinner : (Rule.inlineFunctionAt ts start (.fresh i)).Within ts levels ↔ _ :=
    Rule.within_inlineFunctionAt_of_word start hword
  obtain ⟨place, hafter⟩ | hafter := hafter <;> rw [hafter] at hnamed hinline hinner
  all_goals
    rw [within_tryRules_of_not_named hword hnamed (by simp [hafter]),
      within_tryRules_of_declined hinline, Rule.attempt, hinner]
    simp [and_comm]

theorem within_tryRules_of_call {place : Nat}
    (hafter : ts.afterWord name (i + 1) = .call name place) :
    (tryRules ts start (.fresh i) Rule.plainOrder).Within ts levels ↔
      0 < levels ∧ (Delimiters.arguments.read ts (.fresh place)).Within ts levels := by
  have hopening : ts.opening i = .call name place := by
    rw [TokenStream.opening_of_wordAt? hword, hafter]
  obtain ⟨-, hparen, rfl⟩ := TokenStream.shows_of_opening_eq hopening
  have hexecution : (Rule.executionAt ts start (.fresh i)).eval (verdict ts) = _ :=
    Rule.eval_executionAt start (verdict ts) i
  rw [verdict_callables_of_word hword] at hexecution
  simp only [Cursor.fresh_token, hparen, if_true] at hexecution
  have hsettled : (Rule.executionAt ts start (.fresh i)).eval (verdict ts) ≠ .error .declined := by
    obtain ⟨error, hread⟩ | ⟨list, hread⟩ := Delimiters.eval_read_cases ts
      Delimiters.plain_arguments (verdict ts) (ts.skipBlanks (i + 1) + 1)
    · rw [hexecution, hread]
      nofun
    · rw [hexecution, hread]
      nofun
  rw [within_tryRules_of_undefined hword (.inl ⟨_, hafter⟩), within_tryRules_of_settled hsettled,
    Rule.attempt, Rule.within_executionAt, Request.fits_callables_of_word hword,
    verdict_callables_of_word hword]
  simp only [Except.ok.injEq, forall_eq', Cursor.fresh_token, hparen, true_imp_iff]
  tauto

theorem within_tryRules_of_lone_word (hafter : ts.afterWord name (i + 1) = .word name)
    (hcall : ts.sees (ts.skipBlanks (i + 1)) .openParen = false) :
    (tryRules ts start (.fresh i) Rule.plainOrder).Within ts levels ↔ 0 < levels := by
  have hparen : ¬ ts.sees i .openParen = true := by
    rw [TokenStream.sees_of_wordAt? hword]
    exact Bool.false_ne_true
  have hexecution : (Rule.executionAt ts start (.fresh i)).eval (verdict ts) = _ :=
    Rule.eval_executionAt start (verdict ts) i
  rw [verdict_callables_of_word hword] at hexecution
  simp only [Cursor.fresh_token, hcall, Bool.false_eq_true, if_false] at hexecution
  have hgrouping : (Rule.groupingAt ts (.fresh i)).eval (verdict ts) = .error .declined := by
    rw [Rule.eval_groupingAt, if_neg hparen]
  have hsettled : (Rule.identifierAt ts start (.fresh i)).eval (verdict ts) ≠ .error .declined := by
    rw [Rule.eval_identifierAt, hword]
    simp
  rw [within_tryRules_of_undefined hword (.inr hafter), within_tryRules_of_declined hexecution,
    within_tryRules_of_declined hgrouping, within_tryRules_of_settled hsettled]
  simp only [Rule.attempt, Rule.within_executionAt, Rule.within_groupingAt, hparen, false_imp_iff,
    Rule.within_identifierAt, Request.fits_callables_of_word hword, verdict_callables_of_word hword,
    Except.ok.injEq, forall_eq', Cursor.fresh_token, hcall, Bool.false_eq_true, and_true, and_self]

theorem within_tryRules_of_word :
    (tryRules ts start (.fresh i) Rule.order).Within ts levels ↔
      (ts.opening i).Fits ts levels i := by
  rw [within_tryRules_of_other (TokenStream.sees_of_wordAt? hword _)
    (TokenStream.quoteAt?_of_wordAt? hword), TokenStream.opening_of_wordAt? hword]
  obtain ⟨defined, body, hafter⟩ | hafter | ⟨body, hafter⟩ | ⟨-, hafter⟩ | ⟨hcall, hafter⟩ :=
    ts.afterWord_cases name (i + 1)
  · rw [within_tryRules_of_named hword hafter, hafter, Opening.Fits]
  · rw [within_tryRules_of_misnamed hword hafter, hafter, Opening.Fits]
  · rw [within_tryRules_of_inline hword hafter, hafter, Opening.Fits]
  · rw [within_tryRules_of_call hword hafter, hafter, Opening.Fits]
  · rw [within_tryRules_of_lone_word hword hafter hcall, hafter, Opening.Fits]

end

section

variable (hparen : ts.sees i .openParen = true)

include hparen

theorem Request.fits_callables_iff :
    Request.Fits ts levels ⟨i, some .callables⟩ ↔ Request.Fits ts (levels - 1) ⟨i + 1, none⟩ := by
  cases levels with
  | zero => exact Iff.rfl
  | succ levels => exact fits_callables_of_openParen hparen

theorem verdict_callables_eq_ok_iff {callee : Parsed} :
    verdict ts ⟨i, some .callables⟩ = .ok callee ↔ ∃ inner, verdict ts ⟨i + 1, none⟩ = .ok inner ∧
      ts.sees (ts.skipBlanks inner.cursor.token) .closeParen = true ∧
        callee = ⟨inner.node, .fresh (ts.skipBlanks inner.cursor.token + 1)⟩ := by
  rw [verdict_callables_of_no_word (TokenStream.lt_size_of_sees hparen)
    (TokenStream.skipBlanks_of_sees hparen rfl) (TokenStream.wordAt?_of_sees hparen)]
  have hgrouping : (Rule.groupingAt ts (.fresh i)).eval (verdict ts) = .ok callee ↔ _ :=
    Rule.eval_groupingAt_eq_ok_iff
  rw [and_iff_right hparen] at hgrouping
  rw [← hgrouping]
  rcases (Rule.groupingAt ts (.fresh i)).eval (verdict ts) with (_ | _) | parsed <;> simp

end

/-- Where no name stands, parentheses are looked at as a callee and then on their own. What they
    hold is asked for in either case, but a callee asks for it at a deeper level. -/
theorem within_tryRules_of_no_word (hblank : ts.skipBlanks i = i)
    (hcurly : ts.sees i .openCurly = false) (hquote : ts.quoteAt? i = none)
    (hword : ts.wordAt? i = none) :
    (tryRules ts start (.fresh i) Rule.order).Within ts levels ↔
      (Rule.executionAt ts start (.fresh i)).Within ts levels ∧
        ((Rule.executionAt ts start (.fresh i)).eval (verdict ts) = .error .declined →
          ts.sees i .openParen = true → Request.Fits ts levels ⟨i + 1, none⟩) := by
  rw [within_tryRules_of_other hcurly hquote, Rule.plainOrder,
    within_tryRules_of_declined (Rule.eval_namedFunctionAt_of_no_word start hblank hword),
    within_tryRules_of_declined (Rule.eval_inlineFunctionAt_of_no_word start hblank hword)]
  simp only [Rule.attempt, Rule.within_namedFunctionAt_of_no_word start hblank hword,
    Rule.within_inlineFunctionAt_of_no_word start hblank hword, within_tryRules_cons,
    Rule.within_groupingAt, Rule.within_identifierAt, within_tryRules_nil, implies_true, and_true]
  constructor
  · exact fun h => h.2.2
  · intro h
    have hcallee := (Rule.within_executionAt start).mp h.1
    exact ⟨hcallee.1.pos, hcallee.1.pos, h⟩

theorem within_tryRules_of_openParen (hparen : ts.sees i .openParen = true) :
    (tryRules ts start (.fresh i) Rule.order).Within ts levels ↔
      (ts.opening i).Fits ts levels i := by
  rw [within_tryRules_of_no_word (TokenStream.skipBlanks_of_sees hparen rfl)
    (TokenStream.sees_eq_false hparen (by decide)) (TokenStream.quoteAt?_of_sees hparen)
    (TokenStream.wordAt?_of_sees hparen), TokenStream.opening_of_openParen hparen, Opening.Fits,
    Rule.within_executionAt, Request.fits_callables_iff hparen]
  constructor
  · rintro ⟨⟨hinner, harguments⟩, -⟩
    refine ⟨hinner, fun inner hverdict hclose hcall => ?_⟩
    have hcallee := (verdict_callables_eq_ok_iff hparen).mpr ⟨inner, hverdict, hclose, rfl⟩
    exact harguments _ hcallee hcall
  · rintro ⟨hinner, harguments⟩
    refine ⟨⟨hinner, fun callee hcallee hcall => ?_⟩, fun _ _ => hinner.mono (Nat.sub_le ..)⟩
    obtain ⟨inner, hverdict, hclose, rfl⟩ := (verdict_callables_eq_ok_iff hparen).mp hcallee
    exact harguments inner hverdict hclose hcall

theorem within_tryRules_of_nothing (hblank : ts.skipBlanks i = i)
    (hopening : ts.opening i = .nothing) :
    (tryRules ts start (.fresh i) Rule.order).Within ts levels ↔
      (ts.opening i).Fits ts levels i := by
  obtain ⟨hcurly, hquote, hword, hparen⟩ := TokenStream.shows_of_opening_eq hopening
  rw [within_tryRules_of_no_word hblank hcurly hquote hword, hopening, Opening.Fits,
    Rule.within_executionAt, hparen]
  constructor
  · exact fun h => h.1.1
  · refine fun hfits => ⟨⟨hfits, fun callee hcallee => ?_⟩, fun _ => nofun⟩
    exact absurd hcallee (verdict_callables_ne_ok hparen hblank hword callee)

/-- The levels that a place takes are told by its opening: one for the place, and the others for
    what is asked there. -/
theorem fits_iff_opening (hlt : start < ts.size) :
    Request.Fits ts (levels + 1) ⟨start, none⟩ ↔
      (ts.opening (ts.skipBlanks start)).Fits ts levels (ts.skipBlanks start) := by
  have hblank := ts.skipBlanks_skipBlanks start
  rw [Request.fits_succ_iff hlt]
  change (tryRules ts start (.fresh (ts.skipBlanks start)) Rule.order).Within ts levels ↔ _
  generalize ts.skipBlanks start = i at hblank
  cases hcurly : ts.sees i .openCurly with
  | true => exact within_tryRules_of_openCurly hcurly
  | false =>
    cases hquote : ts.quoteAt? i with
    | some quote => exact within_tryRules_of_quote hcurly hquote
    | none =>
      cases hword : ts.wordAt? i with
      | some name => exact within_tryRules_of_word hword
      | none =>
        cases hparen : ts.sees i .openParen with
        | true => exact within_tryRules_of_openParen hparen
        | false =>
          refine within_tryRules_of_nothing hblank ?_
          rw [TokenStream.opening, hcurly, hquote, hword, hparen]
          rfl

/-- Where an opening stands, the levels suffice for what it tells. -/
theorem Request.Fits.opening_fits {opening : Opening} (hfits : Request.Fits ts levels ⟨start, none⟩)
    (hopening : ts.opening (ts.skipBlanks start) = opening) (hsome : opening ≠ .nothing) :
    ∃ fewer, fewer < levels ∧ opening.Fits ts fewer (ts.skipBlanks start) := by
  subst hopening
  have hlt := Nat.lt_of_le_of_lt (ts.le_skipBlanks start) (TokenStream.lt_size_of_opening hsome)
  obtain _ | fewer := levels
  · exact hfits.elim
  · exact ⟨fewer, Nat.lt_succ_self fewer, (fits_iff_opening hlt).mp hfits⟩

end

namespace Delimiters

variable {ts : TokenStream} {delimiters : Delimiters} {levels budget i next : Nat} {node : Node}
  {found : List Node}

theorem within_items_zero :
    (delimiters.items ts 0 (.fresh i) found).Within ts levels :=
  Attempt.within_reject _ _ _ _

theorem within_items_of_closer (hplain : delimiters.Plain)
    (hcloser : ts.sees (ts.skipBlanks i) delimiters.closer = true) :
    (delimiters.items ts budget (.fresh i) found).Within ts levels := by
  cases budget with
  | zero => exact within_items_zero
  | succ budget =>
    have hne : ¬ (Token.symbol delimiters.closer).is delimiters.separator = true := by
      rw [Token.is_iff, Token.symbol.injEq]
      exact hplain.distinct.symm
    simp only [items, Cursor.fresh_skipBlanks, Cursor.fresh_token,
      TokenStream.sees_iff.mp hcloser]
    rw [if_neg hne, if_pos (Token.is_iff.mpr rfl)]
    exact Attempt.within_pure _ _ _

theorem within_items_of_separator (hplain : delimiters.Plain)
    (hseparator : ts.sees (ts.skipBlanks i) delimiters.separator = true) :
    (delimiters.items ts (budget + 1) (.fresh i) found).Within ts levels ↔
      (delimiters.items ts budget (.fresh (ts.skipBlanks i + 1)) found).Within ts levels := by
  simp only [items, Cursor.fresh_skipBlanks, Cursor.fresh_token,
    TokenStream.sees_iff.mp hseparator]
  rw [if_pos (Token.is_iff.mpr rfl), hplain.separator]

theorem within_items_of_item (hstart : delimiters.seenAt ts (ts.skipBlanks i) = false)
    (hlt : ts.skipBlanks i < ts.size) (hnode : Reads ts (ts.skipBlanks i) node next)
    (hend : delimiters.seenAt ts (ts.skipBlanks next) = true) :
    (delimiters.items ts (budget + 1) (.fresh i) found).Within ts levels ↔
      Request.Fits ts levels ⟨ts.skipBlanks i, none⟩ ∧
        (delimiters.items ts budget (.fresh (ts.skipBlanks next)) (node :: found)).Within ts
          levels := by
  obtain ⟨hseparator, hcloser⟩ := seenAt_eq_false_iff.mp hstart
  have htoken := Array.getElem?_eq_getElem hlt
  rw [TokenStream.sees, htoken, Option.any_some] at hseparator hcloser
  simp only [items, Cursor.fresh_skipBlanks, Cursor.fresh_token, htoken]
  rw [if_neg (Bool.eq_false_iff.mp hseparator), if_neg (Bool.eq_false_iff.mp hcloser),
    Attempt.within_bind, Attempt.within_require, Attempt.eval_require,
    (agrees ts _).verdict_eq hnode]
  simp only [Except.mapError, Except.ok.injEq, forall_eq', Cursor.fresh_token, Cursor.fresh_moveTo,
    Cursor.fresh_skipBlanks, hend, if_true]

end Delimiters

end CurlyScript
