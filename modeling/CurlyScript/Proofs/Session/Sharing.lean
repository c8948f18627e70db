import CurlyScript.Proofs.Session.Known

namespace CurlyScript

/-- What is known while the rules are tried at a place. A callee in parentheses leads to the same
    node as a grouping does, so once the callee was asked for, there may be deep verdicts on what
    the parentheses hold. All that may be asked there again is known then. -/
structure Known.Standing (ts : TokenStream) (levels i : Nat) (known : Known) : Prop where
  closed : known.Closed ts
  after : ts.sees i .openParen = false → known.ShallowFrom ts (i + 1)
  callee : known.ShallowFrom ts i ∨
    (known ⟨i, some .callables⟩ ∧ Request.Fits ts levels ⟨i, some .callables⟩ ∧
      ∀ parsed, verdict ts ⟨i, some .callables⟩ = .ok parsed →
        known.ShallowFrom ts parsed.cursor.token)

section

variable {ts : TokenStream} {levels i : Nat} {known known' : Known}

theorem Known.Standing.grown {request : Request} (hstanding : known.Standing ts levels i)
    (hgrown : known.Grown ts request known') (hrequest : request.Shallow ts) :
    known'.Standing ts levels i where
  closed := hgrown.closed
  after hparen := hgrown.shallowFrom hrequest (hstanding.after hparen)
  callee := by
    obtain hshallow | ⟨hknown, hfits, hcallee⟩ := hstanding.callee
    · exact .inl (hgrown.shallowFrom hrequest hshallow)
    · exact .inr ⟨hgrown.keeps _ hknown, hfits,
        fun parsed hparsed => hgrown.shallowFrom hrequest (hcallee parsed hparsed)⟩

theorem Known.Standing.after_word {name : String} (hstanding : known.Standing ts levels i)
    (hword : ts.wordAt? i = some name) : known.ShallowFrom ts (i + 1) := by
  apply hstanding.after
  cases hparen : ts.sees i .openParen with
  | false => rfl
  | true =>
    rw [TokenStream.wordAt?_of_sees hparen] at hword
    cases hword

theorem sharing_allows_types (known : Known) (i : Nat) :
    (sharing ts levels).allows known ⟨i, some .types⟩ :=
  .inl (asks_inquiry_types ts _ i)

theorem Delimiters.invariant_sharing (delimiters : Delimiters) :
    delimiters.Invariant ts (sharing ts levels)
      (fun cursor known => known.ShallowFrom ts cursor.token)
      fun cursor known => known.ShallowFrom ts cursor.token where
  blanks _ _ hshallow := hshallow.mono (ts.le_skipBlanks _)
  separator _ _ hshallow _ := hshallow.mono (Nat.le_succ _)
  closer _ _ hshallow _ := hshallow.mono (Nat.le_succ _)
  allows _ _ hshallow _ := .inr (.inl hshallow)
  item := by
    rintro _ _ hshallow parsed _ ⟨hverdict, -, hgrown⟩
    exact hgrown.moved hshallow parsed hverdict.symm

theorem Delimiters.items_shares (delimiters : Delimiters) (budget : Nat) (cursor : Cursor)
    (found : List Node) (declined : Known → Prop) (hshallow : known.ShallowFrom ts cursor.token) :
    (delimiters.items ts budget cursor found).Keeps (sharing ts levels)
      (fun result known' => known'.ShallowFrom ts result.2.token) declined known :=
  delimiters.invariant_sharing.keeps_items declined budget found hshallow

theorem Rule.blockAt_shares (start : Nat) (hstanding : known.Standing ts levels i) :
    (blockAt ts start (.fresh i)).Keeps (sharing ts levels)
      (fun parsed known' => known'.ShallowFrom ts parsed.cursor.token)
      (Known.Standing ts levels i) known := by
  simp only [blockAt, Attempt.keeps_ite, Attempt.keeps_bind, Attempt.keeps_pure,
    Attempt.keeps_decline, Cursor.fresh_token, Cursor.fresh_skip]
  split
  · next hopen =>
    have hparen : ts.sees i .openParen = false := by
      rw [TokenStream.sees, TokenStream.sees_iff.mp hopen]
      rfl
    exact Delimiters.items_shares _ _ _ _ _ (hstanding.after hparen)
  · exact hstanding

theorem Rule.stringAt_shares (start : Nat) (hstanding : known.Standing ts levels i) :
    (stringAt ts start (.fresh i)).Keeps (sharing ts levels)
      (fun parsed known' => known'.ShallowFrom ts parsed.cursor.token)
      (Known.Standing ts levels i) known := by
  unfold stringAt
  rw [Cursor.fresh_token]
  split
  · exact hstanding
  · next token htoken =>
    split
    · exact hstanding
    · next quote hquote =>
      split
      · next tokens next hrest =>
        have hparen : ts.sees i .openParen = false := by
          cases hsees : ts.sees i .openParen with
          | false => rfl
          | true =>
            obtain rfl := Option.some.inj (htoken.symm.trans (TokenStream.sees_iff.mp hsees))
            cases hquote
        have hadvances := restOfString_advances hrest
        rw [Cursor.advance_token, Cursor.fresh_token] at hadvances
        exact (hstanding.after hparen).mono (Nat.le_of_lt hadvances)
      · exact Attempt.keeps_rejected ..

/-- A body is read from behind the place, where nothing deep is known yet. -/
theorem Rule.namedBody_shares {start : Nat} (name : String) (cursor : Cursor)
    (declined : Known → Prop) (hshallow : known.ShallowFrom ts cursor.token) :
    (namedBody start name cursor).Keeps (sharing ts levels)
      (fun parsed known' => known'.ShallowFrom ts parsed.cursor.token) declined known := by
  simp only [namedBody, Attempt.keeps_bind, Attempt.keeps_require, Attempt.keeps_pure,
    Cursor.moveTo_token]
  exact ⟨.inr (.inl hshallow), fun body next hbody => hbody.2.2.moved hshallow body hbody.1.symm⟩

theorem Rule.parameterList_shares {matched : Cursor → Known → Prop} (cursor : Cursor)
    (hstanding : known.Standing ts levels i)
    (hmatched : ∀ next, next.token = cursor.token + 2 → matched next known) :
    (parameterList ts cursor).Keeps (sharing ts levels) matched (Known.Standing ts levels i)
      known :=
  keeps_parameterList hstanding fun _ _ => hmatched _ rfl

theorem Rule.nameAfterType_shares {matched : String × Cursor → Known → Prop} (cursor : Cursor)
    (hstanding : known.Standing ts levels i)
    (hmatched : ∀ name next known', cursor.token ≤ next.token → known'.Standing ts levels i →
      matched (name, next) known') :
    (nameAfterType ts cursor).Keeps (sharing ts levels) matched (Known.Standing ts levels i)
      known := by
  refine keeps_nameAfterType hstanding (fun _ => sharing_allows_types known _) ?_
  rintro parsed name next ⟨hverdict, -, hgrown⟩
  have hmoved := (verdict_advances ts _ parsed hverdict.symm).1
  exact hmatched name _ next hmoved (hstanding.grown hgrown (asks_inquiry_types ts _ _))

/-- A type is a word, and asking for it adds nothing deep. -/
theorem Known.Standing.probe_types {matched : Parsed → Known → Prop}
    (hstanding : known.Standing ts levels i) (hblank : ts.skipBlanks i = i)
    (hmatched : ∀ name known', ts.wordAt? i = some name → known'.Standing ts levels i →
      matched ⟨.identifier ⟨i, i + 1⟩ name, .fresh (i + 1)⟩ known') :
    (Attempt.probe ⟨i, some .types⟩).Keeps (sharing ts levels) matched
      (Known.Standing ts levels i) known := by
  rw [Attempt.keeps_probe]
  have hgrows {found : Verdict} {next : Known}
      (h : (sharing ts levels).answers known ⟨i, some .types⟩ found next) :
      next.Standing ts levels i :=
    hstanding.grown h.2.2 (asks_inquiry_types ts _ i)
  refine ⟨sharing_allows_types known i, fun parsed next hparsed => ?_,
    fun error next herror => hgrows herror⟩
  have hverdict := hparsed.1
  rw [verdict_types hblank] at hverdict
  split at hverdict
  · next name hword =>
    obtain rfl := Except.ok.inj hverdict
    exact hmatched name next hword (hgrows hparsed)
  · cases hverdict

theorem Rule.namedFunctionAt_shares (start : Nat) (hblank : ts.skipBlanks i = i)
    (hstanding : known.Standing ts levels i) :
    (namedFunctionAt ts start (.fresh i)).Keeps (sharing ts levels)
      (fun parsed known' => known'.ShallowFrom ts parsed.cursor.token)
      (Known.Standing ts levels i) known := by
  simp only [namedFunctionAt, Attempt.keeps_bind, Cursor.fresh_token]
  refine hstanding.probe_types hblank fun name known' hword hstanding => ?_
  simp only [Cursor.fresh_moveTo, Cursor.fresh_token, Attempt.keeps_ite]
  have hbody {name' : String} {next : Cursor} {known : Known} (hnext : i < next.token)
      (hstanding : known.Standing ts levels i) :
      (namedBody start name' (next.skipBlanks ts)).Keeps (sharing ts levels)
        (fun parsed known' => known'.ShallowFrom ts parsed.cursor.token)
        (Known.Standing ts levels i) known := by
    apply namedBody_shares
    rw [Cursor.skipBlanks_token]
    exact (hstanding.after_word hword).mono (Nat.le_trans hnext (ts.le_skipBlanks _))
  split
  · simp only [Attempt.keeps_bind]
    refine nameAfterType_shares _ hstanding fun name' next known hnext hstanding => ?_
    refine parameterList_shares next hstanding fun last hlast => ?_
    rw [Cursor.advance_token, Cursor.fresh_token] at hnext
    exact hbody (by omega) hstanding
  · simp only [Node.identifier?, Attempt.keeps_bind]
    refine parameterList_shares _ hstanding fun last hlast => ?_
    rw [Cursor.fresh_token] at hlast
    simp only [Attempt.keeps_ite]
    split
    · exact hbody (by omega) hstanding
    · exact hstanding

theorem Rule.inlineFunctionAt_shares (start : Nat) (hblank : ts.skipBlanks i = i)
    (hstanding : known.Standing ts levels i) :
    (inlineFunctionAt ts start (.fresh i)).Keeps (sharing ts levels)
      (fun parsed known' => known'.ShallowFrom ts parsed.cursor.token)
      (Known.Standing ts levels i) known := by
  simp only [inlineFunctionAt, Attempt.keeps_bind, Cursor.fresh_token]
  refine hstanding.probe_types hblank fun name known' hword hstanding => ?_
  refine parameterList_shares _ hstanding fun last hlast => ?_
  rw [Cursor.moveTo_token, Cursor.fresh_token] at hlast
  have hskip := ts.le_skipBlanks last.token
  simp only [Attempt.keeps_eat, Attempt.keeps_require, Attempt.keeps_pure]
  split
  · split
    · have hskip' := ts.le_skipBlanks (ts.skipBlanks last.token + 1 + 1)
      simp only [Cursor.skipBlanks_token, Cursor.advance_token, Cursor.moveTo_token]
      have hshallow := (hstanding.after_word hword).mono
        (show i + 1 ≤ ts.skipBlanks (ts.skipBlanks last.token + 1 + 1) by omega)
      exact ⟨.inr (.inl hshallow), fun body next hbody =>
        hbody.2.2.moved hshallow body hbody.1.symm⟩
    · exact hstanding
  · exact hstanding

/-- Outside parentheses a callee leads to nothing deep. -/
theorem shallow_of_callee_calls {level : Nat} {called : Request} (hblank : ts.skipBlanks i = i)
    (hparen : ts.sees i .openParen = false)
    (hcalls : Request.Calls ts ⟨i, some .callables⟩ level called) (hstart : i < called.start) :
    called.Shallow ts := by
  cases hcalls with
  | self => exact absurd hstart (Nat.lt_irrefl i)
  | ask other hask hcalls =>
    by_cases hlt : i < ts.size
    · cases hword : ts.wordAt? i with
      | some name =>
        rw [asks_callables_of_word hword] at hask
        cases hask
      | none =>
        rw [asks_callables_of_no_word hlt hblank hword, hparen] at hask
        have hother : other = Request.mk i (some .types) := by simpa using hask
        subst hother
        rw [Request.Shallow.eq_of_calls (asks_inquiry_types ts _ i) hcalls] at hstart
        exact absurd hstart (Nat.lt_irrefl i)
    · rw [asks_inquiry_of_ge _ (Nat.le_of_not_lt hlt)] at hask
      cases hask

theorem Known.Standing.allows_callables (hstanding : known.Standing ts levels i) :
    (sharing ts levels).allows known ⟨i, some .callables⟩ := by
  obtain hshallow | ⟨hknown, hfits, -⟩ := hstanding.callee
  · exact .inr (.inl hshallow)
  · exact .inr (.inr ⟨hknown, hfits⟩)

/-- Once the callee is known it may be asked for again, and so may what its parentheses hold. -/
theorem Known.Standing.callee_asked {found : Verdict} (hblank : ts.skipBlanks i = i)
    (hstanding : known.Standing ts levels i)
    (hanswer : (sharing ts levels).answers known ⟨i, some .callables⟩ found known') :
    known'.Standing ts levels i where
  closed := hanswer.2.2.closed
  after hparen := by
    intro r hr hle
    obtain hknown | ⟨level, hcalls⟩ := hanswer.2.2.called r hr
    · exact hstanding.after hparen r hknown hle
    · exact shallow_of_callee_calls hblank hparen hcalls hle
  callee := by
    refine .inr ⟨hanswer.2.2.self, hanswer.2.1, fun parsed hparsed => ?_⟩
    obtain hshallow | ⟨hknown, -, hcallee⟩ := hstanding.callee
    · exact hanswer.2.2.moved hshallow parsed hparsed
    · exact fun r hr => hcallee parsed hparsed r (hanswer.2.2.again hknown r hr)

theorem Rule.executionAt_shares (start : Nat) (hblank : ts.skipBlanks i = i)
    (hstanding : known.Standing ts levels i) :
    (executionAt ts start (.fresh i)).Keeps (sharing ts levels)
      (fun parsed known' => known'.ShallowFrom ts parsed.cursor.token)
      (Known.Standing ts levels i) known := by
  simp only [executionAt, Attempt.keeps_bind, Attempt.keeps_probe, Attempt.keeps_ite,
    Attempt.keeps_pure, Attempt.keeps_decline, Cursor.fresh_token, Cursor.fresh_moveTo,
    Cursor.fresh_skipBlanks, Cursor.fresh_skip]
  refine ⟨hstanding.allows_callables, fun callee next hcallee => ?_,
    fun error next herror => hstanding.callee_asked hblank herror⟩
  split
  · have hshallow : next.ShallowFrom ts callee.cursor.token := by
      obtain hshallow | ⟨hknown, -, hbefore⟩ := hstanding.callee
      · exact hcallee.2.2.moved hshallow callee hcallee.1.symm
      · exact fun r hr => hbefore callee hcallee.1.symm r (hcallee.2.2.again hknown r hr)
    apply Delimiters.items_shares
    rw [Cursor.fresh_token]
    exact hshallow.mono (Nat.le_succ_of_le (ts.le_skipBlanks _))
  · exact hstanding.callee_asked hblank hcallee

theorem mem_asks_callables (hopen : ts.sees i .openParen = true) :
    ⟨i + 1, none⟩ ∈ (Request.inquiry ts ⟨i, some .callables⟩).asks (verdict ts) := by
  have hlt := TokenStream.lt_size_of_sees hopen
  have hblank := TokenStream.skipBlanks_of_sees hopen rfl
  rw [asks_callables_of_no_word hlt hblank (TokenStream.wordAt?_of_sees hopen), hopen]
  simp

theorem verdict_callables_of_grouping {inner : Parsed} (hopen : ts.sees i .openParen = true)
    (hinner : verdict ts ⟨i + 1, none⟩ = .ok inner)
    (hclose : ts.sees (ts.skipBlanks inner.cursor.token) .closeParen = true) :
    verdict ts ⟨i, some .callables⟩ =
      .ok ⟨inner.node, .fresh (ts.skipBlanks inner.cursor.token + 1)⟩ := by
  have hlt := TokenStream.lt_size_of_sees hopen
  have hblank := TokenStream.skipBlanks_of_sees hopen rfl
  rw [verdict_callables_of_no_word hlt hblank (TokenStream.wordAt?_of_sees hopen),
    Rule.eval_groupingAt, if_pos hopen, hinner]
  simp only [hclose, if_true]

/-- What parentheses hold is either asked for the first time or known from the callee. A grouping
    that declines leaves only the identifier to be tried, so no more is promised then than what a
    word needs. -/
theorem Rule.groupingAt_shares (hstanding : known.Standing ts levels i) :
    (groupingAt ts (.fresh i)).Keeps (sharing ts levels)
      (fun parsed known' => known'.ShallowFrom ts parsed.cursor.token)
      (fun known' => ts.sees i .openParen = false → known'.ShallowFrom ts (i + 1)) known := by
  simp only [groupingAt, Attempt.keeps_bind, Attempt.keeps_eat, Attempt.keeps_require,
    Attempt.keeps_pure, Cursor.fresh_token, Cursor.advance_token, Cursor.skipBlanks_token,
    Cursor.moveTo_token]
  split
  · next hopen =>
    refine ⟨?_, fun inner next hinner => ?_⟩
    · obtain hshallow | ⟨hknown, hfits, -⟩ := hstanding.callee
      · exact .inr (.inl (hshallow.mono (Nat.le_succ i)))
      · refine .inr (.inr ⟨hstanding.closed _ hknown _ (mem_asks_callables hopen), ?_⟩)
        obtain _ | levels := levels
        · exact hfits.elim
        · exact (hfits _ (mem_asks_callables hopen)).mono (Nat.le_succ levels)
    · split
      · next hclose =>
        obtain hshallow | ⟨hknown, -, hcallee⟩ := hstanding.callee
        · have hmoved := hinner.2.2.moved (hshallow.mono (Nat.le_succ i)) inner hinner.1.symm
          exact hmoved.mono (Nat.le_succ_of_le (ts.le_skipBlanks _))
        · have hsame := hcallee _ (verdict_callables_of_grouping hopen hinner.1.symm hclose)
          rw [Cursor.fresh_token] at hsame
          have hinnerKnown := hstanding.closed _ hknown _ (mem_asks_callables hopen)
          exact fun r hr => hsame r (hinner.2.2.again hinnerKnown r hr)
      · exact fun hparen => absurd (hopen.symm.trans hparen) (by decide)
  · exact hstanding.after

theorem Rule.identifierAt_shares (start : Nat) (declined : Known → Prop)
    (hshallow : ts.sees i .openParen = false → known.ShallowFrom ts (i + 1))
    (hdeclined : declined known) :
    (identifierAt ts start (.fresh i)).Keeps (sharing ts levels)
      (fun parsed known' => known'.ShallowFrom ts parsed.cursor.token) declined known := by
  unfold identifierAt
  rw [Cursor.fresh_token]
  split
  · next content hcontent =>
    simp only [Attempt.keeps_ite, Attempt.keeps_pure, Attempt.keeps_decline,
      Cursor.fresh_advance_text, Cursor.fresh_token]
    split
    · apply hshallow
      rw [TokenStream.sees, hcontent]
      rfl
    · exact hdeclined
  · exact hdeclined

theorem Rule.attempt_shares (start : Nat) (hblank : ts.skipBlanks i = i) {rule : Rule}
    (hrule : rule ≠ .grouping) (hstanding : known.Standing ts levels i) :
    (rule.attempt ts start (.fresh i)).Keeps (sharing ts levels)
      (fun parsed known' => known'.ShallowFrom ts parsed.cursor.token)
      (Known.Standing ts levels i) known := by
  cases rule with
  | block => exact blockAt_shares start hstanding
  | string => exact stringAt_shares start hstanding
  | namedFunction => exact namedFunctionAt_shares start hblank hstanding
  | inlineFunction => exact inlineFunctionAt_shares start hblank hstanding
  | execution => exact executionAt_shares start hblank hstanding
  | grouping => exact absurd rfl hrule
  | identifier => exact identifierAt_shares start _ hstanding.after hstanding

/-- After a grouping only an identifier is ever tried. -/
theorem Rule.candidates_eq_append (filter : Option NodeFilter) :
    ∃ rules rest, candidates filter = rules ++ rest ∧ .grouping ∉ rules ∧
      (rest = [] ∨ rest = [.grouping] ∨ rest = [.grouping, .identifier]) := by
  cases filter with
  | none =>
    exact ⟨[.block, .string, .namedFunction, .inlineFunction, .execution],
      [.grouping, .identifier], rfl, by decide, .inr (.inr rfl)⟩
  | some filter =>
    refine ⟨_, _, rfl, ?_, ?_⟩
    · simp [kind?]
    · cases filter.fallback
      · exact .inl rfl
      · exact .inr (.inl rfl)

/-- Whoever starts at a place from which on nothing deep is known asks only what may be asked, and
    leaves it so behind the node that is read. -/
theorem Request.inquiry_shares {request : Request} (hclosed : known.Closed ts)
    (hshallow : known.ShallowFrom ts request.start) :
    (request.inquiry ts).Keeps (sharing ts levels)
      (fun found known' => ∀ parsed, found = .ok parsed →
        known'.ShallowFrom ts parsed.cursor.token) known := by
  have hskip := ts.le_skipBlanks request.start
  have hblank := ts.skipBlanks_skipBlanks request.start
  obtain ⟨rules, rest, hcandidates, hrules, hrest⟩ := Rule.candidates_eq_append request.filter
  have hhere := hshallow.mono hskip
  have hstanding : known.Standing ts levels (ts.skipBlanks request.start) :=
    ⟨hclosed, fun _ => hhere.mono (Nat.le_succ _), .inl hhere⟩
  unfold Request.inquiry
  rw [hcandidates, Cursor.fresh_skipBlanks]
  split
  · have hmatched (parsed : Parsed) (known' : Known)
        (hknown' : known'.ShallowFrom ts parsed.cursor.token) (p : Parsed)
        (hp : Except.ok parsed = (.ok p : Verdict)) : known'.ShallowFrom ts p.cursor.token :=
      Except.ok.inj hp ▸ hknown'
    have herror (error : SyntaxError) (known' : Known) (p : Parsed)
        (hp : Except.error error = (.ok p : Verdict)) : known'.ShallowFrom ts p.cursor.token :=
      nomatch hp
    refine keeps_tryRules_append hmatched herror (fun rule hrule known' hknown' =>
      Rule.attempt_shares _ hblank (fun h => hrules (h ▸ hrule)) hknown') ?_ hstanding
    intro known' hknown'
    obtain rfl | rfl | rfl := hrest
    · exact herror _ known'
    · exact keeps_tryRules_cons hmatched herror (Rule.groupingAt_shares hknown')
        fun next _ => herror _ next
    · refine keeps_tryRules_cons hmatched herror (Rule.groupingAt_shares hknown')
        fun next hnext => ?_
      exact keeps_tryRules_cons hmatched herror
        (Rule.identifierAt_shares _ (fun _ => True) hnext trivial) fun last _ => herror _ last
  · split
    · intro parsed h
      cases h
      exact hshallow
    · intro parsed h
      cases h

end

end CurlyScript
