import CurlyScript.Proofs.Grammar.Within
import CurlyScript.Proofs.Inquiry.Choice
import CurlyScript.Proofs.Inquiry.Conduct
import CurlyScript.Proofs.Session.Balance

namespace CurlyScript

/-- The filter under which a construct of one kind is looked for, in parentheses or not. -/
def NodeFilter.grouped (kind : NodeKind) : NodeFilter :=
  ⟨[kind], true⟩

namespace Rule

variable {rule : Rule} {before after : List Rule} {filter : NodeFilter} {kind : NodeKind}

theorem kind?_eq_none_iff : rule.kind? = none ↔ rule = .grouping := by
  cases rule <;> simp [kind?]

/-- A rule is a candidate for its kind or as what a filter falls back on. -/
theorem mem_candidates_some (hrule : rule ∈ candidates (some filter)) :
    (∃ kind, rule.kind? = some kind ∧ filter.allows kind = true) ∨
      rule = .grouping ∧ filter.fallback = true := by
  rw [candidates, List.mem_append, List.mem_flatMap] at hrule
  obtain ⟨kind, hkind, hmem⟩ | hgrouping := hrule
  · have htag := (List.mem_filter.mp hmem).2
    exact .inl ⟨kind, eq_of_beq htag, List.contains_iff_mem.mpr hkind⟩
  · split at hgrouping
    · next hfallback => exact .inr ⟨List.mem_singleton.mp hgrouping, hfallback⟩
    · cases hgrouping

theorem candidates_grouped (kind : NodeKind) :
    candidates (some (.grouped kind)) = order.filter (·.kind? == some kind) ++ [.grouping] := by
  simp [candidates, NodeFilter.grouped]

/-- Rules of one kind stay in their order. -/
theorem candidates_grouped_of_kind (horder : order = before ++ rule :: after)
    (hkind : rule.kind? = some kind) :
    candidates (some (.grouped kind)) = before.filter (·.kind? == some kind) ++
      rule :: (after.filter (·.kind? == some kind) ++ [.grouping]) := by
  rw [candidates_grouped, horder, List.filter_append, List.filter_cons_of_pos (by simp [hkind]),
    List.append_assoc, List.cons_append]

/-- Of all rules only the one for names comes behind the grouping. -/
theorem after_grouping (horder : order = before ++ .grouping :: after) : after = [.identifier] := by
  have hsplit : [block, string, namedFunction, inlineFunction, execution] ++
      grouping :: [identifier] = before ++ grouping :: after := horder
  obtain ⟨-, -, rfl⟩ := (List.append_cons_inj_of_notMem (by decide) (by decide)).mp hsplit
  rfl

end Rule

section

variable {ts : TokenStream} {start limit levels : Nat} {cursor : Cursor}
  {filter : Option NodeFilter} {parsed : Parsed} {rule : Rule} {before after : List Rule}

/-- Where a rule matches, the levels have to suffice for it and for the rules before it. -/
theorem within_tryRules_of_matched
    (hdeclined : ∀ other ∈ before,
      (other.attempt ts start cursor).eval (verdict ts) = .error .declined)
    (hmatched : (rule.attempt ts start cursor).eval (verdict ts) = .ok parsed) :
    (tryRules ts start cursor (before ++ rule :: after)).Within ts levels ↔
      (∀ other ∈ before, (other.attempt ts start cursor).Within ts levels) ∧
        (rule.attempt ts start cursor).Within ts levels := by
  rw [Inquiry.Within, asks_tryRules_of_matched hdeclined hmatched, List.forall_mem_append]
  refine and_congr_left' ?_
  simp only [List.mem_flatMap, forall_exists_index, and_imp]
  exact ⟨fun h other hother request hrequest => h request other hother hrequest,
    fun h request other hother hrequest => h other hother request hrequest⟩

/-- A rule is passed over within some levels. -/
def Rule.PassedAt (ts : TokenStream) (levels start : Nat) (rule : Rule) : Prop :=
  (rule.attempt ts start (.fresh (ts.skipBlanks start))).eval (verdict ts) = .error .declined ∧
    (rule.attempt ts start (.fresh (ts.skipBlanks start))).Within ts levels

/-- A rule matches within some levels. -/
def Rule.MatchesAt (ts : TokenStream) (levels start : Nat) (parsed : Parsed) (rule : Rule) :
    Prop :=
  (rule.attempt ts start (.fresh (ts.skipBlanks start))).eval (verdict ts) = .ok parsed ∧
    (rule.attempt ts start (.fresh (ts.skipBlanks start))).Within ts levels

/-- What is read under a filter is what the first of its candidates matches that is not passed
    over. -/
theorem Session.parse_eq_ok_iff_matches (hlt : start < ts.size) :
    (Session.parse ⟨ts, limit, {}⟩ ⟨start, filter⟩).1 = .ok parsed ↔
      ∃ before rule after, Rule.candidates filter = before ++ rule :: after ∧
        (∀ other ∈ before, other.PassedAt ts limit start) ∧
          rule.MatchesAt ts limit start parsed := by
  rw [parse_eq_ok_iff, Request.fits_succ_iff hlt, verdict_eq, eval_inquiry_of_lt _ hlt,
    eval_tryRules_eq_ok_iff]
  constructor
  · rintro ⟨hwithin, before, rule, after, hrules, hdeclined, hmatched⟩
    rw [hrules, within_tryRules_of_matched hdeclined hmatched] at hwithin
    exact ⟨before, rule, after, hrules,
      fun other hother => ⟨hdeclined other hother, hwithin.1 other hother⟩, hmatched, hwithin.2⟩
  · rintro ⟨before, rule, after, hrules, hpassed, hmatched, hwithin⟩
    have hdeclined := fun other hother => (hpassed other hother).1
    rw [hrules, within_tryRules_of_matched hdeclined hmatched]
    exact ⟨⟨fun other hother => (hpassed other hother).2, hwithin⟩,
      before, rule, after, rfl, hdeclined, hmatched⟩

/-- What was read at an opening parenthesis is what the parentheses hold: the node is the one that
    is read behind the opening one when nothing is filtered, and the cursor is just past the closing
    one that belongs to it. -/
def Session.ReadsGrouped (ts : TokenStream) (limit i : Nat) (parsed : Parsed) : Prop :=
  ts.sees i .openParen = true ∧ ∃ stop close,
    (Session.parse ⟨ts, limit, {}⟩ ⟨i + 1, none⟩).1 = .ok ⟨parsed.node, .fresh stop⟩ ∧
      ts.skipBlanks stop = close ∧ ts.sees close .closeParen = true ∧ ts.Closes i i close ∧
        (ts.scan i close).quote = none ∧ parsed.cursor = .fresh (close + 1)

theorem Rule.MatchesAt.readsGrouped
    (hmatches : Rule.grouping.MatchesAt ts limit start parsed) :
    Session.ReadsGrouped ts limit (ts.skipBlanks start) parsed := by
  obtain ⟨hmatched, hwithin⟩ := hmatches
  obtain ⟨hopen, inner, hinner, hclose, rfl⟩ := Rule.eval_groupingAt_eq_ok_iff.mp hmatched
  have hfits := ((Rule.within_groupingAt).mp hwithin hopen).mono (Nat.le_succ limit)
  have hparse := Session.parse_eq_ok_iff.mpr ⟨hfits, hinner⟩
  have hanswer := hparse
  rw [Session.parse_empty, outcome_eq_ok] at hanswer
  obtain ⟨stop, hcursor, hbalanced⟩ := answerAfresh_balanced hanswer
  obtain ⟨node, cursor⟩ := inner
  obtain rfl : cursor = .fresh stop := hcursor
  obtain ⟨hcloses, houtside⟩ := (hbalanced.trans (ts.balanced_skipBlanks stop)).closes rfl hopen
    hclose (Nat.le_refl _) (by rw [TokenStream.scan_self]; rfl)
  exact ⟨hopen, stop, _, hparse, rfl, hclose, hcloses, houtside, rfl⟩

/-- No name begins at a parenthesis. -/
theorem Rule.passedAt_identifier (hopen : ts.sees (ts.skipBlanks start) .openParen = true) :
    Rule.identifier.PassedAt ts limit start := by
  refine ⟨?_, Rule.within_identifierAt start _⟩
  rw [Rule.attempt, Rule.eval_identifierAt, TokenStream.wordAt?_of_sees hopen]

/-- The rule that matches when nothing is filtered is also the first to match among those for the
    kind of what it yields. -/
theorem Rule.MatchesAt.grouped (hmatches : rule.MatchesAt ts limit start parsed)
    (horder : Rule.order = before ++ rule :: after)
    (hpassed : ∀ other ∈ before, other.PassedAt ts limit start) :
    ∃ before after, Rule.candidates (some (.grouped parsed.node.kind)) = before ++ rule :: after ∧
      ∀ other ∈ before, other.PassedAt ts limit start := by
  cases hkind : rule.kind? with
  | some kind =>
    rw [Rule.kind_eq_of_eval hmatches.1 hkind]
    exact ⟨_, _, Rule.candidates_grouped_of_kind horder hkind,
      fun other hother => hpassed other (List.mem_of_mem_filter hother)⟩
  | none =>
    -- A grouping may yield a name, and the rule for names was not tried before it.
    obtain rfl := Rule.kind?_eq_none_iff.mp hkind
    refine ⟨_, [], Rule.candidates_grouped _, fun other hother => ?_⟩
    obtain ⟨hmem, htag⟩ := List.mem_filter.mp hother
    rw [horder, Rule.after_grouping horder, List.mem_append, List.mem_pair] at hmem
    obtain hbefore | rfl | rfl := hmem
    · exact hpassed other hbefore
    · cases htag
    · exact Rule.passedAt_identifier hmatches.readsGrouped.1

/-- What is read under a filter is let through by it, or it stands in parentheses and the filter
    falls back on those. A filter for the kind of what is there without a filter, in parentheses or
    not, changes nothing. -/
theorem Session.parse_filtered (ts : TokenStream) (limit : Nat) (hlt : start < ts.size) :
    (∀ filter parsed, (Session.parse ⟨ts, limit, {}⟩ ⟨start, some filter⟩).1 = .ok parsed →
      filter.allows parsed.node.kind = true ∨
        filter.fallback = true ∧ ReadsGrouped ts limit (ts.skipBlanks start) parsed) ∧
    ∀ parsed, (Session.parse ⟨ts, limit, {}⟩ ⟨start, none⟩).1 = .ok parsed →
      (Session.parse ⟨ts, limit, {}⟩ ⟨start, some (.grouped parsed.node.kind)⟩).1 =
        .ok parsed := by
  constructor
  · intro filter parsed hparse
    obtain ⟨before, rule, after, hrules, -, hmatches⟩ := (parse_eq_ok_iff_matches hlt).mp hparse
    have hmem : rule ∈ Rule.candidates (some filter) := by
      rw [hrules]
      exact List.mem_append_cons_self
    obtain ⟨kind, hkind, hallows⟩ | ⟨rfl, hfallback⟩ := Rule.mem_candidates_some hmem
    · exact .inl (Rule.kind_eq_of_eval hmatches.1 hkind ▸ hallows)
    · exact .inr ⟨hfallback, hmatches.readsGrouped⟩
  · intro parsed hparse
    obtain ⟨before, rule, after, horder, hpassed, hmatches⟩ :=
      (parse_eq_ok_iff_matches hlt).mp hparse
    obtain ⟨before', after', hrules, hpassed'⟩ := hmatches.grouped horder hpassed
    exact (parse_eq_ok_iff_matches hlt).mpr ⟨before', rule, after', hrules, hpassed', hmatches⟩

/-- A call in parentheses, behind a space. A filter for blocks lets it through for its parentheses,
    and one for calls too, but not one for calls alone. -/
theorem Session.parse_filtered_call :
    let ts : TokenStream := #[.symbol .space, .symbol .openParen, .text "f", .symbol .openParen,
      .symbol .closeParen, .symbol .closeParen]
    let call : Parsed := ⟨.execution ⟨2, 5⟩ (.identifier ⟨2, 3⟩ "f") [], .fresh 6⟩
    0 < ts.size ∧
      (Session.parse ⟨ts, 4, {}⟩ ⟨0, some (.grouped .block)⟩).1 = .ok call ∧
      ReadsGrouped ts 4 1 call ∧
      (Session.parse ⟨ts, 4, {}⟩ ⟨0, none⟩).1 = .ok call ∧
      (Session.parse ⟨ts, 4, {}⟩ ⟨0, some (.grouped .execution)⟩).1 = .ok call ∧
      ∀ parsed, (Session.parse ⟨ts, 4, {}⟩ ⟨0, some (.only .execution)⟩).1 ≠ .ok parsed := by
  intro ts call
  have hblock : (Session.parse ⟨ts, 4, {}⟩ ⟨0, some (.grouped .block)⟩).1 = .ok call := by cbv
  have hany : (Session.parse ⟨ts, 4, {}⟩ ⟨0, none⟩).1 = .ok call := by cbv
  have honly : (Session.parse ⟨ts, 4, {}⟩ ⟨0, some (.only .execution)⟩).1 =
      .error (.malformed ⟨.unexpected (some "("), 1⟩) := by cbv
  have hskip : ts.skipBlanks 0 = 1 := by cbv
  have hlt : 0 < ts.size := by decide
  obtain ⟨hlet, hsame⟩ := Session.parse_filtered ts 4 hlt
  obtain hallows | ⟨-, hgrouped⟩ := hlet (.grouped .block) call hblock
  · cases hallows
  · rw [hskip] at hgrouped
    refine ⟨hlt, hblock, hgrouped, hany, hsame call hany, fun parsed => ?_⟩
    rw [honly]
    rintro ⟨⟩

end

end CurlyScript
