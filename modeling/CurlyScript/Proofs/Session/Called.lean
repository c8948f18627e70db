import CurlyScript.Proofs.Grammar.Levels
import CurlyScript.Proofs.Grammar.Standing
import CurlyScript.Proofs.Script.Missing
import CurlyScript.Proofs.Session.Filtered

namespace CurlyScript

section

variable {ts : TokenStream} {start i : Nat} {parsed : Parsed} {rule : Rule}

/-- Definitions that are not in parentheses are never found among what can be called: they begin
    with a name, and there the name has been found before. -/
theorem verdict_callables_eq (ts : TokenStream) (start : Nat) :
    verdict ts ⟨start, some .callables⟩ = verdict ts ⟨start, some (.grouped .identifier)⟩ := by
  rw [verdict_eq, verdict_eq]
  by_cases hlt : start < ts.size
  · rw [eval_inquiry_of_lt _ hlt, eval_inquiry_of_lt _ hlt, Rule.candidates_callables]
    change (tryRules ts start (.fresh (ts.skipBlanks start)) (.identifier ::
      ([.namedFunction, .inlineFunction] ++ [.grouping]))).eval _ =
        (tryRules ts start (.fresh (ts.skipBlanks start)) [.identifier, .grouping]).eval _
    have hblank := ts.skipBlanks_skipBlanks start
    rw [eval_tryRules_cons, eval_tryRules_cons]
    cases hword : ts.wordAt? (ts.skipBlanks start) with
    | some name => simp only [Rule.attempt, Rule.eval_identifierAt, hword]
    | none =>
      have hdeclined : ∀ rule ∈ [Rule.namedFunction, .inlineFunction],
          (rule.attempt ts start (.fresh (ts.skipBlanks start))).eval (verdict ts) =
            .error .declined := by
        rw [List.forall_mem_cons, List.forall_mem_singleton]
        exact ⟨Rule.eval_namedFunctionAt_of_no_word start hblank hword,
          Rule.eval_inlineFunctionAt_of_no_word start hblank hword⟩
      rw [eval_tryRules_append hdeclined]
  · simp only [Request.inquiry, hlt, if_false]

/-- What is found to be called is a name or stands in parentheses, whatever they hold. -/
theorem callee_of_verdict_callables {callee : Parsed}
    (hcallee : verdict ts ⟨i, some .callables⟩ = .ok callee) (hblank : ts.skipBlanks i = i) :
    callee.node.NamedAt ts i ∨ callee.node.Parenthesised ts i := by
  cases hword : ts.wordAt? i with
  | some name =>
    rw [verdict_callables_of_word hword, Except.ok.injEq] at hcallee
    subst hcallee
    exact .inl ⟨name, hword, rfl⟩
  | none =>
    cases hparen : ts.sees i .openParen with
    | false => exact absurd hcallee (verdict_callables_ne_ok hparen hblank hword callee)
    | true =>
      obtain ⟨inner, hinner, hclose, rfl⟩ := (verdict_callables_eq_ok_iff hparen).mp hcallee
      obtain ⟨node, next, hreads, rfl⟩ := (agrees ts (i + 1) inner).mp hinner
      exact .inr ⟨hparen, next, hreads, hclose⟩

/-- Without a filter the grammar tells what is called. -/
theorem callsProperly_of_unfiltered (hok : verdict ts ⟨i, none⟩ = .ok parsed) :
    parsed.node.Everywhere (·.CallsProperly ts) := by
  obtain ⟨node, stop, hreads, rfl⟩ := (agrees ts i parsed).mp hok
  exact hreads.callsProperly

theorem Delimiters.callsProperly_of_read {delimiters : Delimiters} {nodes : List Node}
    {cursor : Cursor} (hplain : delimiters.Plain)
    (hread : (delimiters.read ts (.fresh i)).eval (verdict ts) = .ok (nodes, cursor)) :
    ∀ node ∈ nodes, node.Everywhere (·.CallsProperly ts) := by
  obtain ⟨found, stop, hlist, hsame⟩ :=
    (eval_read_eq_ok_iff hplain (fun j _ => agrees ts j) _).mp hread
  obtain ⟨rfl, -⟩ := Prod.mk.inj hsame
  exact hlist.callsProperly

namespace Rule

theorem callsProperly_of_blockAt
    (hmatched : (blockAt ts start (.fresh i)).eval (verdict ts) = .ok parsed) :
    parsed.node.Everywhere (·.CallsProperly ts) := by
  rw [eval_blockAt] at hmatched
  split at hmatched
  · split at hmatched
    · cases hmatched
    · next statements cursor hread =>
      obtain rfl := Except.ok.inj hmatched
      have hbelow := Delimiters.callsProperly_of_read Delimiters.plain_statements hread
      exact Node.everywhere_iff.mpr ⟨trivial, hbelow⟩
  · cases hmatched

theorem callsProperly_of_stringAt
    (hmatched : (stringAt ts start (.fresh i)).eval (verdict ts) = .ok parsed) :
    parsed.node.Everywhere (·.CallsProperly ts) := by
  rw [eval_stringAt] at hmatched
  split at hmatched
  · cases hmatched
  · split at hmatched
    · cases hmatched
    · obtain rfl := Except.ok.inj hmatched
      exact Node.everywhere_iff.mpr ⟨trivial, List.forall_mem_nil _⟩

/-- What a body calls is called in the function. -/
theorem callsProperly_of_body {body : Nat} {inner : Parsed} {node : Node}
    (hbody : verdict ts ⟨body, none⟩ = .ok inner) (hfunction : node.body? = some inner.node) :
    node.Everywhere (·.CallsProperly ts) := by
  refine Node.everywhere_iff.mpr ⟨?_, ?_⟩
  · cases node with
    | execution => cases hfunction
    | _ => trivial
  · rw [Node.children_of_body? hfunction]
    exact List.forall_mem_singleton.mpr (callsProperly_of_unfiltered hbody)

theorem callsProperly_of_namedFunctionAt (hblank : ts.skipBlanks i = i)
    (hmatched : (namedFunctionAt ts start (.fresh i)).eval (verdict ts) = .ok parsed) :
    parsed.node.Everywhere (·.CallsProperly ts) := by
  cases hword : ts.wordAt? i with
  | none =>
    rw [eval_namedFunctionAt_of_no_word start hblank hword] at hmatched
    cases hmatched
  | some name =>
    rw [eval_namedFunctionAt_of_word start hword] at hmatched
    split at hmatched
    · next defined body =>
      rw [eval_namedBody] at hmatched
      split at hmatched
      · cases hmatched
      · next inner hinner =>
        obtain rfl := Except.ok.inj hmatched
        exact callsProperly_of_body hinner rfl
    · cases hmatched
    · cases hmatched

theorem callsProperly_of_inlineFunctionAt (hblank : ts.skipBlanks i = i)
    (hmatched : (inlineFunctionAt ts start (.fresh i)).eval (verdict ts) = .ok parsed) :
    parsed.node.Everywhere (·.CallsProperly ts) := by
  cases hword : ts.wordAt? i with
  | none =>
    rw [eval_inlineFunctionAt_of_no_word start hblank hword] at hmatched
    cases hmatched
  | some name =>
    rw [eval_inlineFunctionAt_of_word start hword] at hmatched
    split at hmatched
    · next body =>
      split at hmatched
      · cases hmatched
      · next inner hinner =>
        obtain rfl := Except.ok.inj hmatched
        exact callsProperly_of_body hinner rfl
    · cases hmatched

theorem callsProperly_of_groupingAt
    (hmatched : (groupingAt ts (.fresh i)).eval (verdict ts) = .ok parsed) :
    parsed.node.Everywhere (·.CallsProperly ts) := by
  obtain ⟨-, inner, hinner, -, rfl⟩ := eval_groupingAt_eq_ok_iff.mp hmatched
  change inner.node.Everywhere _
  exact callsProperly_of_unfiltered hinner

theorem callsProperly_of_identifierAt
    (hmatched : (identifierAt ts start (.fresh i)).eval (verdict ts) = .ok parsed) :
    parsed.node.Everywhere (·.CallsProperly ts) := by
  rw [eval_identifierAt] at hmatched
  split at hmatched
  · obtain rfl := Except.ok.inj hmatched
    exact Node.everywhere_iff.mpr ⟨trivial, List.forall_mem_nil _⟩
  · cases hmatched

theorem callsProperly_of_executionAt
    (hmatched : (executionAt ts start (.fresh (ts.skipBlanks start))).eval (verdict ts) =
      .ok parsed) :
    parsed.node.Everywhere (·.CallsProperly ts) := by
  rw [eval_executionAt] at hmatched
  split at hmatched
  · cases hmatched
  · next callee hcallee =>
    split at hmatched
    · split at hmatched
      · cases hmatched
      · next arguments cursor hread =>
        obtain rfl := Except.ok.inj hmatched
        have harguments := Delimiters.callsProperly_of_read Delimiters.plain_arguments hread
        have hcalls := callee_of_verdict_callables hcallee (ts.skipBlanks_skipBlanks start)
        have hcallee : callee.node.Everywhere (·.CallsProperly ts) := by
          obtain ⟨name, -, hname⟩ | ⟨-, next, hreads, -⟩ := hcalls
          · rw [hname]
            exact Node.everywhere_iff.mpr ⟨trivial, List.forall_mem_nil _⟩
          · exact hreads.callsProperly
        exact Node.everywhere_iff.mpr
          ⟨hcalls, List.forall_mem_cons.mpr ⟨hcallee, harguments⟩⟩
    · cases hmatched

theorem callsProperly_of_attempt
    (hmatched : (rule.attempt ts start (.fresh (ts.skipBlanks start))).eval (verdict ts) =
      .ok parsed) :
    parsed.node.Everywhere (·.CallsProperly ts) := by
  have hblank := ts.skipBlanks_skipBlanks start
  cases rule with
  | block => exact callsProperly_of_blockAt hmatched
  | string => exact callsProperly_of_stringAt hmatched
  | namedFunction => exact callsProperly_of_namedFunctionAt hblank hmatched
  | inlineFunction => exact callsProperly_of_inlineFunctionAt hblank hmatched
  | execution => exact callsProperly_of_executionAt hmatched
  | grouping => exact callsProperly_of_groupingAt hmatched
  | identifier => exact callsProperly_of_identifierAt hmatched

end Rule

/-- Whatever the filter is, all calls are of names or of what is put in parentheses. -/
theorem callsProperly_of_verdict {request : Request} (hok : verdict ts request = .ok parsed) :
    parsed.node.Everywhere (·.CallsProperly ts) := by
  by_cases hlt : request.start < ts.size
  · rw [verdict_eq, eval_inquiry_of_lt _ hlt] at hok
    obtain ⟨-, rule, -, -, -, hmatched⟩ := eval_tryRules_eq_ok_iff.mp hok
    exact Rule.callsProperly_of_attempt hmatched
  · obtain ⟨start, _ | filter⟩ := request
    · exact callsProperly_of_unfiltered hok
    · exact absurd hok (verdict_filtered_ne_ok (Nat.le_of_not_lt hlt) filter parsed)

end

/-- What can be called is a name or stands in parentheses, though the filter for it lists
    definitions, too. With two levels for each token the parser cannot tell the filter from the one
    for names and parentheses alone; and in every tree that it yields, whatever the limit, only
    names and what is put in parentheses are called. -/
theorem callables_are_names_or_parenthesised :
    (∀ ts limit start, 2 * (ts.size - start) ≤ limit →
      (Session.parse ⟨ts, limit, {}⟩ ⟨start, some .callables⟩).1 =
        (Session.parse ⟨ts, limit, {}⟩ ⟨start, some ⟨[.identifier], true⟩⟩).1) ∧
    (∀ ts limit history request parsed,
      ((Session.parseAll ⟨ts, limit, {}⟩ history).parse request).1 = .ok parsed →
        parsed.node.Everywhere (·.CallsProperly ts)) ∧
    (∀ ts root, parseTokens ts = .ok root → root.Everywhere (·.CallsProperly ts)) ∧
    ∀ limit source script, Script.parse limit source = .ok script →
      script.root.Everywhere (·.CallsProperly script.tokens) := by
  refine ⟨?_, ?_, ?_, ?_⟩
  · intro ts limit start hlimit
    have hneed (filter : NodeFilter) : Request.need ts ⟨start, some filter⟩ ≤ limit + 1 :=
      Nat.le_trans (Request.need_le ts _) (Nat.succ_le_succ hlimit)
    rw [Session.parse_of_need_le (hneed _), Session.parse_of_need_le (hneed _),
      verdict_callables_eq]
    rfl
  · intro ts limit history request parsed hok
    exact callsProperly_of_verdict (Session.verdict_of_parseAll_ok hok)
  · intro ts root hok
    rw [parseTokens] at hok
    cases hparse : (Session.parse ⟨ts, defaultNesting, {}⟩ ⟨0, none⟩).1 with
    | error error =>
      rw [hparse] at hok
      cases hok
    | ok parsed =>
      rw [hparse] at hok
      obtain rfl := Except.ok.inj hok
      exact callsProperly_of_verdict (Session.verdict_of_ok hparse)
  · intro limit source script hok
    by_cases hne : tokenize source = []
    · rw [Script.parse_of_empty hne] at hok
      obtain rfl := Except.ok.inj hok
      exact Node.everywhere_iff.mpr ⟨trivial, List.forall_mem_nil _⟩
    · exact (Script.reads_of_parse_ok hne hok).2.callsProperly

/-- A definition that is called stands in parentheses. Without them its name is what can be called,
    under either filter. -/
theorem callables_are_names_or_parenthesised_definition :
    let definition : TokenStream := #[.text "f", .symbol .openParen, .symbol .closeParen,
      .symbol .openCurly, .symbol .closeCurly]
    let name : Parsed := ⟨.identifier ⟨0, 1⟩ "f", .fresh 1⟩
    let call : TokenStream := #[.symbol .openParen, .text "f", .symbol .openParen,
      .symbol .closeParen, .symbol .openCurly, .symbol .closeCurly, .symbol .closeParen,
      .symbol .openParen, .symbol .closeParen]
    let callee := Node.namedFunction ⟨1, 6⟩ "f" (.block ⟨4, 6⟩ [])
    let root := Node.execution ⟨0, 9⟩ callee []
    let script : Script := ⟨Script.enclose [.text "a", .symbol .openParen, .symbol .closeParen],
      .block ⟨0, 5⟩ [.execution ⟨1, 4⟩ (.identifier ⟨1, 2⟩ "a") []]⟩
    (2 * (definition.size - 0) ≤ 10 ∧
      (Session.parse ⟨definition, 10, {}⟩ ⟨0, some .callables⟩).1 = .ok name ∧
      (Session.parse ⟨definition, 10, {}⟩ ⟨0, some ⟨[.identifier], true⟩⟩).1 = .ok name) ∧
    (((Session.parseAll ⟨call, 4, {}⟩ [⟨1, none⟩]).parse ⟨0, none⟩).1 = .ok ⟨root, .fresh 9⟩ ∧
      callee.Parenthesised call 0) ∧
    (parseTokens call = .ok root ∧ root.Everywhere (·.CallsProperly call)) ∧
    Script.parse 2 "a()" = .ok script ∧
      script.root.Everywhere (·.CallsProperly script.tokens) := by
  intro definition name call callee root script
  have hlimit : 2 * (definition.size - 0) ≤ 10 := by decide
  have hname : (Session.parse ⟨definition, 10, {}⟩ ⟨0, some .callables⟩).1 = .ok name := by cbv
  have hcall : ((Session.parseAll ⟨call, 4, {}⟩ [⟨1, none⟩]).parse ⟨0, none⟩).1 =
      .ok ⟨root, .fresh 9⟩ := by cbv
  have hroot : parseTokens call = .ok root := by cbv
  have hscript : Script.parse 2 "a()" = .ok script := by cbv
  have hskip : call.skipBlanks 0 = 0 := by cbv
  obtain ⟨hsame, hsessions, htokens, hscripts⟩ := callables_are_names_or_parenthesised
  refine ⟨⟨hlimit, hname, (hsame _ _ _ hlimit).symm.trans hname⟩, ⟨hcall, ?_⟩,
    ⟨hroot, htokens _ _ hroot⟩, hscript, hscripts _ _ _ hscript⟩
  obtain ⟨name, -, hcallee⟩ | hparenthesised := hsessions _ _ _ _ _ hcall [] root rfl
  · have hkind : NodeKind.functionDefinition = .identifier := congrArg Node.kind hcallee
    cases hkind
  · rwa [hskip] at hparenthesised

end CurlyScript
