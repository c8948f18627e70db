import CurlyScript.Proofs.Grammar.Afterword
import CurlyScript.Proofs.Grammar.Listing
import CurlyScript.Proofs.Grammar.Quoted

namespace CurlyScript

/-- What is read at a place where an opening stands, given what is read at other places. Whatever
    the opening tells is settled, and the rules for other openings do not come into it. -/
def Opening.Yields (ts : TokenStream) (start i : Nat) (parsed : Parsed) : Opening → Prop
  | .block => ∃ list,
      (Delimiters.statements.read ts (.fresh (i + 1))).eval (verdict ts) = .ok list ∧
        parsed = ⟨.block ⟨start, list.2.token⟩ list.1, list.2⟩
  | .string quote => ∃ rest,
      Rule.restOfString ts quote ⟨i + 1, 0, some quote⟩ [] = .ok rest ∧
        parsed = ⟨.string ⟨start, rest.2.token⟩ rest.1, rest.2⟩
  | .named name body => ∃ inner, verdict ts ⟨body, none⟩ = .ok inner ∧
      parsed = ⟨.namedFunction ⟨start, inner.cursor.token⟩ name inner.node,
        .fresh inner.cursor.token⟩
  | .misnamed => False
  | .inline body => ∃ inner, verdict ts ⟨body, none⟩ = .ok inner ∧
      parsed = ⟨.inlineFunction ⟨start, inner.cursor.token⟩ inner.node, .fresh inner.cursor.token⟩
  | .call callee place => ∃ list,
      (Delimiters.arguments.read ts (.fresh place)).eval (verdict ts) = .ok list ∧
        parsed = ⟨.execution ⟨start, list.2.token⟩ (.identifier ⟨i, i + 1⟩ callee) list.1, list.2⟩
  | .word name => parsed = ⟨.identifier ⟨start, i + 1⟩ name, .fresh (i + 1)⟩
  | .parenthesis => ∃ inner, verdict ts ⟨i + 1, none⟩ = .ok inner ∧
      ts.sees (ts.skipBlanks inner.cursor.token) .closeParen = true ∧
      if ts.sees (ts.skipBlanks (ts.skipBlanks inner.cursor.token + 1)) .openParen then ∃ list,
        (Delimiters.arguments.read ts (.fresh (ts.skipBlanks
          (ts.skipBlanks inner.cursor.token + 1) + 1))).eval (verdict ts) = .ok list ∧
            parsed = ⟨.execution ⟨start, list.2.token⟩ inner.node list.1, list.2⟩
      else parsed = ⟨inner.node, .fresh (ts.skipBlanks inner.cursor.token + 1)⟩
  | .nothing => False

/-- What is wrong at a place where an opening stands, given what is read at other places. Only the
    parts that the opening tells can be at fault, except for parentheses that hold something else
    besides a node: those are no construct at all. -/
def Opening.Faults (ts : TokenStream) (i : Nat) (error : SyntaxError) : Opening → Prop
  | .block =>
    (Delimiters.statements.read ts (.fresh (i + 1))).eval (verdict ts) = .error (.rejected error)
  | .string quote => Rule.restOfString ts quote ⟨i + 1, 0, some quote⟩ [] = .error error
  | .named _ body => verdict ts ⟨body, none⟩ = .error error
  | .misnamed => error = ⟨.invalidFunctionName (ts.describe? (i + 2)), i + 2⟩
  | .inline body => verdict ts ⟨body, none⟩ = .error error
  | .call _ place =>
    (Delimiters.arguments.read ts (.fresh place)).eval (verdict ts) = .error (.rejected error)
  | .word _ => False
  | .parenthesis => verdict ts ⟨i + 1, none⟩ = .error error ∨ ∃ inner,
      verdict ts ⟨i + 1, none⟩ = .ok inner ∧
      if ts.sees (ts.skipBlanks inner.cursor.token) .closeParen then
        ts.sees (ts.skipBlanks (ts.skipBlanks inner.cursor.token + 1)) .openParen = true ∧
          (Delimiters.arguments.read ts (.fresh (ts.skipBlanks
            (ts.skipBlanks inner.cursor.token + 1) + 1))).eval (verdict ts) =
              .error (.rejected error)
      else error = ⟨.unexpected (ts.describe? i), i⟩
  | .nothing => error = ⟨.unexpected (ts.describe? i), i⟩

/-- An opening tells what comes of a place, be it a node or a fault. -/
def Opening.Tells (ts : TokenStream) (start i : Nat) (found : Verdict) (opening : Opening) : Prop :=
  (∀ parsed, found = .ok parsed ↔ opening.Yields ts start i parsed) ∧
    ∀ error, found = .error error → opening.Faults ts i error

namespace Rule

variable {ts : TokenStream} (start : Nat)

theorem eval_blockAt (oracle : Oracle) (i : Nat) :
    (blockAt ts start (.fresh i)).eval oracle =
      if ts.sees i .openCurly then
        match (Delimiters.statements.read ts (.fresh (i + 1))).eval oracle with
        | .error refusal => .error refusal
        | .ok (statements, cursor) => .ok ⟨.block ⟨start, cursor.token⟩ statements, cursor⟩
      else .error .declined := by
  unfold blockAt
  rw [Cursor.fresh_token]
  split
  · rw [Attempt.eval_bind, Cursor.fresh_skip]
    cases (Delimiters.statements.read ts (.fresh (i + 1))).eval oracle <;> rfl
  · rfl

theorem eval_stringAt (oracle : Oracle) (i : Nat) :
    (stringAt ts start (.fresh i)).eval oracle = match ts.quoteAt? i with
      | none => .error .declined
      | some quote => match restOfString ts quote ⟨i + 1, 0, some quote⟩ [] with
        | .error error => .error (.rejected error)
        | .ok (tokens, cursor) => .ok ⟨.string ⟨start, cursor.token⟩ tokens, cursor⟩ := by
  unfold stringAt TokenStream.quoteAt?
  rw [Cursor.fresh_token]
  cases ts[i]? with
  | none => rfl
  | some token =>
    rw [Option.bind_some]
    dsimp only
    cases hquote : token.quote? with
    | none => rfl
    | some quote =>
      dsimp only
      rw [Cursor.fresh_advance_quote hquote]
      cases restOfString ts quote ⟨i + 1, 0, some quote⟩ [] <;> rfl

theorem eval_executionAt (oracle : Oracle) (i : Nat) :
    (executionAt ts start (.fresh i)).eval oracle = match oracle ⟨i, some .callables⟩ with
      | .error _ => .error .declined
      | .ok callee =>
        if ts.sees (ts.skipBlanks callee.cursor.token) .openParen then
          match (Delimiters.arguments.read ts
            (.fresh (ts.skipBlanks callee.cursor.token + 1))).eval oracle with
          | .error refusal => .error refusal
          | .ok (arguments, cursor) =>
            .ok ⟨.execution ⟨start, cursor.token⟩ callee.node arguments, cursor⟩
        else .error .declined := by
  rw [executionAt, Attempt.eval_bind, Attempt.eval_probe, Cursor.fresh_token]
  cases oracle ⟨i, some .callables⟩ with
  | error error => rfl
  | ok callee =>
    simp only [Except.mapError, Except.bind, Cursor.fresh_moveTo, Cursor.fresh_skipBlanks,
      Cursor.fresh_token, Cursor.fresh_skip]
    split
    · rw [Attempt.eval_bind]
      cases (Delimiters.arguments.read ts
        (.fresh (ts.skipBlanks callee.cursor.token + 1))).eval oracle <;> rfl
    · rfl

end Rule

section

variable {ts : TokenStream} {start i : Nat}

/-- A list never declines. -/
theorem Delimiters.eval_read_cases (ts : TokenStream) {delimiters : Delimiters}
    (hplain : delimiters.Plain) (oracle : Oracle) (i : Nat) :
    (∃ error, (delimiters.read ts (.fresh i)).eval oracle = .error (.rejected error)) ∨
      ∃ list, (delimiters.read ts (.fresh i)).eval oracle = .ok list := by
  rcases hread : (delimiters.read ts (.fresh i)).eval oracle with (_ | error) | list
  · exact absurd hread (delimiters.eval_items_ne_declined hplain oracle _ i [])
  · exact .inl ⟨error, rfl⟩
  · exact .inr ⟨list, rfl⟩

theorem Opening.tells_ok {opening : Opening} {parsed : Parsed}
    (hyields : ∀ other, opening.Yields ts start i other ↔ other = parsed) :
    opening.Tells ts start i (.ok parsed) := by
  refine ⟨fun other => ?_, fun _ herror => nomatch herror⟩
  rw [hyields, Except.ok.injEq, eq_comm]

theorem Opening.tells_error {opening : Opening} {error : SyntaxError}
    (hyields : ∀ other, ¬ opening.Yields ts start i other) (hfaults : opening.Faults ts i error) :
    opening.Tells ts start i (.error error) :=
  ⟨fun other => ⟨nofun, fun h => absurd h (hyields other)⟩, fun _ h => Except.error.inj h ▸ hfaults⟩

theorem tryRules_of_openCurly (hcurly : ts.sees i .openCurly = true) :
    (ts.opening i).Tells ts start i
      ((tryRules ts start (.fresh i) Rule.order).eval (verdict ts)) := by
  rw [TokenStream.opening_of_openCurly hcurly, Rule.order, eval_tryRules_cons, Rule.attempt,
    Rule.eval_blockAt, if_pos hcurly]
  obtain ⟨error, hread⟩ | ⟨list, hread⟩ :=
    Delimiters.eval_read_cases ts Delimiters.plain_statements (verdict ts) (i + 1)
  · rw [hread]
    exact Opening.tells_error (fun other => by simp [Opening.Yields, hread]) hread
  · rw [hread]
    exact Opening.tells_ok fun other => by simp [Opening.Yields, hread]

theorem tryRules_of_quote (hcurly : ts.sees i .openCurly = false) {quote : Quote}
    (hquote : ts.quoteAt? i = some quote) :
    (ts.opening i).Tells ts start i
      ((tryRules ts start (.fresh i) Rule.order).eval (verdict ts)) := by
  have hnot : ¬ ts.sees i .openCurly = true := Bool.eq_false_iff.mp hcurly
  rw [TokenStream.opening_of_quoteAt? hquote, Rule.order]
  simp only [eval_tryRules_cons, Rule.attempt, Rule.eval_blockAt, if_neg hnot, Rule.eval_stringAt,
    hquote]
  cases hrest : Rule.restOfString ts quote ⟨i + 1, 0, some quote⟩ [] with
  | error error =>
    exact Opening.tells_error (fun other => by simp [Opening.Yields, hrest]) hrest
  | ok rest => exact Opening.tells_ok fun other => by simp [Opening.Yields, hrest]

theorem tryRules_of_word {name : String} (hword : ts.wordAt? i = some name) :
    (ts.opening i).Tells ts start i
      ((tryRules ts start (.fresh i) Rule.order).eval (verdict ts)) := by
  have hnone (s : Symbol) : ¬ ts.sees i s = true := by
    rw [TokenStream.sees_of_wordAt? hword]
    exact Bool.false_ne_true
  rw [TokenStream.opening_of_wordAt? hword, Rule.order]
  simp only [eval_tryRules_cons, Rule.attempt, Rule.eval_blockAt, if_neg (hnone _),
    Rule.eval_stringAt, TokenStream.quoteAt?_of_wordAt? hword,
    Rule.eval_namedFunctionAt_of_word start hword, Rule.eval_inlineFunctionAt_of_word start hword,
    Rule.eval_executionAt, verdict_callables_of_word hword, Rule.eval_groupingAt,
    Rule.eval_identifierAt, hword, Cursor.fresh_token]
  obtain ⟨defined, body, hafter⟩ | hafter | ⟨body, hafter⟩ | ⟨hcall, hafter⟩ | ⟨hcall, hafter⟩ :=
    ts.afterWord_cases name (i + 1)
  · simp only [hafter, Rule.eval_namedBody]
    cases hbody : verdict ts ⟨body, none⟩ with
    | error error =>
      exact Opening.tells_error (fun other => by simp [Opening.Yields, hbody]) hbody
    | ok inner => exact Opening.tells_ok fun other => by simp [Opening.Yields, hbody]
  · simp only [hafter]
    exact Opening.tells_error (fun _ h => h) rfl
  · simp only [hafter]
    cases hbody : verdict ts ⟨body, none⟩ with
    | error error =>
      exact Opening.tells_error (fun other => by simp [Opening.Yields, hbody]) hbody
    | ok inner => exact Opening.tells_ok fun other => by simp [Opening.Yields, hbody]
  · simp only [hafter, hcall, if_true]
    obtain ⟨error, hread⟩ | ⟨list, hread⟩ := Delimiters.eval_read_cases ts
      Delimiters.plain_arguments (verdict ts) (ts.skipBlanks (i + 1) + 1)
    · rw [hread]
      exact Opening.tells_error (fun other => by simp [Opening.Yields, hread]) hread
    · rw [hread]
      exact Opening.tells_ok fun other => by simp [Opening.Yields, hread]
  · simp only [hafter, hcall, Bool.false_eq_true, if_false]
    exact Opening.tells_ok fun _ => Iff.rfl

theorem tryRules_of_openParen (hparen : ts.sees i .openParen = true) :
    (ts.opening i).Tells ts start i
      ((tryRules ts start (.fresh i) Rule.order).eval (verdict ts)) := by
  have hcurly : ¬ ts.sees i .openCurly = true := by
    rw [TokenStream.sees_eq_false hparen (by decide)]
    exact Bool.false_ne_true
  have hquote : ts.quoteAt? i = none := TokenStream.quoteAt?_of_sees hparen
  have hblank := TokenStream.skipBlanks_of_sees hparen rfl
  have hword := TokenStream.wordAt?_of_sees hparen
  rw [TokenStream.opening_of_openParen hparen, Rule.order]
  simp only [eval_tryRules_cons, Rule.attempt, Rule.eval_blockAt, if_neg hcurly,
    Rule.eval_stringAt, hquote, Rule.eval_namedFunctionAt_of_no_word start hblank hword,
    Rule.eval_inlineFunctionAt_of_no_word start hblank hword, Rule.eval_executionAt,
    verdict_callables_of_no_word (TokenStream.lt_size_of_sees hparen) hblank hword,
    Rule.eval_groupingAt, hparen, if_true, Rule.eval_identifierAt, hword, eval_tryRules_nil]
  cases hinner : verdict ts ⟨i + 1, none⟩ with
  | error error =>
    exact Opening.tells_error (fun other => by simp [Opening.Yields, hinner]) (.inl hinner)
  | ok inner =>
    cases hclose : ts.sees (ts.skipBlanks inner.cursor.token) .closeParen with
    | false =>
      simp only [hclose, Bool.false_eq_true, if_false, Cursor.fresh_token]
      refine Opening.tells_error (fun other => by simp [Opening.Yields, hinner, hclose]) ?_
      exact .inr ⟨inner, hinner, by simp [hclose]⟩
    | true =>
      simp only [hclose, if_true, Cursor.fresh_token]
      cases hcall : ts.sees (ts.skipBlanks (ts.skipBlanks inner.cursor.token + 1)) .openParen with
      | false =>
        simp only [Bool.false_eq_true, if_false]
        exact Opening.tells_ok fun other => by simp [Opening.Yields, hinner, hclose, hcall]
      | true =>
        obtain ⟨error, hread⟩ | ⟨⟨items, cursor⟩, hread⟩ := Delimiters.eval_read_cases ts
          Delimiters.plain_arguments (verdict ts)
          (ts.skipBlanks (ts.skipBlanks inner.cursor.token + 1) + 1)
        · simp only [hread, if_true]
          refine Opening.tells_error
            (fun other => by simp [Opening.Yields, hinner, hclose, hcall, hread]) ?_
          exact .inr ⟨inner, hinner, by simp [hclose, hcall, hread]⟩
        · simp only [hread, if_true]
          exact Opening.tells_ok fun other => by
            simp [Opening.Yields, hinner, hclose, hcall, hread]

theorem verdict_callables_ne_ok (hparen : ts.sees i .openParen = false)
    (hblank : ts.skipBlanks i = i) (hword : ts.wordAt? i = none) (callee : Parsed) :
    verdict ts ⟨i, some .callables⟩ ≠ .ok callee := by
  by_cases hlt : i < ts.size
  · rw [verdict_callables_of_no_word hlt hblank hword, Rule.eval_groupingAt, hparen]
    intro h
    cases h
  · rw [verdict_eq, Request.inquiry, if_neg hlt]
    intro h
    cases h

theorem tryRules_of_nothing (hblank : ts.skipBlanks i = i) (hcurly : ts.sees i .openCurly = false)
    (hquote : ts.quoteAt? i = none) (hword : ts.wordAt? i = none)
    (hparen : ts.sees i .openParen = false) :
    (ts.opening i).Tells ts start i
      ((tryRules ts start (.fresh i) Rule.order).eval (verdict ts)) := by
  have hopening : ts.opening i = .nothing := by
    rw [TokenStream.opening, hcurly, hquote, hword, hparen]
    rfl
  rw [hopening, Rule.order]
  simp only [eval_tryRules_cons, Rule.attempt, Rule.eval_blockAt, hcurly, Bool.false_eq_true,
    if_false, Rule.eval_stringAt, hquote, Rule.eval_namedFunctionAt_of_no_word start hblank hword,
    Rule.eval_inlineFunctionAt_of_no_word start hblank hword, Rule.eval_executionAt,
    Rule.eval_groupingAt, hparen, Rule.eval_identifierAt, hword, eval_tryRules_nil]
  cases hcallee : verdict ts ⟨i, some .callables⟩ with
  | error error => exact Opening.tells_error (fun _ h => h) rfl
  | ok callee => exact absurd hcallee (verdict_callables_ne_ok hparen hblank hword callee)

/-- The rules that are tried in turn come to what the opening tells at once. -/
theorem opening_tells_verdict (hlt : start < ts.size) :
    (ts.opening (ts.skipBlanks start)).Tells ts start (ts.skipBlanks start)
      (verdict ts ⟨start, none⟩) := by
  have hblank := ts.skipBlanks_skipBlanks start
  rw [verdict_eq, eval_inquiry_of_lt _ hlt]
  change Opening.Tells ts start (ts.skipBlanks start)
    ((tryRules ts start (.fresh (ts.skipBlanks start)) Rule.order).eval (verdict ts)) _
  cases hcurly : ts.sees (ts.skipBlanks start) .openCurly with
  | true => exact tryRules_of_openCurly hcurly
  | false =>
    cases hquote : ts.quoteAt? (ts.skipBlanks start) with
    | some quote => exact tryRules_of_quote hcurly hquote
    | none =>
      cases hword : ts.wordAt? (ts.skipBlanks start) with
      | some name => exact tryRules_of_word hword
      | none =>
        cases hparen : ts.sees (ts.skipBlanks start) .openParen with
        | true => exact tryRules_of_openParen hparen
        | false => exact tryRules_of_nothing hblank hcurly hquote hword hparen

theorem verdict_eq_ok_iff_yields {parsed : Parsed} (hlt : start < ts.size) :
    verdict ts ⟨start, none⟩ = .ok parsed ↔
      (ts.opening (ts.skipBlanks start)).Yields ts start (ts.skipBlanks start) parsed :=
  (opening_tells_verdict hlt).1 parsed

end

end CurlyScript
