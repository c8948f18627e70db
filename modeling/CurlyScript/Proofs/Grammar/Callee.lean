import CurlyScript.Proofs.Grammar.Word

namespace CurlyScript

section

variable {ts : TokenStream} {i : Nat}

/-- What is no type cannot begin a definition. -/
theorem Rule.eval_namedFunctionAt_of_no_word (start : Nat) (hblank : ts.skipBlanks i = i)
    (hword : ts.wordAt? i = none) :
    (namedFunctionAt ts start (.fresh i)).eval (verdict ts) = .error .declined := by
  rw [namedFunctionAt, Attempt.eval_bind, Attempt.eval_probe, Cursor.fresh_token,
    verdict_types hblank, hword]
  rfl

theorem Rule.asks_namedFunctionAt_of_no_word (start : Nat) (hblank : ts.skipBlanks i = i)
    (hword : ts.wordAt? i = none) :
    (namedFunctionAt ts start (.fresh i)).asks (verdict ts) = [⟨i, some .types⟩] := by
  rw [namedFunctionAt, Attempt.asks_bind, Attempt.asks_probe, Attempt.eval_probe,
    Cursor.fresh_token, verdict_types hblank, hword]
  rfl

theorem Rule.eval_inlineFunctionAt_of_no_word (start : Nat) (hblank : ts.skipBlanks i = i)
    (hword : ts.wordAt? i = none) :
    (inlineFunctionAt ts start (.fresh i)).eval (verdict ts) = .error .declined := by
  rw [inlineFunctionAt, Attempt.eval_bind, Attempt.eval_probe, Cursor.fresh_token,
    verdict_types hblank, hword]
  rfl

theorem Rule.asks_inlineFunctionAt_of_no_word (start : Nat) (hblank : ts.skipBlanks i = i)
    (hword : ts.wordAt? i = none) :
    (inlineFunctionAt ts start (.fresh i)).asks (verdict ts) = [⟨i, some .types⟩] := by
  rw [inlineFunctionAt, Attempt.asks_bind, Attempt.asks_probe, Attempt.eval_probe,
    Cursor.fresh_token, verdict_types hblank, hword]
  rfl

/-- What parentheses group is the node after the opening one, if the closing one follows it. -/
theorem Rule.eval_groupingAt (oracle : Oracle) (i : Nat) :
    (groupingAt ts (.fresh i)).eval oracle =
      if ts.sees i .openParen then
        match oracle ⟨i + 1, none⟩ with
        | .error error => .error (.rejected error)
        | .ok inner =>
          if ts.sees (ts.skipBlanks inner.cursor.token) .closeParen then
            .ok ⟨inner.node, .fresh (ts.skipBlanks inner.cursor.token + 1)⟩
          else .error .declined
      else .error .declined := by
  rw [groupingAt, Attempt.eval_bind, Attempt.eval_eat, Cursor.fresh_token]
  split
  · rw [Except.bind, Attempt.eval_bind, Attempt.eval_require, Cursor.advance_token,
      Cursor.fresh_token]
    cases oracle ⟨i + 1, none⟩ with
    | error error => rfl
    | ok inner =>
      rw [Except.mapError, Except.bind, Attempt.eval_bind, Attempt.eval_eat]
      simp only [Cursor.skipBlanks_token, Cursor.moveTo_token]
      split <;> rfl
  · rfl

theorem Rule.eval_groupingAt_eq_ok_iff {oracle : Oracle} {parsed : Parsed} :
    (groupingAt ts (.fresh i)).eval oracle = .ok parsed ↔
      ts.sees i .openParen = true ∧ ∃ inner, oracle ⟨i + 1, none⟩ = .ok inner ∧
        ts.sees (ts.skipBlanks inner.cursor.token) .closeParen = true ∧
          parsed = ⟨inner.node, .fresh (ts.skipBlanks inner.cursor.token + 1)⟩ := by
  rw [eval_groupingAt]
  cases ts.sees i .openParen with
  | false => simp
  | true =>
    cases oracle ⟨i + 1, none⟩ with
    | error error => simp
    | ok inner =>
      simp only [if_true, true_and, Except.ok.injEq, exists_eq_left']
      split
      · next hclose => rw [Except.ok.injEq, and_iff_right hclose, eq_comm]
      · next hclose => simp [hclose]

theorem Rule.asks_groupingAt (oracle : Oracle) (i : Nat) :
    (groupingAt ts (.fresh i)).asks oracle =
      if ts.sees i .openParen then [⟨i + 1, none⟩] else [] := by
  rw [groupingAt, Attempt.asks_bind, Attempt.asks_eat, Attempt.eval_eat, Cursor.fresh_token]
  split
  · simp only [Except.toOption, Option.elim, List.nil_append]
    rw [Attempt.asks_bind, Attempt.asks_require, Attempt.eval_require]
    cases oracle ⟨((Cursor.fresh i).advance (.symbol .openParen)).token, none⟩ with
    | error error => rfl
    | ok inner =>
      simp only [Except.mapError, Except.toOption, Option.elim, Attempt.asks_bind,
        Attempt.asks_eat, Attempt.eval_eat]
      split <;> rfl
  · rfl

/-- A name can be called. -/
theorem verdict_callables_of_word {name : String} (hword : ts.wordAt? i = some name) :
    verdict ts ⟨i, some .callables⟩ = .ok ⟨.identifier ⟨i, i + 1⟩ name, .fresh (i + 1)⟩ := by
  have hlt := (Array.getElem?_eq_some_iff.mp (TokenStream.wordAt?_eq_some.mp hword).1).1
  rw [verdict_eq, eval_inquiry_of_lt _ hlt, Rule.candidates_callables, eval_tryRules_cons,
    Rule.attempt, TokenStream.skipBlanks_of_wordAt? hword, Rule.eval_identifierAt, hword]

theorem asks_callables_of_word {name : String} (hword : ts.wordAt? i = some name) :
    (Request.inquiry ts ⟨i, some .callables⟩).asks (verdict ts) = [] := by
  have hlt := (Array.getElem?_eq_some_iff.mp (TokenStream.wordAt?_eq_some.mp hword).1).1
  rw [asks_inquiry_of_lt _ hlt, Rule.candidates_callables, asks_tryRules_cons, Rule.attempt,
    TokenStream.skipBlanks_of_wordAt? hword, Rule.asks_identifierAt, Rule.eval_identifierAt, hword]
  rfl

/-- Where no name stands, only parentheses can be called, whatever they hold. -/
theorem verdict_callables_of_no_word (hlt : i < ts.size) (hblank : ts.skipBlanks i = i)
    (hword : ts.wordAt? i = none) :
    verdict ts ⟨i, some .callables⟩ =
      match (Rule.groupingAt ts (.fresh i)).eval (verdict ts) with
      | .ok parsed => .ok parsed
      | .error .declined => .error ⟨.unexpected (ts.describe? i), i⟩
      | .error (.rejected error) => .error error := by
  rw [verdict_eq, eval_inquiry_of_lt _ hlt, Rule.candidates_callables, hblank]
  simp only [eval_tryRules_cons, Rule.attempt, Rule.eval_identifierAt, hword,
    Rule.eval_namedFunctionAt_of_no_word i hblank hword,
    Rule.eval_inlineFunctionAt_of_no_word i hblank hword]
  rfl

theorem asks_callables_of_no_word (hlt : i < ts.size) (hblank : ts.skipBlanks i = i)
    (hword : ts.wordAt? i = none) :
    (Request.inquiry ts ⟨i, some .callables⟩).asks (verdict ts) =
      ⟨i, some .types⟩ :: ⟨i, some .types⟩ ::
        if ts.sees i .openParen then [⟨i + 1, none⟩] else [] := by
  have hnil : (tryRules ts i (.fresh i) []).asks (verdict ts) = [] := rfl
  rw [asks_inquiry_of_lt _ hlt, Rule.candidates_callables, hblank]
  simp only [asks_tryRules_cons, Rule.attempt, Rule.eval_identifierAt, Rule.asks_identifierAt,
    hword, Rule.eval_namedFunctionAt_of_no_word i hblank hword,
    Rule.asks_namedFunctionAt_of_no_word i hblank hword,
    Rule.eval_inlineFunctionAt_of_no_word i hblank hword,
    Rule.asks_inlineFunctionAt_of_no_word i hblank hword, Rule.asks_groupingAt, hnil]
  rcases (Rule.groupingAt ts (.fresh i)).eval (verdict ts) with (_ | _) | _
  all_goals simp

end

end CurlyScript
