import CurlyScript.Proofs.Grammar.Callee
import CurlyScript.Proofs.Grammar.Opening

namespace CurlyScript

namespace TokenStream

variable {ts : TokenStream} {i : Nat}

/-- Two symbols do not stand at one index. -/
theorem sees_eq_false {s t : Symbol} (hsees : ts.sees i s = true) (hne : s ≠ t) :
    ts.sees i t = false := by
  rw [Bool.eq_false_iff]
  intro h
  rw [sees_iff] at hsees h
  rw [hsees, Option.some.injEq, Token.symbol.injEq] at h
  exact hne h

theorem hasText_iff : ts.hasText i = true ↔ ∃ content, ts[i]? = some (.text content) := by
  rw [hasText]
  cases htoken : ts[i]? with
  | none => simp
  | some token => cases token <;> simp [Token.text?]

theorem sees_eq_false_of_hasText (htext : ts.hasText i = true) (s : Symbol) :
    ts.sees i s = false := by
  obtain ⟨content, hcontent⟩ := hasText_iff.mp htext
  rw [sees, hcontent]
  rfl

theorem skipBlanks_of_hasText (htext : ts.hasText i = true) : ts.skipBlanks i = i := by
  obtain ⟨content, hcontent⟩ := hasText_iff.mp htext
  exact skipBlanks_eq_self hcontent rfl

theorem skipBlanks_of_space (hspace : ts.sees i .space = true) :
    ts.skipBlanks i = ts.skipBlanks (i + 1) := by
  obtain ⟨hlt, htoken⟩ := Array.getElem?_eq_some_iff.mp (sees_iff.mp hspace)
  rw [skipBlanks, dif_pos hlt, htoken]
  exact if_pos rfl

theorem hasParameters_eq_false_of_space (hspace : ts.sees i .space = true) :
    ts.hasParameters i = false := by
  rw [hasParameters, sees_eq_false hspace (by decide), Bool.false_and]

theorem quoteAt?_of_wordAt? {name : String} (hword : ts.wordAt? i = some name) :
    ts.quoteAt? i = none := by
  rw [quoteAt?, (wordAt?_eq_some.mp hword).1]
  rfl

theorem sees_of_wordAt? {name : String} (hword : ts.wordAt? i = some name) (s : Symbol) :
    ts.sees i s = false := by
  rw [sees, (wordAt?_eq_some.mp hword).1]
  rfl

theorem quoteAt?_of_sees {s : Symbol} (hsees : ts.sees i s = true) :
    ts.quoteAt? i = s.quote? := by
  rw [quoteAt?, sees_iff.mp hsees]
  rfl

theorem opening_of_openCurly (hcurly : ts.sees i .openCurly = true) : ts.opening i = .block :=
  if_pos hcurly

theorem opening_of_quoteAt? {quote : Quote} (hquote : ts.quoteAt? i = some quote) :
    ts.opening i = .string quote := by
  have hcurly : ts.sees i .openCurly = false := by
    rw [Bool.eq_false_iff]
    intro h
    rw [quoteAt?_of_sees h] at hquote
    cases hquote
  rw [opening, hcurly, hquote]
  rfl

theorem opening_of_wordAt? {name : String} (hword : ts.wordAt? i = some name) :
    ts.opening i = ts.afterWord name (i + 1) := by
  rw [opening, sees_of_wordAt? hword, quoteAt?_of_wordAt? hword, hword]
  rfl

theorem opening_of_openParen (hparen : ts.sees i .openParen = true) :
    ts.opening i = .parenthesis := by
  rw [opening, sees_eq_false hparen (by decide), quoteAt?_of_sees hparen, wordAt?_of_sees hparen,
    hparen]
  rfl

/-- A name that is no type and begins no definition is called or stands on its own. -/
theorem afterWord_cases (ts : TokenStream) (name : String) (i : Nat) :
    (∃ defined body, ts.afterWord name i = .named defined body) ∨
      ts.afterWord name i = .misnamed ∨ (∃ body, ts.afterWord name i = .inline body) ∨
      (ts.sees (ts.skipBlanks i) .openParen = true ∧
        ts.afterWord name i = .call name (ts.skipBlanks i + 1)) ∨
      (ts.sees (ts.skipBlanks i) .openParen = false ∧ ts.afterWord name i = .word name) := by
  generalize hafter : ts.afterWord name i = opening
  unfold afterWord at hafter
  split at hafter
  · next htyped =>
    rw [Bool.and_eq_true] at htyped
    split at hafter
    · exact .inr (.inl hafter.symm)
    · split at hafter
      · exact .inl ⟨_, _, hafter.symm⟩
      · refine .inr (.inr (.inr (.inr ⟨?_, hafter.symm⟩)))
        rw [skipBlanks_of_space htyped.1, skipBlanks_of_hasText htyped.2]
        exact sees_eq_false_of_hasText htyped.2 _
  · split at hafter
    · exact .inl ⟨_, _, hafter.symm⟩
    · split at hafter
      · exact .inr (.inr (.inl ⟨_, hafter.symm⟩))
      · split at hafter
        · next hcall => exact .inr (.inr (.inr (.inl ⟨hcall, hafter.symm⟩)))
        · next hcall => exact .inr (.inr (.inr (.inr ⟨Bool.eq_false_iff.mpr hcall, hafter.symm⟩)))

end TokenStream

namespace Rule

variable {ts : TokenStream} (start : Nat)

theorem eval_parameterList (oracle : Oracle) (i : Nat) :
    (parameterList ts (.fresh i)).eval oracle =
      if ts.hasParameters i then .ok (.fresh (i + 2)) else .error .declined := by
  rw [parameterList, Attempt.eval_bind, Attempt.eval_eat, Cursor.fresh_token,
    TokenStream.hasParameters]
  cases ts.sees i .openParen with
  | false => rfl
  | true =>
    rw [if_pos rfl, Except.bind, Attempt.eval_eat, Cursor.advance_token, Cursor.fresh_token]
    rfl

theorem eval_nameAfterType (i : Nat) :
    (nameAfterType ts (.fresh i)).eval (verdict ts) =
      if ts.hasText i then
        match ts.wordAt? i with
        | none => .error (.rejected ⟨.invalidFunctionName (ts.describe? i), i⟩)
        | some name => .ok (name, .fresh (i + 1))
      else .error .declined := by
  unfold nameAfterType
  rw [Cursor.fresh_token]
  split
  · next content hcontent =>
    have htext : ts.hasText i = true := TokenStream.hasText_iff.mpr ⟨content, hcontent⟩
    have hverdict := verdict_types (TokenStream.skipBlanks_of_hasText htext)
    rw [if_pos htext, Attempt.eval_bind, Attempt.eval_verdictOn, Except.bind]
    rw [NodeFilter.types] at hverdict
    rw [hverdict]
    cases ts.wordAt? i <;> rfl
  · next hother =>
    rw [if_neg]
    · rfl
    · rw [TokenStream.hasText_iff]
      rintro ⟨content, hcontent⟩
      exact hother content hcontent

theorem eval_namedBody (oracle : Oracle) (name : String) (i : Nat) :
    (namedBody start name (.fresh i)).eval oracle =
      match oracle ⟨i, none⟩ with
      | .error error => .error (.rejected error)
      | .ok body =>
        .ok ⟨.namedFunction ⟨start, body.cursor.token⟩ name body.node,
          .fresh body.cursor.token⟩ := by
  rw [namedBody, Attempt.eval_bind, Attempt.eval_require, Cursor.fresh_token]
  cases oracle ⟨i, none⟩ with
  | error error => rfl
  | ok body => simp only [Except.mapError, Except.bind, Cursor.fresh_moveTo, Cursor.fresh_token,
      Attempt.eval_pure]

/-- With a type in front, the name and the parameters have to follow. -/
theorem eval_namedFunctionAt_of_space {i : Nat} {name : String} (hword : ts.wordAt? i = some name)
    (hspace : ts.sees (i + 1) .space = true) :
    (namedFunctionAt ts start (.fresh i)).eval (verdict ts) =
      if ts.hasText (i + 2) then
        match ts.wordAt? (i + 2) with
        | none => .error (.rejected ⟨.invalidFunctionName (ts.describe? (i + 2)), i + 2⟩)
        | some defined =>
          if ts.hasParameters (i + 3) then
            (namedBody start defined (.fresh (ts.skipBlanks (i + 5)))).eval (verdict ts)
          else .error .declined
      else .error .declined := by
  have hblank : (Cursor.fresh (i + 1)).advance (.symbol .space) = .fresh (i + 2) :=
    Cursor.fresh_advance_symbol rfl rfl (i + 1)
  rw [namedFunctionAt, Attempt.eval_bind, Attempt.eval_probe, Cursor.fresh_token,
    verdict_types (TokenStream.skipBlanks_of_wordAt? hword), hword]
  simp only [Except.mapError, Except.bind, Cursor.fresh_moveTo, Cursor.fresh_token,
    Node.identifier?, hblank, hspace, if_true, Attempt.eval_bind, eval_nameAfterType]
  cases ts.hasText (i + 2) with
  | false => rfl
  | true =>
    simp only [if_true]
    cases ts.wordAt? (i + 2) with
    | none => rfl
    | some defined =>
      simp only [eval_parameterList]
      cases ts.hasParameters (i + 2 + 1) with
      | false => rfl
      | true => simp only [if_true, Cursor.fresh_skipBlanks]

/-- Without a type, only a block makes a body. -/
theorem eval_namedFunctionAt_of_no_space {i : Nat} {name : String}
    (hword : ts.wordAt? i = some name) (hspace : ts.sees (i + 1) .space = false) :
    (namedFunctionAt ts start (.fresh i)).eval (verdict ts) =
      if ts.hasParameters (i + 1) && ts.sees (ts.skipBlanks (i + 3)) .openCurly then
        (namedBody start name (.fresh (ts.skipBlanks (i + 3)))).eval (verdict ts)
      else .error .declined := by
  rw [namedFunctionAt, Attempt.eval_bind, Attempt.eval_probe, Cursor.fresh_token,
    verdict_types (TokenStream.skipBlanks_of_wordAt? hword), hword]
  simp only [Except.mapError, Except.bind, Cursor.fresh_moveTo, Cursor.fresh_token,
    Node.identifier?, hspace, Bool.false_eq_true, if_false, Attempt.eval_bind, eval_parameterList]
  cases ts.hasParameters (i + 1) with
  | false => rfl
  | true =>
    simp only [if_true, Bool.true_and, Cursor.fresh_skipBlanks, Cursor.fresh_token]
    cases ts.sees (ts.skipBlanks (i + 1 + 2)) .openCurly <;> rfl

/-- With a name in front, whether a function is named depends on what comes after the name. -/
theorem eval_namedFunctionAt_of_word {i : Nat} {name : String} (hword : ts.wordAt? i = some name) :
    (namedFunctionAt ts start (.fresh i)).eval (verdict ts) =
      match ts.afterWord name (i + 1) with
      | .named defined body => (namedBody start defined (.fresh body)).eval (verdict ts)
      | .misnamed => .error (.rejected ⟨.invalidFunctionName (ts.describe? (i + 2)), i + 2⟩)
      | _ => .error .declined := by
  unfold TokenStream.afterWord
  cases hspace : ts.sees (i + 1) .space with
  | true =>
    rw [eval_namedFunctionAt_of_space start hword hspace,
      TokenStream.hasParameters_eq_false_of_space hspace]
    simp only [Bool.true_and, Bool.false_and, Bool.false_eq_true, if_false]
    cases ts.hasText (i + 2) with
    | false => cases ts.sees (ts.skipBlanks (i + 1)) .openParen <;> rfl
    | true =>
      simp only [if_true]
      cases ts.wordAt? (i + 2) with
      | none => rfl
      | some defined => cases ts.hasParameters (i + 3) <;> rfl
  | false =>
    rw [eval_namedFunctionAt_of_no_space start hword hspace]
    simp only [Bool.false_and, Bool.false_eq_true, if_false]
    cases ts.hasParameters (i + 1) && ts.sees (ts.skipBlanks (i + 3)) .openCurly with
    | true => rfl
    | false =>
      cases ts.hasParameters (i + 1) && ts.sees (ts.skipBlanks (i + 3)) .equal &&
          ts.sees (ts.skipBlanks (i + 3) + 1) .rightChevron with
      | true => rfl
      | false => cases ts.sees (ts.skipBlanks (i + 1)) .openParen <;> rfl

/-- An arrow has to follow the parameters. -/
theorem eval_inlineFunctionAt_after_word {i : Nat} {name : String}
    (hword : ts.wordAt? i = some name) :
    (inlineFunctionAt ts start (.fresh i)).eval (verdict ts) =
      if ts.hasParameters (i + 1) && ts.sees (ts.skipBlanks (i + 3)) .equal &&
          ts.sees (ts.skipBlanks (i + 3) + 1) .rightChevron then
        match verdict ts ⟨ts.skipBlanks (ts.skipBlanks (i + 3) + 2), none⟩ with
        | .error error => .error (.rejected error)
        | .ok body =>
          .ok ⟨.inlineFunction ⟨start, body.cursor.token⟩ body.node, .fresh body.cursor.token⟩
      else .error .declined := by
  rw [inlineFunctionAt, Attempt.eval_bind, Attempt.eval_probe, Cursor.fresh_token,
    verdict_types (TokenStream.skipBlanks_of_wordAt? hword), hword]
  simp only [Except.mapError, Except.bind, Cursor.fresh_moveTo, Cursor.fresh_token]
  rw [Attempt.eval_bind, eval_parameterList]
  cases ts.hasParameters (i + 1) with
  | false => rfl
  | true =>
    simp only [if_true, Bool.true_and, Except.bind, Cursor.fresh_skipBlanks]
    rw [Attempt.eval_bind, Attempt.eval_eat, Cursor.fresh_token]
    cases ts.sees (ts.skipBlanks (i + 1 + 2)) .equal with
    | false => rfl
    | true =>
      rw [if_pos rfl, Except.bind, Attempt.eval_bind, Attempt.eval_eat,
        Cursor.fresh_advance_symbol rfl rfl, Cursor.fresh_token]
      cases ts.sees (ts.skipBlanks (i + 1 + 2) + 1) .rightChevron with
      | false => rfl
      | true =>
        rw [if_pos rfl, Except.bind, Attempt.eval_bind, Attempt.eval_require,
          Cursor.fresh_advance_symbol rfl rfl, Cursor.fresh_skipBlanks, Cursor.fresh_token]
        simp only [Bool.true_and, if_true]
        cases verdict ts ⟨ts.skipBlanks (ts.skipBlanks (i + 1 + 2) + 1 + 1), none⟩ with
        | error error => rfl
        | ok body =>
          simp only [Except.mapError, Except.bind, Cursor.fresh_moveTo, Cursor.fresh_token,
            Attempt.eval_pure]

/-- Only an arrow after its parameters makes a function an inline one, and that is never a body. -/
theorem eval_inlineFunctionAt_of_word {i : Nat} {name : String}
    (hword : ts.wordAt? i = some name) :
    (inlineFunctionAt ts start (.fresh i)).eval (verdict ts) =
      match ts.afterWord name (i + 1) with
      | .inline body => match verdict ts ⟨body, none⟩ with
        | .error error => .error (.rejected error)
        | .ok parsed =>
          .ok ⟨.inlineFunction ⟨start, parsed.cursor.token⟩ parsed.node, .fresh parsed.cursor.token⟩
      | _ => .error .declined := by
  rw [eval_inlineFunctionAt_after_word start hword]
  unfold TokenStream.afterWord
  cases htyped : ts.sees (i + 1) .space && ts.hasText (i + 2) with
  | true =>
    rw [TokenStream.hasParameters_eq_false_of_space (Bool.and_eq_true_iff.mp htyped).1]
    cases ts.wordAt? (i + 2) with
    | none => rfl
    | some defined => cases ts.hasParameters (i + 2 + 1) <;> rfl
  | false =>
    cases hcurly : ts.sees (ts.skipBlanks (i + 3)) .openCurly with
    | true =>
      rw [TokenStream.sees_eq_false hcurly (by decide)]
      cases ts.hasParameters (i + 1) with
      | true => rfl
      | false => cases ts.sees (ts.skipBlanks (i + 1)) .openParen <;> rfl
    | false =>
      rw [Bool.and_false, if_neg Bool.false_ne_true, if_neg Bool.false_ne_true]
      cases ts.hasParameters (i + 1) && ts.sees (ts.skipBlanks (i + 3)) .equal &&
          ts.sees (ts.skipBlanks (i + 3) + 1) .rightChevron with
      | true => rfl
      | false => cases ts.sees (ts.skipBlanks (i + 1)) .openParen <;> rfl

end Rule

end CurlyScript
