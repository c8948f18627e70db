import CurlyScript.Proofs.Inquiry.Oracle

namespace CurlyScript

section

variable {oracle : Oracle} {ts : TokenStream} {start : Nat} {cursor : Cursor} {parsed : Parsed}
  {rule : Rule} {rules before after rest : List Rule}

/-- Rules that decline leave the choice to those behind them. -/
theorem eval_tryRules_append
    (hdeclined : ∀ rule ∈ before, (rule.attempt ts start cursor).eval oracle = .error .declined) :
    (tryRules ts start cursor (before ++ rest)).eval oracle =
      (tryRules ts start cursor rest).eval oracle := by
  induction before with
  | nil => rfl
  | cons rule before ih =>
    rw [List.forall_mem_cons] at hdeclined
    rw [List.cons_append, eval_tryRules_cons, hdeclined.1]
    exact ih hdeclined.2

theorem asks_tryRules_append
    (hdeclined : ∀ rule ∈ before, (rule.attempt ts start cursor).eval oracle = .error .declined) :
    (tryRules ts start cursor (before ++ rest)).asks oracle =
      before.flatMap (fun rule => (rule.attempt ts start cursor).asks oracle) ++
        (tryRules ts start cursor rest).asks oracle := by
  induction before with
  | nil => rfl
  | cons rule before ih =>
    rw [List.forall_mem_cons] at hdeclined
    rw [List.cons_append, asks_tryRules_cons, hdeclined.1, List.flatMap_cons, List.append_assoc]
    exact congrArg _ (ih hdeclined.2)

/-- A node is read by the first rule that does not decline. -/
theorem eval_tryRules_eq_ok_iff :
    (tryRules ts start cursor rules).eval oracle = .ok parsed ↔
      ∃ before rule after, rules = before ++ rule :: after ∧
        (∀ other ∈ before, (other.attempt ts start cursor).eval oracle = .error .declined) ∧
        (rule.attempt ts start cursor).eval oracle = .ok parsed := by
  constructor
  · intro heval
    induction rules with
    | nil => cases heval
    | cons rule rest ih =>
      rw [eval_tryRules_cons] at heval
      split at heval
      · next hmatched =>
        obtain rfl := Except.ok.inj heval
        exact ⟨[], rule, rest, rfl, List.forall_mem_nil _, hmatched⟩
      · next hdeclined =>
        obtain ⟨before, later, after, rfl, hbefore, hmatched⟩ := ih heval
        exact ⟨rule :: before, later, after, rfl, List.forall_mem_cons.mpr ⟨hdeclined, hbefore⟩,
          hmatched⟩
      · cases heval
  · rintro ⟨before, rule, after, rfl, hbefore, hmatched⟩
    rw [eval_tryRules_append hbefore, eval_tryRules_cons, hmatched]

/-- Behind the rule that matches nothing is asked. -/
theorem asks_tryRules_of_matched
    (hdeclined : ∀ rule ∈ before, (rule.attempt ts start cursor).eval oracle = .error .declined)
    (hmatched : (rule.attempt ts start cursor).eval oracle = .ok parsed) :
    (tryRules ts start cursor (before ++ rule :: after)).asks oracle =
      before.flatMap (fun rule => (rule.attempt ts start cursor).asks oracle) ++
        (rule.attempt ts start cursor).asks oracle := by
  rw [asks_tryRules_append hdeclined, asks_tryRules_cons, hmatched, List.append_nil]

end

end CurlyScript
