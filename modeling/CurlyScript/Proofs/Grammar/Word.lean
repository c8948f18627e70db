import CurlyScript.Proofs.Session.Verdict

namespace CurlyScript

namespace TokenStream

variable {ts : TokenStream} {i : Nat}

theorem skipBlanks_skipBlanks (ts : TokenStream) (i : Nat) :
    ts.skipBlanks (ts.skipBlanks i) = ts.skipBlanks i := by
  fun_induction skipBlanks ts i with
  | case1 i hlt hblank ih => exact ih
  | case2 i hlt hblank => rw [skipBlanks, dif_pos hlt, if_neg hblank]
  | case3 i hge => rw [skipBlanks, dif_neg hge]

theorem skipBlanks_eq_self {token : Token} (htoken : ts[i]? = some token)
    (hblank : token.isWhitespace = false) : ts.skipBlanks i = i := by
  obtain ⟨hlt, rfl⟩ := Array.getElem?_eq_some_iff.mp htoken
  rw [skipBlanks, dif_pos hlt, if_neg (by rw [hblank]; exact Bool.false_ne_true)]

/-- The name that stands at an index. -/
def wordAt? (ts : TokenStream) (i : Nat) : Option String :=
  match ts[i]? with
  | some (.text content) => if isWord content then some content else none
  | _ => none

theorem wordAt?_eq_some {name : String} :
    ts.wordAt? i = some name ↔ ts[i]? = some (.text name) ∧ isWord name = true := by
  unfold wordAt?
  split
  · next content hcontent =>
    rw [hcontent]
    by_cases hword : isWord content = true
    · rw [if_pos hword, Option.some.injEq, Option.some.injEq, Token.text.injEq]
      exact ⟨fun h => ⟨h, h ▸ hword⟩, fun h => h.1⟩
    · rw [if_neg hword, Option.some.injEq, Token.text.injEq]
      constructor
      · intro h
        cases h
      · rintro ⟨rfl, h⟩
        exact absurd h hword
  · next hother =>
    refine ⟨fun h => (nomatch h), fun h => ?_⟩
    exact absurd h.1 (hother name)

theorem skipBlanks_of_wordAt? {name : String} (hword : ts.wordAt? i = some name) :
    ts.skipBlanks i = i :=
  skipBlanks_eq_self (wordAt?_eq_some.mp hword).1 rfl

theorem skipBlanks_of_sees {s : Symbol} (hsees : ts.sees i s = true)
    (hblank : s.isWhitespace = false) : ts.skipBlanks i = i := by
  refine skipBlanks_eq_self (sees_iff.mp hsees) ?_
  simp [Token.isWhitespace, Token.kind, hblank]

theorem wordAt?_of_sees {s : Symbol} (hsees : ts.sees i s = true) : ts.wordAt? i = none := by
  rw [wordAt?, sees_iff.mp hsees]

end TokenStream

namespace Rule

variable (ts : TokenStream) (oracle : Oracle) (start i : Nat)

theorem asks_identifierAt (cursor : Cursor) : (identifierAt ts start cursor).asks oracle = [] := by
  unfold identifierAt
  split
  · split <;> rfl
  · rfl

theorem eval_identifierAt :
    (identifierAt ts start (.fresh i)).eval oracle = match ts.wordAt? i with
      | some name => .ok ⟨.identifier ⟨start, i + 1⟩ name, .fresh (i + 1)⟩
      | none => .error .declined := by
  unfold identifierAt TokenStream.wordAt?
  rw [Cursor.fresh_token]
  cases htoken : ts[i]? with
  | none => rfl
  | some token =>
    cases token with
    | text content =>
      by_cases hword : isWord content = true
      · simp [hword]
      · simp [hword]
    | symbol s => rfl

end Rule

theorem eval_inquiry_of_lt {ts : TokenStream} {request : Request} (oracle : Oracle)
    (hlt : request.start < ts.size) :
    (request.inquiry ts).eval oracle =
      (tryRules ts request.start (.fresh (ts.skipBlanks request.start))
        (Rule.candidates request.filter)).eval oracle := by
  rw [Request.inquiry, if_pos hlt]
  rfl

theorem asks_inquiry_of_lt {ts : TokenStream} {request : Request} (oracle : Oracle)
    (hlt : request.start < ts.size) :
    (request.inquiry ts).asks oracle =
      (tryRules ts request.start (.fresh (ts.skipBlanks request.start))
        (Rule.candidates request.filter)).asks oracle := by
  rw [Request.inquiry, if_pos hlt]
  rfl

theorem asks_inquiry_of_ge {ts : TokenStream} {request : Request} (oracle : Oracle)
    (hge : ts.size ≤ request.start) : (request.inquiry ts).asks oracle = [] := by
  rw [Request.inquiry, if_neg (by omega)]
  split <;> rfl

theorem asks_inquiry_types (ts : TokenStream) (oracle : Oracle) (i : Nat) :
    (Request.inquiry ts ⟨i, some .types⟩).asks oracle = [] := by
  by_cases hlt : i < ts.size
  · rw [asks_inquiry_of_lt oracle hlt, Rule.candidates_types, asks_tryRules_cons]
    rw [Rule.attempt, Rule.asks_identifierAt, Rule.eval_identifierAt]
    split <;> rfl
  · exact asks_inquiry_of_ge oracle (Nat.le_of_not_lt hlt)

/-- What may name a type is a word and nothing else. -/
theorem verdict_types {ts : TokenStream} {i : Nat} (hblank : ts.skipBlanks i = i) :
    verdict ts ⟨i, some .types⟩ = match ts.wordAt? i with
      | some name => .ok ⟨.identifier ⟨i, i + 1⟩ name, .fresh (i + 1)⟩
      | none => .error ⟨.unexpected (ts.describe? i), i⟩ := by
  rw [verdict_eq]
  by_cases hlt : i < ts.size
  · rw [eval_inquiry_of_lt _ hlt, Rule.candidates_types, eval_tryRules_cons, Rule.attempt,
      Rule.eval_identifierAt, hblank]
    cases ts.wordAt? i <;> rfl
  · have hnone : ts[i]? = none := Array.getElem?_eq_none (Nat.le_of_not_lt hlt)
    rw [Request.inquiry, if_neg hlt, TokenStream.wordAt?, TokenStream.describe?, hnone]
    rfl

end CurlyScript
