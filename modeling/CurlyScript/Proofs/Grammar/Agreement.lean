import CurlyScript.Proofs.Grammar.Lookahead
import CurlyScript.Proofs.Session.Limit

namespace CurlyScript

namespace TokenStream

variable {ts : TokenStream} {i : Nat}

theorem lt_size_of_opening (hopening : ts.opening i ≠ .nothing) : i < ts.size := by
  by_cases hlt : i < ts.size
  · exact hlt
  · have hnone : ts[i]? = none := Array.getElem?_eq_none (Nat.le_of_not_lt hlt)
    refine absurd ?_ hopening
    simp only [opening, sees, quoteAt?, wordAt?, hnone]
    rfl

/-- The parts of what begins with a name lie behind the name. -/
theorem lt_of_afterWord {name : String} {place : Nat}
    (hplace : (ts.afterWord name i).place? = some place) : i < place := by
  have hskip := ts.le_skipBlanks i
  have hskip₂ := ts.le_skipBlanks (i + 2)
  have hskip₄ := ts.le_skipBlanks (i + 4)
  have hbody := ts.le_skipBlanks (ts.skipBlanks (i + 2) + 2)
  unfold afterWord at hplace
  repeat' split at hplace
  all_goals simp only [Opening.place?, Option.some.injEq, reduceCtorEq] at hplace
  all_goals omega

theorem lt_of_opening {place : Nat} (hplace : (ts.opening i).place? = some place) : i < place := by
  unfold opening at hplace
  split at hplace
  · cases hplace
  · split at hplace
    · cases hplace
    · split at hplace
      · exact Nat.lt_of_succ_lt (lt_of_afterWord hplace)
      · split at hplace <;> cases hplace

end TokenStream

section

variable {ts : TokenStream} {start i : Nat}

theorem Delimiters.eval_read_eq_ok_iff {delimiters : Delimiters} (hplain : delimiters.Plain)
    (hagrees : ∀ j, i ≤ j → Agrees ts j) (list : List Node × Cursor) :
    (delimiters.read ts (.fresh i)).eval (verdict ts) = .ok list ↔
      ∃ nodes stop, ReadsList ts delimiters i nodes stop ∧ list = (nodes, .fresh stop) := by
  rw [read, Cursor.fresh_token]
  exact eval_items_eq_ok_iff hplain hagrees (Nat.le_refl _) [] list

theorem reads_of_ge (hge : ts.size ≤ start) {node : Node} {stop : Nat} :
    Reads ts start node stop ↔ node = .empty ⟨0, ts.size⟩ ∧ stop = start := by
  have hnothing : ts.opening (ts.skipBlanks start) = .nothing := by
    refine Classical.byContradiction fun hopening => ?_
    have hlt := TokenStream.lt_size_of_opening hopening
    have hskip := ts.le_skipBlanks start
    omega
  constructor
  · intro hreads
    cases hreads with
    | empty => exact ⟨rfl, rfl⟩
    | _ => simp_all
  · rintro ⟨rfl, rfl⟩
    exact .empty hge

theorem agrees_of_ge (hge : ts.size ≤ start) : Agrees ts start := by
  intro parsed
  rw [verdict_eq, Request.inquiry, if_neg (Nat.not_lt.mpr hge)]
  simp only [reads_of_ge hge]
  constructor
  · intro h
    exact ⟨_, _, ⟨rfl, rfl⟩, (Except.ok.inj h).symm⟩
  · rintro ⟨_, _, ⟨rfl, rfl⟩, rfl⟩
    rfl

theorem reads_of_yields (hlater : ∀ j, start < j → Agrees ts j) {parsed : Parsed}
    (hyields : (ts.opening (ts.skipBlanks start)).Yields ts start (ts.skipBlanks start) parsed) :
    ∃ node stop, Reads ts start node stop ∧ parsed = ⟨node, .fresh stop⟩ := by
  have hskip := ts.le_skipBlanks start
  cases hopening : ts.opening (ts.skipBlanks start) with
  | block =>
    rw [hopening] at hyields
    obtain ⟨list, hread, rfl⟩ := hyields
    obtain ⟨nodes, stop, hlist, rfl⟩ := (Delimiters.eval_read_eq_ok_iff
      Delimiters.plain_statements (fun j hj => hlater j (by omega)) list).mp hread
    exact ⟨_, _, .block hopening hlist, rfl⟩
  | string quote =>
    rw [hopening] at hyields
    obtain ⟨⟨tokens, cursor⟩, hrest, rfl⟩ := hyields
    obtain ⟨close, ⟨hlt, hclose, hopen⟩, rfl, rfl⟩ := Rule.restOfString_eq_ok_iff.mp hrest
    exact ⟨_, _, .string hopening hlt hclose hopen, rfl⟩
  | named name body =>
    rw [hopening] at hyields
    obtain ⟨inner, hinner, rfl⟩ := hyields
    have hlt := TokenStream.lt_of_opening (congrArg Opening.place? hopening)
    obtain ⟨node, stop, hbody, rfl⟩ := (hlater body (by omega) inner).mp hinner
    exact ⟨_, _, .named hopening hbody, rfl⟩
  | misnamed =>
    rw [hopening] at hyields
    exact hyields.elim
  | inline body =>
    rw [hopening] at hyields
    obtain ⟨inner, hinner, rfl⟩ := hyields
    have hlt := TokenStream.lt_of_opening (congrArg Opening.place? hopening)
    obtain ⟨node, stop, hbody, rfl⟩ := (hlater body (by omega) inner).mp hinner
    exact ⟨_, _, .inline hopening hbody, rfl⟩
  | call callee place =>
    rw [hopening] at hyields
    obtain ⟨list, hread, rfl⟩ := hyields
    have hlt := TokenStream.lt_of_opening (congrArg Opening.place? hopening)
    obtain ⟨nodes, stop, hlist, rfl⟩ := (Delimiters.eval_read_eq_ok_iff
      Delimiters.plain_arguments (fun j hj => hlater j (by omega)) list).mp hread
    exact ⟨_, _, .call hopening hlist, rfl⟩
  | word name =>
    rw [hopening] at hyields
    exact ⟨_, _, .word hopening, hyields⟩
  | parenthesis =>
    rw [hopening] at hyields
    obtain ⟨inner, hinner, hclose, hrest⟩ := hyields
    obtain ⟨node, next, hnode, rfl⟩ := (hlater _ (by omega) inner).mp hinner
    rw [Cursor.fresh_token] at hclose hrest
    have hle := (hlater _ (by omega)).le hnode
    have hskip' := ts.le_skipBlanks next
    have hskip'' := ts.le_skipBlanks (ts.skipBlanks next + 1)
    split at hrest
    · next hcall =>
      obtain ⟨list, hread, rfl⟩ := hrest
      obtain ⟨nodes, stop, hlist, rfl⟩ := (Delimiters.eval_read_eq_ok_iff
        Delimiters.plain_arguments (fun j hj => hlater j (by omega)) list).mp hread
      exact ⟨_, _, .groupingCall hopening hnode hclose hcall hlist, rfl⟩
    · next hcall =>
      exact ⟨_, _, .grouping hopening hnode hclose (Bool.eq_false_iff.mpr hcall), hrest⟩
  | nothing =>
    rw [hopening] at hyields
    exact hyields.elim

theorem yields_of_reads (hlater : ∀ j, start < j → Agrees ts j) (hlt : start < ts.size)
    {node : Node} {stop : Nat} (hreads : Reads ts start node stop) :
    (ts.opening (ts.skipBlanks start)).Yields ts start (ts.skipBlanks start)
      ⟨node, .fresh stop⟩ := by
  have hskip := ts.le_skipBlanks start
  cases hreads with
  | empty hend => exact absurd hlt (Nat.not_lt.mpr hend)
  | block hopening hlist =>
    rw [hopening]
    exact ⟨(_, _), (Delimiters.eval_read_eq_ok_iff Delimiters.plain_statements
      (fun j hj => hlater j (by omega)) _).mpr ⟨_, _, hlist, rfl⟩, rfl⟩
  | string hopening hlt hclose hopen =>
    rw [hopening]
    exact ⟨(_, _), Rule.restOfString_eq_ok_iff.mpr ⟨_, ⟨hlt, hclose, hopen⟩, rfl, rfl⟩, rfl⟩
  | named hopening hbody =>
    rw [hopening]
    have hlt' := TokenStream.lt_of_opening (congrArg Opening.place? hopening)
    exact ⟨_, (hlater _ (by omega)).verdict_eq hbody, rfl⟩
  | inline hopening hbody =>
    rw [hopening]
    have hlt' := TokenStream.lt_of_opening (congrArg Opening.place? hopening)
    exact ⟨_, (hlater _ (by omega)).verdict_eq hbody, rfl⟩
  | call hopening hlist =>
    rw [hopening]
    have hlt' := TokenStream.lt_of_opening (congrArg Opening.place? hopening)
    exact ⟨(_, _), (Delimiters.eval_read_eq_ok_iff Delimiters.plain_arguments
      (fun j hj => hlater j (by omega)) _).mpr ⟨_, _, hlist, rfl⟩, rfl⟩
  | word hopening =>
    rw [hopening]
    rfl
  | grouping hopening hinner hclose hcall =>
    rw [hopening]
    refine ⟨_, (hlater _ (by omega)).verdict_eq hinner, hclose, ?_⟩
    dsimp only
    rw [Cursor.fresh_token, hcall]
    rfl
  | @groupingCall _ next _ inner arguments hopening hinner hclose hcall hlist =>
    rw [hopening]
    have hagrees := hlater (ts.skipBlanks start + 1) (by omega)
    have hle := hagrees.le hinner
    refine ⟨_, hagrees.verdict_eq hinner, hclose, ?_⟩
    dsimp only
    rw [Cursor.fresh_token, if_pos hcall]
    have hskip' := ts.le_skipBlanks next
    have hskip'' := ts.le_skipBlanks (ts.skipBlanks next + 1)
    exact ⟨(_, _), (Delimiters.eval_read_eq_ok_iff Delimiters.plain_arguments
      (fun j hj => hlater j (by omega)) _).mpr ⟨_, _, hlist, rfl⟩, rfl⟩

/-- The parser tries its rules in turn and looks ahead by parsing, but what it reads is what the
    grammar gives. -/
theorem agrees (ts : TokenStream) (start : Nat) : Agrees ts start := by
  -- Whatever an opening leaves to be read lies behind it, so the tokens that are left get fewer.
  induction hleft : ts.size - start using Nat.strongRecOn generalizing start with
  | ind left ih =>
    by_cases hlt : start < ts.size
    · have hlater (j : Nat) (hj : start < j) : Agrees ts j := ih (ts.size - j) (by omega) j rfl
      intro parsed
      rw [verdict_eq_ok_iff_yields hlt]
      constructor
      · exact reads_of_yields hlater
      · rintro ⟨node, stop, hreads, rfl⟩
        exact yields_of_reads hlater hlt hreads
    · exact agrees_of_ge (Nat.le_of_not_lt hlt)

theorem Reads.unique {node node' : Node} {stop stop' : Nat} (hreads : Reads ts start node stop)
    (hreads' : Reads ts start node' stop') : node' = node ∧ stop' = stop :=
  (agrees ts start).unique hreads hreads'

theorem Session.parse_of_two_levels_a_token {limit : Nat} (hlimit : 2 * (ts.size - start) ≤ limit) :
    (Session.parse ⟨ts, limit, {}⟩ ⟨start, none⟩).1 = outcome (.ok (verdict ts ⟨start, none⟩)) := by
  have hneed : Request.need ts ⟨start, none⟩ ≤ 2 * (ts.size - start) + 1 := Request.need_le ts _
  exact parse_of_need_le (by omega)

/-- With room for two levels a token, the parser reads a node exactly where the grammar has it, with
    nothing left open behind it, and finds a fault where the grammar has none. -/
theorem parse_eq_ok_iff_reads (ts : TokenStream) (start limit : Nat)
    (hlimit : 2 * (ts.size - start) ≤ limit) :
    (∀ node cursor, (Session.parse ⟨ts, limit, {}⟩ ⟨start, none⟩).1 = .ok ⟨node, cursor⟩ ↔
      Reads ts start node cursor.token ∧ cursor = .fresh cursor.token) ∧
    ((¬ ∃ node stop, Reads ts start node stop) →
      ∃ error, (Session.parse ⟨ts, limit, {}⟩ ⟨start, none⟩).1 = .error (.malformed error)) := by
  rw [Session.parse_of_two_levels_a_token hlimit]
  constructor
  · intro node cursor
    rw [outcome_eq_ok, Except.ok.injEq, agrees ts start]
    constructor
    · rintro ⟨node', stop, hreads, hsame⟩
      rw [Parsed.mk.injEq] at hsame
      obtain ⟨rfl, rfl⟩ := hsame
      exact ⟨hreads, rfl⟩
    · rintro ⟨hreads, hfresh⟩
      exact ⟨node, cursor.token, hreads, congrArg (Parsed.mk node) hfresh⟩
  · intro hnone
    cases hverdict : verdict ts ⟨start, none⟩ with
    | error error => exact ⟨error, rfl⟩
    | ok parsed =>
      obtain ⟨node, stop, hreads, -⟩ := (agrees ts start parsed).mp hverdict
      exact absurd ⟨node, stop, hreads⟩ hnone

theorem parse_eq_ok_iff_reads_call :
    2 * (3 - 0) ≤ 6 ∧
      Reads #[.text "a", .symbol .openParen, .symbol .closeParen] 0
        (.execution ⟨0, 3⟩ (.identifier ⟨0, 1⟩ "a") []) 3 :=
  ⟨by decide, (((parse_eq_ok_iff_reads _ 0 6 (by decide)).1 _ (.fresh 3)).mp (by cbv)).1⟩

end

end CurlyScript
