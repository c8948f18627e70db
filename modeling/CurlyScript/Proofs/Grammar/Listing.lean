import CurlyScript.Proofs.Grammar.Opening

namespace CurlyScript

/-- The parser and the grammar say the same about a place. -/
def Agrees (ts : TokenStream) (i : Nat) : Prop :=
  ∀ parsed, verdict ts ⟨i, none⟩ = .ok parsed ↔
    ∃ node stop, Reads ts i node stop ∧ parsed = ⟨node, .fresh stop⟩

/-- The symbols between items and after them can be told apart and leave nothing open. -/
structure Delimiters.Plain (delimiters : Delimiters) : Prop where
  distinct : delimiters.separator ≠ delimiters.closer
  separator : ∀ i, (Cursor.fresh i).advance (.symbol delimiters.separator) = .fresh (i + 1)
  closer : ∀ i, (Cursor.fresh i).advance (.symbol delimiters.closer) = .fresh (i + 1)

section

variable {ts : TokenStream} {delimiters : Delimiters} {i stop : Nat} {nodes : List Node}

theorem Agrees.verdict_eq (hagrees : Agrees ts i) {node : Node} (hreads : Reads ts i node stop) :
    verdict ts ⟨i, none⟩ = .ok ⟨node, .fresh stop⟩ :=
  (hagrees _).mpr ⟨node, stop, hreads, rfl⟩

theorem Agrees.le (hagrees : Agrees ts i) {node : Node} (hreads : Reads ts i node stop) :
    i ≤ stop := by
  have hmoved := (verdict_advances ts ⟨i, none⟩ _ (hagrees.verdict_eq hreads)).1
  rwa [Cursor.fresh_token] at hmoved

theorem Agrees.unique (hagrees : Agrees ts i) {node node' : Node} {stop' : Nat}
    (hreads : Reads ts i node stop) (hreads' : Reads ts i node' stop') :
    node' = node ∧ stop' = stop := by
  have hsame := (hagrees.verdict_eq hreads').symm.trans (hagrees.verdict_eq hreads)
  rw [Except.ok.injEq, Parsed.mk.injEq] at hsame
  exact ⟨hsame.1, congrArg Cursor.token hsame.2⟩

theorem Delimiters.plain_statements : statements.Plain where
  distinct := by decide
  separator := Cursor.fresh_advance_symbol rfl rfl
  closer := Cursor.fresh_advance_symbol rfl rfl

theorem Delimiters.plain_arguments : arguments.Plain where
  distinct := by decide
  separator := Cursor.fresh_advance_symbol rfl rfl
  closer := Cursor.fresh_advance_symbol rfl rfl

/-- The two kinds of lists that there are. -/
def Delimiters.Usual (delimiters : Delimiters) : Prop :=
  delimiters = .statements ∨ delimiters = .arguments

theorem Delimiters.Usual.mem (husual : delimiters.Usual) :
    delimiters.separator ∈ [Symbol.semiColon, .closeCurly, .comma, .closeParen] ∧
      delimiters.closer ∈ [Symbol.semiColon, .closeCurly, .comma, .closeParen] := by
  obtain rfl | rfl := husual <;> decide

theorem Delimiters.Usual.plain (husual : delimiters.Usual) : delimiters.Plain := by
  obtain rfl | rfl := husual
  · exact plain_statements
  · exact plain_arguments

theorem Delimiters.Usual.isWhitespace_separator (husual : delimiters.Usual) :
    delimiters.separator.isWhitespace = false := by
  obtain rfl | rfl := husual <;> rfl

theorem Delimiters.Usual.skipBlanks_eq (husual : delimiters.Usual)
    (hseen : delimiters.seenAt ts i = true) : ts.skipBlanks i = i := by
  obtain hsees | hsees := Bool.or_eq_true_iff.mp hseen <;>
    refine TokenStream.skipBlanks_of_sees hsees ?_ <;>
    obtain rfl | rfl := husual <;> rfl

theorem Delimiters.seenAt_of_separator (hseparator : ts.sees i delimiters.separator = true) :
    delimiters.seenAt ts i = true := by
  rw [seenAt, hseparator, Bool.true_or]

theorem Delimiters.seenAt_of_closer (hcloser : ts.sees i delimiters.closer = true) :
    delimiters.seenAt ts i = true := by
  rw [seenAt, hcloser, Bool.or_true]

theorem Delimiters.seenAt_eq_false_iff :
    delimiters.seenAt ts i = false ↔
      ts.sees i delimiters.separator = false ∧ ts.sees i delimiters.closer = false := by
  rw [seenAt, Bool.or_eq_false_iff]

theorem Delimiters.lt_size_of_seenAt (hseen : delimiters.seenAt ts i = true) : i < ts.size := by
  rw [seenAt, Bool.or_eq_true] at hseen
  obtain hseparator | hcloser := hseen
  · exact TokenStream.lt_size_of_sees hseparator
  · exact TokenStream.lt_size_of_sees hcloser

theorem Delimiters.Plain.not_both (hplain : delimiters.Plain)
    (hseparator : ts.sees i delimiters.separator = true) :
    ts.sees i delimiters.closer = false := by
  rw [Bool.eq_false_iff]
  intro hcloser
  rw [TokenStream.sees_iff] at hseparator hcloser
  rw [hseparator, Option.some.injEq, Token.symbol.injEq] at hcloser
  exact hplain.distinct hcloser

theorem readsList_iff_of_separator (hplain : delimiters.Plain)
    (hseparator : ts.sees (ts.skipBlanks i) delimiters.separator = true) :
    ReadsList ts delimiters i nodes stop ↔
      ReadsList ts delimiters (ts.skipBlanks i + 1) nodes stop := by
  constructor
  · intro hlist
    cases hlist with
    | close hclose =>
      rw [hplain.not_both hseparator] at hclose
      cases hclose
    | separator _ hrest => exact hrest
    | item hstart =>
      rw [(Delimiters.seenAt_eq_false_iff.mp hstart).1] at hseparator
      cases hseparator
  · exact .separator hseparator

theorem readsList_iff_of_closer (hplain : delimiters.Plain)
    (hcloser : ts.sees (ts.skipBlanks i) delimiters.closer = true) :
    ReadsList ts delimiters i nodes stop ↔ nodes = [] ∧ stop = ts.skipBlanks i + 1 := by
  constructor
  · intro hlist
    cases hlist with
    | close => exact ⟨rfl, rfl⟩
    | separator hseparator =>
      rw [hplain.not_both hseparator] at hcloser
      cases hcloser
    | item hstart =>
      rw [(Delimiters.seenAt_eq_false_iff.mp hstart).2] at hcloser
      cases hcloser
  · rintro ⟨rfl, rfl⟩
    exact .close hcloser

theorem readsList_iff_of_item (hstart : delimiters.seenAt ts (ts.skipBlanks i) = false) :
    ReadsList ts delimiters i nodes stop ↔ ∃ node next rest,
      Reads ts (ts.skipBlanks i) node next ∧ delimiters.seenAt ts (ts.skipBlanks next) = true ∧
        ReadsList ts delimiters (ts.skipBlanks next) rest stop ∧ nodes = node :: rest := by
  have hneither := Delimiters.seenAt_eq_false_iff.mp hstart
  constructor
  · intro hlist
    cases hlist with
    | close hclose =>
      rw [hneither.2] at hclose
      cases hclose
    | separator hseparator =>
      rw [hneither.1] at hseparator
      cases hseparator
    | item _ hnode hend hrest => exact ⟨_, _, _, hnode, hend, hrest, rfl⟩
  · rintro ⟨node, next, rest, hnode, hend, hrest, rfl⟩
    exact .item hstart hnode hend hrest

/-- Blanks before an item or before the end make no difference. -/
theorem ReadsList.of_skipBlanks_eq {delimiters : Delimiters} {i j stop : Nat} {nodes : List Node}
    (hskip : ts.skipBlanks i = ts.skipBlanks j) (hlist : ReadsList ts delimiters j nodes stop) :
    ReadsList ts delimiters i nodes stop := by
  cases hlist with
  | close hclose =>
    rw [← hskip] at hclose ⊢
    exact .close hclose
  | separator hseparator hrest =>
    rw [← hskip] at hseparator hrest
    exact .separator hseparator hrest
  | item hstart hnode hend hrest =>
    rw [← hskip] at hstart hnode
    exact .item hstart hnode hend hrest

/-- The first item settles where the rest of the list is. -/
theorem Agrees.readsList_iff (hagrees : Agrees ts (ts.skipBlanks i))
    (hstart : delimiters.seenAt ts (ts.skipBlanks i) = false) {node : Node} {next : Nat}
    (hnode : Reads ts (ts.skipBlanks i) node next) :
    ReadsList ts delimiters i nodes stop ↔
      delimiters.seenAt ts (ts.skipBlanks next) = true ∧
        ∃ rest, ReadsList ts delimiters (ts.skipBlanks next) rest stop ∧ nodes = node :: rest := by
  rw [readsList_iff_of_item hstart]
  constructor
  · rintro ⟨node', next', rest, hnode', hend, hrest, rfl⟩
    obtain ⟨rfl, rfl⟩ := hagrees.unique hnode hnode'
    exact ⟨hend, rest, hrest, rfl⟩
  · rintro ⟨hend, rest, hrest, rfl⟩
    exact ⟨node, next, rest, hnode, hend, hrest, rfl⟩

/-- One round of a list. -/
theorem Delimiters.eval_items_succ (hplain : delimiters.Plain) (oracle : Oracle) (budget i : Nat)
    (found : List Node) :
    (delimiters.items ts (budget + 1) (.fresh i) found).eval oracle =
      if ts.sees (ts.skipBlanks i) delimiters.separator then
        (delimiters.items ts budget (.fresh (ts.skipBlanks i + 1)) found).eval oracle
      else if ts.sees (ts.skipBlanks i) delimiters.closer then
        .ok (found.reverse, .fresh (ts.skipBlanks i + 1))
      else if ts.skipBlanks i < ts.size then
        match oracle ⟨ts.skipBlanks i, none⟩ with
        | .error error => .error (.rejected error)
        | .ok item =>
          if delimiters.seenAt ts (ts.skipBlanks item.cursor.token) then
            (delimiters.items ts budget (.fresh (ts.skipBlanks item.cursor.token))
              (item.node :: found)).eval oracle
          else (delimiters.missing ts (ts.skipBlanks item.cursor.token)).eval oracle
      else (delimiters.missing ts (ts.skipBlanks i)).eval oracle := by
  simp only [items, Cursor.fresh_skipBlanks, Cursor.fresh_token, Cursor.fresh_moveTo]
  cases htoken : ts[ts.skipBlanks i]? with
  | none =>
    have hge : ¬ ts.skipBlanks i < ts.size := by
      rw [Array.getElem?_eq_none_iff] at htoken
      omega
    simp [TokenStream.sees, hge]
  | some token =>
    have hlt := (Array.getElem?_eq_some_iff.mp htoken).1
    have hsees (s : Symbol) : ts.sees (ts.skipBlanks i) s = token.is s := by
      simp [TokenStream.sees, htoken]
    simp only [hsees]
    split
    · next hseparator =>
      rw [Token.is_iff.mp hseparator, hplain.separator]
    · split
      · next hcloser =>
        rw [Token.is_iff.mp hcloser, hplain.closer]
        rfl
      · rw [Attempt.eval_bind, Attempt.eval_require]
        cases oracle ⟨ts.skipBlanks i, none⟩ with
        | error error => rfl
        | ok item =>
          simp only [Except.mapError, Except.bind]
          split <;> rfl

/-- A list is either read or faulty, but it never leaves its place to something else. -/
theorem Delimiters.eval_items_ne_declined (hplain : delimiters.Plain) (oracle : Oracle)
    (budget i : Nat) (found : List Node) :
    (delimiters.items ts budget (.fresh i) found).eval oracle ≠ .error .declined := by
  induction budget generalizing i found with
  | zero => simp [items, missing]
  | succ budget ih =>
    rw [eval_items_succ hplain]
    split
    · exact ih _ _
    · split
      · simp
      · split
        · split
          · simp
          · split
            · exact ih _ _
            · simp [missing]
        · simp [missing]

theorem ReadsList.skipBlanks_lt_size (hagrees : Agrees ts (ts.skipBlanks i))
    (hlist : ReadsList ts delimiters i nodes stop) : ts.skipBlanks i < ts.size := by
  cases hlist with
  | close hclose => exact TokenStream.lt_size_of_sees hclose
  | separator hseparator => exact TokenStream.lt_size_of_sees hseparator
  | item _ hnode hend =>
    have hle := hagrees.le hnode
    have hlt := Delimiters.lt_size_of_seenAt hend
    exact Nat.lt_of_le_of_lt (Nat.le_trans hle (ts.le_skipBlanks _)) hlt

/-- A list that goes on with an item is read as it should be if the rest is. -/
theorem Delimiters.eval_items_of_item (hplain : delimiters.Plain)
    (hagrees : Agrees ts (ts.skipBlanks i))
    (hstart : delimiters.seenAt ts (ts.skipBlanks i) = false) {budget : Nat} {found : List Node}
    {result : List Node × Cursor}
    (hbehind : ∀ node next, ts.skipBlanks i < next →
      ((delimiters.items ts budget (.fresh (ts.skipBlanks next)) (node :: found)).eval
          (verdict ts) = .ok result ↔
        ∃ rest stop, ReadsList ts delimiters (ts.skipBlanks next) rest stop ∧
          result = ((node :: found).reverse ++ rest, .fresh stop))) :
    (delimiters.items ts (budget + 1) (.fresh i) found).eval (verdict ts) = .ok result ↔
      ∃ rest stop, ReadsList ts delimiters i rest stop ∧
        result = (found.reverse ++ rest, .fresh stop) := by
  obtain ⟨hseparator, hcloser⟩ := seenAt_eq_false_iff.mp hstart
  rw [eval_items_succ hplain, hseparator, hcloser]
  simp only [Bool.false_eq_true, if_false]
  split
  · next hlt =>
    cases hverdict : verdict ts ⟨ts.skipBlanks i, none⟩ with
    | error error =>
      constructor
      · intro h
        cases h
      · rintro ⟨rest, stop, hlist, -⟩
        obtain ⟨node, next, _, hnode, -⟩ := (readsList_iff_of_item hstart).mp hlist
        rw [hagrees.verdict_eq hnode] at hverdict
        cases hverdict
    | ok item =>
      obtain ⟨node, next, hnode, rfl⟩ := (hagrees item).mp hverdict
      have hmoved := (verdict_advances ts _ _ hverdict).2 hlt
      simp only [Cursor.fresh_token] at hmoved ⊢
      simp only [hagrees.readsList_iff hstart hnode]
      split
      · next hend =>
        refine (hbehind node next hmoved).trans ?_
        simp only [hend, true_and, List.reverse_cons, List.append_assoc, List.singleton_append]
        constructor
        · rintro ⟨rest, stop, hrest, rfl⟩
          exact ⟨node :: rest, stop, ⟨rest, hrest, rfl⟩, rfl⟩
        · rintro ⟨_, stop, ⟨rest, hrest, rfl⟩, rfl⟩
          exact ⟨rest, stop, hrest, rfl⟩
      · next hend =>
        constructor
        · intro h
          cases h
        · rintro ⟨rest, stop, ⟨hend', -⟩, -⟩
          exact absurd hend' hend
  · next hge =>
    constructor
    · intro h
      cases h
    · rintro ⟨rest, stop, hlist, rfl⟩
      exact absurd (hlist.skipBlanks_lt_size hagrees) hge

/-- Where the parser agrees with the grammar from an index on, lists are read as they should be. -/
theorem Delimiters.eval_items_eq_ok_iff (hplain : delimiters.Plain)
    (hagrees : ∀ j, i ≤ j → Agrees ts j) {budget : Nat} (hbudget : ts.size - i ≤ budget)
    (found : List Node) (result : List Node × Cursor) :
    (delimiters.items ts budget (.fresh i) found).eval (verdict ts) = .ok result ↔
      ∃ rest stop, ReadsList ts delimiters i rest stop ∧
        result = (found.reverse ++ rest, .fresh stop) := by
  have hskip := ts.le_skipBlanks i
  induction budget generalizing i found with
  | zero =>
    constructor
    · intro h
      cases h
    · rintro ⟨rest, stop, hlist, rfl⟩
      have hlt := hlist.skipBlanks_lt_size (hagrees _ hskip)
      omega
  | succ budget ih =>
    cases hseparator : ts.sees (ts.skipBlanks i) delimiters.separator with
    | true =>
      have hlt := TokenStream.lt_size_of_sees hseparator
      have hlater (j : Nat) (hj : ts.skipBlanks i + 1 ≤ j) : Agrees ts j := hagrees j (by omega)
      rw [eval_items_succ hplain, if_pos hseparator]
      refine (ih hlater (by omega) found (ts.le_skipBlanks _)).trans ?_
      simp only [readsList_iff_of_separator hplain hseparator]
    | false =>
      cases hcloser : ts.sees (ts.skipBlanks i) delimiters.closer with
      | true =>
        rw [eval_items_succ hplain, if_neg (Bool.eq_false_iff.mp hseparator), if_pos hcloser]
        simp only [readsList_iff_of_closer hplain hcloser, Except.ok.injEq]
        constructor
        · rintro rfl
          exact ⟨[], _, ⟨rfl, rfl⟩, by rw [List.append_nil]⟩
        · rintro ⟨rest, stop, ⟨rfl, rfl⟩, rfl⟩
          rw [List.append_nil]
      | false =>
        have hstart := seenAt_eq_false_iff.mpr ⟨hseparator, hcloser⟩
        refine eval_items_of_item hplain (hagrees _ hskip) hstart fun node next hmoved => ?_
        have hskip' := ts.le_skipBlanks next
        have hlater (j : Nat) (hj : ts.skipBlanks next ≤ j) : Agrees ts j := hagrees j (by omega)
        exact ih hlater (by omega) (node :: found) (ts.le_skipBlanks _)

end

end CurlyScript
