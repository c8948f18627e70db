import CurlyScript.Proofs.Grammar.Agreement

namespace CurlyScript

/-- Nothing but spaces and newlines. -/
def Blanks (gap : List Token) : Prop :=
  ∀ token ∈ gap, token.isWhitespace = true

namespace TokenStream

/-- Some tokens stand at an index, one after the other. -/
def Holds (ts : TokenStream) : Nat → List Token → Prop
  | _, [] => True
  | i, token :: rest => ts[i]? = some token ∧ ts.Holds (i + 1) rest

/-- What was read up to an index ends there: after blanks comes what stands between items or after
    them. -/
def EndsAt (ts : TokenStream) (i : Nat) : Prop :=
  Delimiters.statements.seenAt ts (ts.skipBlanks i) = true ∨
    Delimiters.arguments.seenAt ts (ts.skipBlanks i) = true

/-- Nothing goes on at an index: after blanks the input ends or something in it does. -/
def StopsAt (ts : TokenStream) (i : Nat) : Prop :=
  ∀ token, ts[ts.skipBlanks i]? = some token →
    ∃ s ∈ [Symbol.semiColon, .closeCurly, .comma, .closeParen], token = .symbol s

variable {ts : TokenStream} {i j : Nat} {name : String}

theorem holds_append {a b : List Token} :
    ts.Holds i (a ++ b) ↔ ts.Holds i a ∧ ts.Holds (i + a.length) b := by
  induction a generalizing i with
  | nil => simp [Holds]
  | cons token a ih =>
    rw [List.cons_append, Holds, Holds, ih, List.length_cons, and_assoc, Nat.add_assoc,
      Nat.add_comm 1]

theorem holds_toArray (before tokens after : List Token) :
    Holds (before ++ tokens ++ after).toArray before.length tokens := by
  induction tokens generalizing before with
  | nil => trivial
  | cons token tokens ih =>
    refine ⟨by simp, ?_⟩
    have hrest := ih (before ++ [token])
    rw [List.length_append] at hrest
    simpa using hrest

/-- Blanks are skipped over. -/
theorem skipBlanks_of_holds {gap : List Token} (hgap : ts.Holds i gap) (hblank : Blanks gap) :
    ts.skipBlanks i = ts.skipBlanks (i + gap.length) := by
  induction gap generalizing i with
  | nil => rfl
  | cons token gap ih =>
    rw [Blanks, List.forall_mem_cons] at hblank
    obtain ⟨htoken, hrest⟩ := hgap
    obtain ⟨hlt, rfl⟩ := Array.getElem?_eq_some_iff.mp htoken
    rw [skipBlanks, dif_pos hlt, if_pos hblank.1, ih hrest hblank.2, List.length_cons,
      Nat.add_assoc, Nat.add_comm 1]

theorem Holds.exists_mem {tokens : List Token} (hholds : ts.Holds i tokens) (hle : i ≤ j)
    (hlt : j < i + tokens.length) : ∃ token ∈ tokens, ts[j]? = some token := by
  induction tokens generalizing i with
  | nil =>
    rw [List.length_nil] at hlt
    omega
  | cons token tokens ih =>
    by_cases heq : i = j
    · subst heq
      exact ⟨token, List.mem_cons_self .., hholds.1⟩
    · rw [List.length_cons] at hlt
      obtain ⟨other, hother, hj⟩ := ih hholds.2 (by omega) (by omega)
      exact ⟨other, List.mem_cons_of_mem _ hother, hj⟩

theorem Holds.toList_extract {tokens : List Token} (hholds : ts.Holds i tokens) :
    (ts.extract i (i + tokens.length)).toList = tokens := by
  induction tokens generalizing i with
  | nil => simp
  | cons token tokens ih =>
    obtain ⟨hlt, rfl⟩ := Array.getElem?_eq_some_iff.mp hholds.1
    rw [List.length_cons, toList_extract_cons hlt (by omega), ← Nat.add_assoc,
      Nat.add_right_comm, ih hholds.2]

theorem sees_of_holds {s : Symbol} {rest : List Token} (hholds : ts.Holds i (.symbol s :: rest)) :
    ts.sees i s = true :=
  sees_iff.mpr hholds.1

theorem EndsAt.of_sees {s : Symbol} (hsees : ts.sees (ts.skipBlanks i) s = true)
    (hs : s ∈ [Symbol.semiColon, .closeCurly, .comma, .closeParen]) : ts.EndsAt i := by
  simp only [List.mem_cons, List.not_mem_nil, or_false] at hs
  obtain rfl | rfl | rfl | rfl := hs
  · exact .inl (Delimiters.seenAt_of_separator hsees)
  · exact .inl (Delimiters.seenAt_of_closer hsees)
  · exact .inr (Delimiters.seenAt_of_separator hsees)
  · exact .inr (Delimiters.seenAt_of_closer hsees)

theorem EndsAt.exists_sees (hends : ts.EndsAt i) :
    ∃ s ∈ [Symbol.semiColon, .closeCurly, .comma, .closeParen],
      ts.sees (ts.skipBlanks i) s = true := by
  obtain hends | hends := hends <;>
    obtain hsees | hsees := Bool.or_eq_true_iff.mp hends <;>
    exact ⟨_, by decide, hsees⟩

theorem EndsAt.stopsAt (hends : ts.EndsAt i) : ts.StopsAt i := by
  intro token htoken
  obtain ⟨s, hs, hsees⟩ := hends.exists_sees
  rw [sees_iff, htoken, Option.some.injEq] at hsees
  exact ⟨s, hs, hsees⟩

theorem stopsAt_of_size_le (hle : ts.size ≤ i) : ts.StopsAt i := by
  intro token htoken
  have hlt := (Array.getElem?_eq_some_iff.mp htoken).1
  have hskip := ts.le_skipBlanks i
  omega

theorem StopsAt.sees_eq_false (hstops : ts.StopsAt i) {s : Symbol}
    (hs : s ∉ [Symbol.semiColon, .closeCurly, .comma, .closeParen]) :
    ts.sees (ts.skipBlanks i) s = false := by
  rw [Bool.eq_false_iff, Ne, sees_iff]
  intro hsees
  obtain ⟨t, ht, hsame⟩ := hstops _ hsees
  rw [Token.symbol.injEq] at hsame
  exact hs (hsame ▸ ht)

theorem hasText_skipBlanks_of_typed (htyped : (ts.sees i .space && ts.hasText (i + 1)) = true) :
    ts.hasText (ts.skipBlanks i) = true := by
  rw [Bool.and_eq_true] at htyped
  rw [skipBlanks_of_space htyped.1, skipBlanks_of_hasText htyped.2]
  exact htyped.2

/-- Where nothing goes on a name is no type. -/
theorem StopsAt.typed_eq_false (hstops : ts.StopsAt i) :
    (ts.sees i .space && ts.hasText (i + 1)) = false := by
  rw [Bool.eq_false_iff]
  intro htyped
  obtain ⟨content, hcontent⟩ := hasText_iff.mp (hasText_skipBlanks_of_typed htyped)
  obtain ⟨s, -, hsame⟩ := hstops _ hcontent
  cases hsame

/-- Before a symbol a name is no type. -/
theorem typed_eq_false {s : Symbol} (hsees : ts.sees (ts.skipBlanks i) s = true) :
    (ts.sees i .space && ts.hasText (i + 1)) = false := by
  rw [Bool.eq_false_iff]
  intro htyped
  rw [sees_eq_false_of_hasText (hasText_skipBlanks_of_typed htyped)] at hsees
  cases hsees

theorem typed_eq_false_of_hasParameters (hparameters : ts.hasParameters i = true) :
    (ts.sees i .space && ts.hasText (i + 1)) = false := by
  have hparen := (Bool.and_eq_true_iff.mp hparameters).1
  apply typed_eq_false
  rw [skipBlanks_of_sees hparen rfl]
  exact hparen

/-- A name with which something ends is a name on its own. -/
theorem afterWord_of_stopsAt (hstops : ts.StopsAt i) : ts.afterWord name i = .word name := by
  have hparen := hstops.sees_eq_false (s := .openParen) (by decide)
  have hparameters : ts.hasParameters i = false := by
    rw [Bool.eq_false_iff]
    intro h
    have hopen := (Bool.and_eq_true_iff.mp h).1
    rw [skipBlanks_of_sees hopen rfl, hopen] at hparen
    cases hparen
  rw [afterWord, hstops.typed_eq_false, hparameters, hparen]
  rfl

theorem afterWord_typed {defined : String} (hspace : ts.sees i .space = true)
    (hword : ts.wordAt? (i + 1) = some defined) (hparameters : ts.hasParameters (i + 2) = true) :
    ts.afterWord name i = .named defined (ts.skipBlanks (i + 4)) := by
  have htext : ts.hasText (i + 1) = true :=
    hasText_iff.mpr ⟨defined, (wordAt?_eq_some.mp hword).1⟩
  rw [afterWord, hspace, htext, hword, hparameters]
  rfl

theorem afterWord_untyped (hparameters : ts.hasParameters i = true)
    (hcurly : ts.sees (ts.skipBlanks (i + 2)) .openCurly = true) :
    ts.afterWord name i = .named name (ts.skipBlanks (i + 2)) := by
  rw [afterWord, typed_eq_false_of_hasParameters hparameters, hparameters, hcurly]
  rfl

theorem afterWord_inline (hparameters : ts.hasParameters i = true)
    (hequal : ts.sees (ts.skipBlanks (i + 2)) .equal = true)
    (harrow : ts.sees (ts.skipBlanks (i + 2) + 1) .rightChevron = true) :
    ts.afterWord name i = .inline (ts.skipBlanks (ts.skipBlanks (i + 2) + 2)) := by
  have hcurly : ts.sees (ts.skipBlanks (i + 2)) .openCurly = false :=
    TokenStream.sees_eq_false hequal (by decide)
  rw [afterWord, typed_eq_false_of_hasParameters hparameters, hparameters, hcurly, hequal, harrow]
  rfl

/-- What makes the beginning of a definition of a name and its parentheses: the body comes next. -/
def BodyAt (ts : TokenStream) (i : Nat) : Prop :=
  ts.sees i .openCurly = true ∨ ts.sees i .equal = true ∧ ts.sees (i + 1) .rightChevron = true

theorem StopsAt.not_bodyAt (hstops : ts.StopsAt i) : ¬ ts.BodyAt (ts.skipBlanks i) := by
  rintro (hcurly | ⟨hequal, -⟩)
  · rw [hstops.sees_eq_false (by decide)] at hcurly
    cases hcurly
  · rw [hstops.sees_eq_false (by decide)] at hequal
    cases hequal

theorem afterWord_of_parenthesis (hparen : ts.sees (ts.skipBlanks i) .openParen = true)
    (hbody : ts.hasParameters i = true → ¬ ts.BodyAt (ts.skipBlanks (i + 2))) :
    ts.afterWord name i = .call name (ts.skipBlanks i + 1) := by
  rw [afterWord, typed_eq_false hparen, if_neg Bool.false_ne_true, if_neg, if_neg, if_pos hparen]
  · intro hinline
    simp only [Bool.and_eq_true] at hinline
    exact hbody hinline.1.1 (.inr ⟨hinline.1.2, hinline.2⟩)
  · intro hnamed
    rw [Bool.and_eq_true] at hnamed
    exact hbody hnamed.1 (.inl hnamed.2)

/-- A call without arguments looks like the beginning of a definition, but it is none without a
    body. -/
theorem afterWord_call {arguments : List Node} {stop : Nat}
    (hparen : ts.sees (ts.skipBlanks i) .openParen = true)
    (hlist : ReadsList ts .arguments (ts.skipBlanks i + 1) arguments stop)
    (hbody : arguments = [] → stop = i + 2 → ¬ ts.BodyAt (ts.skipBlanks stop)) :
    ts.afterWord name i = .call name (ts.skipBlanks i + 1) := by
  refine afterWord_of_parenthesis hparen fun hparameters => ?_
  rw [hasParameters, Bool.and_eq_true] at hparameters
  obtain ⟨hopen, hclose⟩ := hparameters
  have hblank := skipBlanks_of_sees hclose rfl
  rw [skipBlanks_of_sees hopen rfl, readsList_iff_of_closer Delimiters.plain_arguments (by
    rw [hblank]
    exact hclose), hblank] at hlist
  have hstop : stop = i + 2 := hlist.2
  exact hstop ▸ hbody hlist.1 hstop

theorem wordAt?_of_holds {rest : List Token} (hname : isWord name = true)
    (hholds : ts.Holds i (.text name :: rest)) : ts.wordAt? i = some name :=
  wordAt?_eq_some.mpr ⟨hholds.1, hname⟩

theorem hasParameters_of_holds {rest : List Token}
    (hholds : ts.Holds i (.symbol .openParen :: .symbol .closeParen :: rest)) :
    ts.hasParameters i = true := by
  rw [hasParameters, Bool.and_eq_true]
  exact ⟨sees_iff.mpr hholds.1, sees_iff.mpr hholds.2.1⟩

end TokenStream

end CurlyScript
