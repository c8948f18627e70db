import CurlyScript.Proofs.Grammar.Opening

namespace CurlyScript

/-- The symbol of the character that delimits a string. -/
def Quote.symbol : Quote → Symbol
  | .single => .singleQuote
  | .double => .doubleQuote
  | .back => .backQuote

theorem Quote.quote?_symbol (quote : Quote) : quote.symbol.quote? = some quote := by
  cases quote <;> rfl

namespace TokenStream

variable {ts : TokenStream} {i close : Nat}

theorem quoteAt?_of_lt (hlt : i < ts.size) : ts.quoteAt? i = ts[i].quote? := by
  rw [quoteAt?, Array.getElem?_eq_getElem hlt, Option.bind_some]

theorem lt_size_of_quoteAt? {quote : Quote} (hquote : ts.quoteAt? i = some quote) :
    i < ts.size := by
  obtain ⟨token, htoken, -⟩ := Option.bind_eq_some_iff.mp hquote
  exact (Array.getElem?_eq_some_iff.mp htoken).1

theorem quoteAt?_eq_some_iff {quote : Quote} :
    ts.quoteAt? i = some quote ↔ ts[i]? = some (.symbol quote.symbol) := by
  constructor
  · intro hquote
    obtain ⟨token, htoken, hopens⟩ := Option.bind_eq_some_iff.mp hquote
    rw [htoken]
    cases token with
    | text content => cases hopens
    | symbol s => cases s <;> cases hopens <;> rfl
  · intro htoken
    rw [quoteAt?, htoken, Option.bind_some]
    exact quote.quote?_symbol

theorem toList_extract_cons (hlt : i < ts.size) (hclose : i < close) :
    (ts.extract i close).toList = ts[i] :: (ts.extract (i + 1) close).toList := by
  have hcount : close - i = close - (i + 1) + 1 := by omega
  simp only [Array.toList_extract, List.extract_eq_take_drop]
  rw [hcount, List.drop_eq_getElem_cons (by simpa using hlt), List.take_succ_cons,
    Array.getElem_toList]

end TokenStream

/-- Inside a string only its own quote is taken note of. -/
theorem Cursor.advance_quoted (i depth : Nat) (quote : Quote) (token : Token) :
    Cursor.advance ⟨i, depth, some quote⟩ token =
      ⟨i + 1, depth, if token.quote? = some quote then none else some quote⟩ := by
  cases token with
  | text content => rfl
  | symbol s => cases s <;> cases quote <;> rfl

theorem Cursor.fresh_advance_quote {token : Token} {quote : Quote}
    (hquote : token.quote? = some quote) (i : Nat) :
    (fresh i).advance token = ⟨i + 1, 0, some quote⟩ := by
  cases token with
  | text content => cases hquote
  | symbol s => cases s <;> cases hquote <;> rfl

/-- The quote that closes what is open at an index is the next one of its kind. -/
def TokenStream.ClosesAt (ts : TokenStream) (quote : Quote) (i close : Nat) : Prop :=
  i ≤ close ∧ ts.quoteAt? close = some quote ∧
    ∀ j, i ≤ j → j < close → ts.quoteAt? j ≠ some quote

section

variable {ts : TokenStream} {quote : Quote} {i close : Nat}

theorem TokenStream.ClosesAt.lt_size (hcloses : ts.ClosesAt quote i close) : i < ts.size :=
  Nat.lt_of_le_of_lt hcloses.1 (lt_size_of_quoteAt? hcloses.2.1)

theorem TokenStream.closesAt_iff_of_quote (hquote : ts.quoteAt? i = some quote) :
    ts.ClosesAt quote i close ↔ close = i := by
  constructor
  · rintro ⟨hle, -, hopen⟩
    by_cases hlt : i < close
    · exact absurd hquote (hopen i (Nat.le_refl i) hlt)
    · omega
  · rintro rfl
    exact ⟨Nat.le_refl close, hquote, fun j hle hlt => by omega⟩

theorem TokenStream.closesAt_iff_of_ne (hquote : ts.quoteAt? i ≠ some quote) :
    ts.ClosesAt quote i close ↔ ts.ClosesAt quote (i + 1) close := by
  constructor
  · rintro ⟨hle, hclose, hopen⟩
    have hne : i ≠ close := by
      rintro rfl
      exact hquote hclose
    exact ⟨by omega, hclose, fun j hj => hopen j (by omega)⟩
  · rintro ⟨hle, hclose, hopen⟩
    refine ⟨by omega, hclose, fun j hj hlt => ?_⟩
    obtain rfl | hbehind := Nat.eq_or_lt_of_le hj
    · exact hquote
    · exact hopen j hbehind hlt

/-- A string holds what stands before the next quote of its own kind. -/
theorem Rule.restOfString_eq_ok_iff {depth : Nat} {captured tokens : List Token}
    {cursor : Cursor} :
    restOfString ts quote ⟨i, depth, some quote⟩ captured = .ok (tokens, cursor) ↔
      ∃ close, ts.ClosesAt quote i close ∧
        tokens = captured.reverse ++ (ts.extract i close).toList ∧
        cursor = ⟨close + 1, depth, none⟩ := by
  induction hleft : ts.size - i generalizing i captured with
  | zero =>
    rw [restOfString, dif_neg (by dsimp only; omega)]
    constructor
    · intro h
      cases h
    · rintro ⟨close, hcloses, -⟩
      have hlt := hcloses.lt_size
      omega
  | succ left ih =>
    have hlt : i < ts.size := by omega
    have hquoteAt := TokenStream.quoteAt?_of_lt hlt
    rw [restOfString, dif_pos hlt]
    simp only [Cursor.advance_quoted, Cursor.insideQuote]
    by_cases hquote : ts[i].quote? = some quote
    · rw [if_pos hquote]
      simp only [TokenStream.closesAt_iff_of_quote (hquoteAt.trans hquote), exists_eq_left]
      simp [eq_comm]
    · rw [if_neg hquote]
      simp only [Option.isSome_some, if_true]
      rw [ih (by omega)]
      rw [← hquoteAt] at hquote
      simp only [TokenStream.closesAt_iff_of_ne hquote]
      refine exists_congr fun close => and_congr_right fun hcloses => ?_
      rw [TokenStream.toList_extract_cons hlt hcloses.1, List.reverse_cons, List.append_assoc,
        List.singleton_append]

/-- A string that is not ended goes on to the end of the input, where no quote of its kind is
    left. -/
theorem Rule.restOfString_eq_error {depth : Nat} {captured : List Token} {error : SyntaxError}
    (hle : i ≤ ts.size)
    (hrest : restOfString ts quote ⟨i, depth, some quote⟩ captured = .error error) :
    error = ⟨.unterminatedString quote, ts.size⟩ ∧ ∀ j, i ≤ j → ts.quoteAt? j ≠ some quote := by
  induction hleft : ts.size - i generalizing i captured with
  | zero =>
    rw [restOfString, dif_neg (by dsimp only; omega), Except.error.injEq] at hrest
    obtain rfl : i = ts.size := by omega
    refine ⟨hrest.symm, fun j hj hquote => ?_⟩
    have hlt := TokenStream.lt_size_of_quoteAt? hquote
    omega
  | succ left ih =>
    have hlt : i < ts.size := by omega
    rw [restOfString, dif_pos hlt] at hrest
    simp only [Cursor.advance_quoted, Cursor.insideQuote] at hrest
    by_cases hquote : ts[i].quote? = some quote
    · rw [if_pos hquote] at hrest
      cases hrest
    · rw [if_neg hquote] at hrest
      obtain ⟨herror, hnone⟩ := ih hlt hrest (by omega)
      refine ⟨herror, fun j hj => ?_⟩
      obtain rfl | hbehind := Nat.eq_or_lt_of_le hj
      · rwa [TokenStream.quoteAt?_of_lt hlt]
      · exact hnone j hbehind

end

end CurlyScript
