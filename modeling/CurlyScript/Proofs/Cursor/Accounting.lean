import CurlyScript.Proofs.Cursor.Unquoted
import CurlyScript.Proofs.Grammar.Brackets
import Mathlib.Algebra.Order.Group.Int
import Mathlib.Order.Bounds.Basic

namespace CurlyScript

namespace Token

def opens (token : Token) : Bool :=
  token.symbol?.any Symbol.isOpeningBracket

def closes (token : Token) : Bool :=
  token.symbol?.any Symbol.isClosingBracket

end Token

/-- The brackets that are open behind some tokens, the latest first. A closing bracket cancels the
    latest of them, whatever its shape, and nothing if none is open. -/
def stillOpen (opened : List Token) : List Token → List Token
  | [] => opened
  | token :: tokens =>
    if token.opens then stillOpen (token :: opened) tokens
    else if token.closes then stillOpen opened.tail tokens
    else stillOpen opened tokens

/-- How many more brackets some tokens open than they close. -/
def surplus (tokens : List Token) : ℤ :=
  (tokens.countP Token.opens : ℤ) - tokens.countP Token.closes

/-- How many more brackets the first `k` tokens open than they close, outside of strings. -/
def surplusAt (opened : Option Quote) (tokens : List Token) (k : ℕ) : ℤ :=
  surplus (unquoted opened (tokens.take k))

section

variable {token : Token} {tokens : List Token}

theorem stillOpen_cons (brackets : List Token) :
    stillOpen brackets (token :: tokens) = stillOpen (stillOpen brackets [token]) tokens := by
  simp only [stillOpen]
  split
  · rfl
  · split <;> rfl

/-- One bracket more or less, but never less than none. -/
theorem length_stillOpen_singleton (brackets : List Token) (token : Token) :
    ((stillOpen brackets [token]).length : ℤ) = max 0 (brackets.length + surplus [token]) := by
  have hexclusive : token.opens = true → token.closes = false := by
    cases token with
    | text content => exact fun _ => rfl
    | symbol s => cases s <;> decide
  by_cases hopen : token.opens = true
  · simp [stillOpen, surplus, hopen, hexclusive hopen]
    omega
  · by_cases hclose : token.closes = true
    · simp [stillOpen, surplus, hopen, hclose]
      omega
    · simp [stillOpen, surplus, hopen, hclose]

theorem surplus_append (tokens more : List Token) :
    surplus (tokens ++ more) = surplus tokens + surplus more := by
  simp only [surplus, List.countP_append, Nat.cast_add]
  omega

end

namespace Cursor

section

variable {opened last : Option Quote} {quote : Quote} {token : Token}
  {tokens inside outside : List Token}

theorem account_of_unquoted (htoken : token.quote? = none) (i : ℕ) (brackets : List Token) :
    account ⟨i, brackets.length, none⟩ token =
      ⟨i, (stillOpen brackets [token]).length, none⟩ := by
  cases token with
  | text content => rfl
  | symbol s =>
    have hs : s.quote? = none := htoken
    by_cases hopen : s.isOpeningBracket = true
    · simp [account, accountSymbol, Token.symbol?, stillOpen, Token.opens, hs, hopen]
    · by_cases hclose : s.isClosingBracket = true <;>
        simp [account, accountSymbol, Token.symbol?, stillOpen, Token.opens, Token.closes, hs,
          hopen, hclose]

theorem foldl_account_of_inside (hinside : ∀ other ∈ inside, other.quote? ≠ some quote)
    (i depth : ℕ) : inside.foldl account ⟨i, depth, some quote⟩ = ⟨i, depth, some quote⟩ := by
  induction inside with
  | nil => rfl
  | cons token inside ih =>
    rw [List.forall_mem_cons] at hinside
    have hstep := account_quoted ⟨i, depth, none⟩ quote token
    rw [if_neg hinside.1] at hstep
    rw [List.foldl_cons, hstep, ih hinside.2]

/-- The depth of a cursor counts the brackets that are open, and its quote is the one left open. -/
theorem foldl_account_eq (h : Unquotes opened tokens outside last) (i : ℕ)
    (brackets : List Token) :
    tokens.foldl account ⟨i, brackets.length, opened⟩ =
      ⟨i, (stillOpen brackets outside).length, last⟩ := by
  induction h generalizing brackets with
  | nil => rfl
  | outside htoken _ ih =>
    rw [List.foldl_cons, account_of_unquoted htoken, ih, ← stillOpen_cons]
  | opening htoken _ ih =>
    rw [List.foldl_cons, account_quote htoken rfl, ih]
  | @closing inside token quote tokens outside last hinside htoken _ ih =>
    have hclose := account_quoted ⟨i, brackets.length, none⟩ quote token
    rw [if_pos htoken] at hclose
    rw [List.foldl_append, foldl_account_of_inside hinside, List.foldl_cons, hclose, ih]
  | unclosed hinside => exact foldl_account_of_inside hinside i _

theorem foldl_account_of_unquotes {cursor : Cursor}
    (h : Unquotes cursor.quote tokens outside last) :
    tokens.foldl account cursor = ⟨cursor.token,
      (stillOpen (List.replicate cursor.depth (.symbol .openParen)) outside).length, last⟩ := by
  have hfinal := foldl_account_eq h cursor.token
    (List.replicate cursor.depth (.symbol .openParen))
  rwa [List.length_replicate] at hfinal

/-- One token moves the depth by what it opens or closes outside of strings, but never below
    zero. -/
theorem depth_account (cursor : Cursor) (token : Token) :
    ((cursor.account token).depth : ℤ) =
      max 0 (cursor.depth + surplus (unquoted cursor.quote [token])) := by
  obtain ⟨last, hunquotes⟩ := exists_unquotes cursor.quote [token]
  have hstep : cursor.account token = _ := foldl_account_of_unquotes hunquotes
  rw [hstep]
  obtain hinside | houtside := unquoted_singleton cursor.quote token
  · simp [hinside, stillOpen, surplus]
  · rw [houtside, length_stillOpen_singleton, List.length_replicate]

theorem unquoted_cons (cursor : Cursor) (token : Token) (tokens : List Token) :
    unquoted cursor.quote (token :: tokens) =
      unquoted cursor.quote [token] ++ unquoted (cursor.account token).quote tokens := by
  obtain ⟨between, hfirst⟩ := exists_unquotes cursor.quote [token]
  obtain rfl : (cursor.account token).quote = between :=
    congrArg Cursor.quote (foldl_account_of_unquotes hfirst)
  obtain ⟨last, hrest⟩ := exists_unquotes (cursor.account token).quote tokens
  exact (hfirst.append hrest).eq_unquoted.symm

theorem surplusAt_zero (opened : Option Quote) (tokens : List Token) :
    surplusAt opened tokens 0 = 0 := by
  simp [surplusAt, unquoted, surplus]

theorem surplusAt_nil (opened : Option Quote) (k : ℕ) : surplusAt opened [] k = 0 := by
  rw [surplusAt, List.take_nil]
  exact surplusAt_zero opened []

theorem surplusAt_cons (cursor : Cursor) (token : Token) (tokens : List Token) (k : ℕ) :
    surplusAt cursor.quote (token :: tokens) (k + 1) =
      surplus (unquoted cursor.quote [token]) +
        surplusAt (cursor.account token).quote tokens k := by
  rw [surplusAt, List.take_succ_cons, unquoted_cons, surplus_append, surplusAt]

/-- The depth is the greatest of what the start and all tokens come to and of what the tokens from
    any place on come to: such a place is where a closing bracket finds nothing open. -/
theorem isGreatest_depth (cursor : Cursor) (tokens : List Token) :
    IsGreatest (insert (cursor.depth + surplusAt cursor.quote tokens tokens.length)
      ((fun k => surplusAt cursor.quote tokens tokens.length - surplusAt cursor.quote tokens k) ''
        Set.Iic tokens.length))
      ((tokens.foldl account cursor).depth : ℤ) := by
  -- The first token moves the start, and what the others come to is counted from behind it.
  induction tokens generalizing cursor with
  | nil =>
    simp only [surplusAt_nil, List.foldl_nil, add_zero, sub_zero]
    refine ⟨.inl rfl, ?_⟩
    rintro _ (rfl | ⟨k, -, rfl⟩)
    · exact Int.le_refl _
    · exact Int.natCast_nonneg _
  | cons token tokens ih =>
    have hdepth := depth_account cursor token
    have hcons := surplusAt_cons cursor token tokens
    have hzero := surplusAt_zero cursor.quote (token :: tokens)
    have hzero' := surplusAt_zero (cursor.account token).quote tokens
    obtain ⟨hmem, hbound⟩ := ih (cursor.account token)
    have hlast := hbound (.inl rfl)
    have hrest k (hk : k ≤ tokens.length) := hbound (.inr ⟨k, hk, rfl⟩)
    rw [List.foldl_cons, List.length_cons, hcons]
    constructor
    · obtain hall | ⟨k, hk, hmem⟩ := hmem
      · by_cases hclamped : cursor.depth + surplus (unquoted cursor.quote [token]) ≤ 0
        · -- The start is used up here, so the greatest begins behind this token.
          rw [max_eq_left hclamped] at hdepth
          refine .inr ⟨1, Nat.succ_le_succ (Nat.zero_le _), ?_⟩
          simp only [hcons 0]
          omega
        · rw [max_eq_right (Int.le_of_not_le hclamped)] at hdepth
          exact .inl (by omega)
      · refine .inr ⟨k + 1, Nat.succ_le_succ hk, ?_⟩
        rw [← hmem]
        simp only [hcons]
        omega
    · rintro _ (rfl | ⟨_ | k, hk, rfl⟩)
      · omega
      · simp only [hzero]
        omega
      · simp only [hcons]
        have hle := hrest k (Nat.le_of_succ_le_succ hk)
        simp only at hle
        omega

theorem depth_account_le (cursor : Cursor) (token : Token) :
    (cursor.account token).depth ≤ cursor.depth + 1 := by
  cases token with
  | text content => exact Nat.le_succ _
  | symbol s =>
    simp only [account, Token.symbol?, accountSymbol]
    split_ifs
    · exact Nat.le_succ _
    · exact Nat.le_refl _
    · exact (Nat.sub_le _ _).trans (Nat.le_succ _)
    · exact Nat.le_succ _

theorem depth_foldl_account_le (cursor : Cursor) (tokens : List Token) :
    (tokens.foldl account cursor).depth ≤ cursor.depth + tokens.length := by
  induction tokens generalizing cursor with
  | nil => exact Nat.le_refl _
  | cons token tokens ih =>
    calc (tokens.foldl account (cursor.account token)).depth
      _ ≤ (cursor.account token).depth + tokens.length := ih _
      _ ≤ cursor.depth + 1 + tokens.length := Nat.add_le_add_right (cursor.depth_account_le token) _
      _ = cursor.depth + (token :: tokens).length := by
        rw [List.length_cons]
        omega

/-- Tokens of which a cursor takes note do not move it. Its quote is that of the string that was
    opened last and not closed. Its depth is the number of brackets outside of strings that are
    still open when every closing one has cancelled an open one, if there was any, and it is no
    more than the start and the tokens can add up to. -/
theorem account_keeps_count (cursor : Cursor) (tokens : List Token) :
    let final := tokens.foldl account cursor
    let gain := surplusAt cursor.quote tokens
    final.token = cursor.token ∧
    (∀ quote, final.quote = some quote ↔ LeavesOpen cursor.quote tokens quote) ∧
    (∀ outside last, Unquotes cursor.quote tokens outside last ↔
      outside = unquoted cursor.quote tokens ∧ last = final.quote) ∧
    final.depth = (stillOpen (List.replicate cursor.depth (.symbol .openParen))
      (unquoted cursor.quote tokens)).length ∧
    IsGreatest (insert (cursor.depth + gain tokens.length)
      ((fun k => gain tokens.length - gain k) '' Set.Iic tokens.length)) (final.depth : ℤ) ∧
    final.depth ≤ cursor.depth + tokens.length := by
  intro final gain
  obtain ⟨last, hunquotes⟩ := exists_unquotes cursor.quote tokens
  have hfinal : final = _ := foldl_account_of_unquotes hunquotes
  have hiff (outside : List Token) (last' : Option Quote) :
      Unquotes cursor.quote tokens outside last' ↔
        outside = unquoted cursor.quote tokens ∧ last' = final.quote := by
    constructor
    · exact fun h => ⟨h.eq_unquoted, (congrArg Cursor.quote (foldl_account_of_unquotes h)).symm⟩
    · rintro ⟨rfl, rfl⟩
      rwa [hfinal]
  refine ⟨by rw [hfinal], fun quote => ?_, hiff, by rw [hfinal], cursor.isGreatest_depth tokens,
    cursor.depth_foldl_account_le tokens⟩
  rw [leavesOpen_iff]
  constructor
  · exact fun hopen => ⟨_, (hiff _ _).mpr ⟨rfl, hopen.symm⟩⟩
  · exact fun ⟨outside, h⟩ => ((hiff outside _).mp h).2.symm

/-- A bracket that closes nothing is forgotten, and one within a string does not count. -/
example : [Token.symbol .closeParen, .symbol .openSquare, .symbol .singleQuote, .symbol .openParen,
    .symbol .doubleQuote, .symbol .singleQuote, .symbol .openCurly].foldl account {} =
      ⟨0, 2, none⟩ := by
  decide

end

end Cursor

end CurlyScript
