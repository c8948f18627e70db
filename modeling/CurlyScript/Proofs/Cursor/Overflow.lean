import CurlyScript.Proofs.Cursor.Accounting

namespace CurlyScript

namespace Cursor

/-- How many brackets are open behind the first `k` tokens. -/
def openAt (cursor : Cursor) (tokens : List Token) (k : ℕ) : ℕ :=
  (stillOpen (List.replicate cursor.depth (.symbol .openParen))
    (unquoted cursor.quote (tokens.take k))).length

/-- The number of brackets that are open fits into a word all the way. -/
def Fits (cursor : Cursor) (tokens : List Token) : Prop :=
  ∀ k ≤ tokens.length, cursor.openAt tokens k < 2 ^ 64

section

variable {cursor : Cursor} {token : Token} {tokens : List Token}

theorem depth_foldl_take (cursor : Cursor) (tokens : List Token) (k : ℕ) :
    ((tokens.take k).foldl account cursor).depth = cursor.openAt tokens k := by
  obtain ⟨last, hunquotes⟩ := exists_unquotes cursor.quote (tokens.take k)
  rw [foldl_account_of_unquotes hunquotes, openAt]

theorem openAt_zero (cursor : Cursor) (tokens : List Token) :
    cursor.openAt tokens 0 = cursor.depth :=
  (cursor.depth_foldl_take tokens 0).symm

theorem openAt_cons (cursor : Cursor) (token : Token) (tokens : List Token) (k : ℕ) :
    cursor.openAt (token :: tokens) (k + 1) = (cursor.account token).openAt tokens k := by
  rw [← depth_foldl_take, ← depth_foldl_take]
  rfl

theorem fits_nil_iff : cursor.Fits [] ↔ cursor.depth < 2 ^ 64 := by
  constructor
  · intro hfits
    rw [← openAt_zero cursor []]
    exact hfits 0 (Nat.le_refl 0)
  · intro hdepth k hk
    obtain rfl := Nat.le_zero.mp hk
    rwa [openAt_zero]

theorem fits_cons_iff :
    cursor.Fits (token :: tokens) ↔ cursor.depth < 2 ^ 64 ∧ (cursor.account token).Fits tokens := by
  constructor
  · intro hfits
    refine ⟨?_, fun k hk => ?_⟩
    · rw [← openAt_zero cursor (token :: tokens)]
      exact hfits 0 (Nat.zero_le _)
    · rw [← openAt_cons]
      exact hfits (k + 1) (Nat.succ_le_succ hk)
  · rintro ⟨hdepth, hfits⟩ (_ | k) hk
    · rwa [openAt_zero]
    · rw [openAt_cons]
      exact hfits k (Nat.le_of_succ_le_succ hk)

theorem Fits.depth_lt (hfits : cursor.Fits tokens) : cursor.depth < 2 ^ 64 := by
  rw [← openAt_zero cursor tokens]
  exact hfits 0 (Nat.zero_le _)

/-- Each token opens one bracket at most. So the cursors of a parse fit, which begin at zero, if a
    word can number the tokens. -/
theorem fits_of_length_lt (hlength : cursor.depth + tokens.length < 2 ^ 64) :
    cursor.Fits tokens := by
  intro k _
  rw [← depth_foldl_take]
  calc ((tokens.take k).foldl account cursor).depth
    _ ≤ cursor.depth + (tokens.take k).length := cursor.depth_foldl_account_le _
    _ ≤ cursor.depth + tokens.length := Nat.add_le_add_left (List.length_take_le' k tokens) _
    _ < 2 ^ 64 := hlength

end

end Cursor

namespace WordCursor

theorem toCursor_ofCursor {cursor : Cursor} (hdepth : cursor.depth < 2 ^ 64) :
    (ofCursor cursor).toCursor = cursor := by
  have hnat : cursor.depth.toUInt64.toNat = cursor.depth := UInt64.toNat_ofNat_of_lt hdepth
  rw [ofCursor, toCursor, hnat]

section

variable (checked inside : Bool) (depth : UInt64) (cursor : WordCursor) (token : Token)
  (tokens : List Token)

theorem map_toNat_increment :
    (increment checked depth).map UInt64.toNat =
      if depth.toNat + 1 < 2 ^ 64 then some (depth.toNat + 1)
      else if checked then none else some 0 := by
  have hlt := depth.toNat_lt
  have hmod : (depth + 1).toNat = (depth.toNat + 1) % 2 ^ 64 := UInt64.toNat_add depth 1
  by_cases hfits : depth.toNat + 1 < 2 ^ 64
  · rw [Nat.mod_eq_of_lt hfits] at hmod
    have hne : depth + 1 ≠ 0 := by
      intro h
      rw [h] at hmod
      cases hmod
    rw [if_pos hfits, increment, beq_false_of_ne hne, Bool.and_false, if_neg Bool.false_ne_true,
      Option.map_some, hmod]
  · have hzero : depth + 1 = 0 := by
      apply UInt64.toNat_inj.mp
      rw [hmod, show depth.toNat + 1 = 2 ^ 64 by omega]
      rfl
    rw [if_neg hfits, increment, hzero]
    cases checked <;> rfl

theorem toNat_decrement : (decrement depth).toNat = depth.toNat - 1 := by
  unfold decrement
  split
  · next h =>
    rw [beq_iff_eq] at h
    rw [h]
    rfl
  · next h =>
    rw [beq_iff_eq] at h
    have hle : 1 ≤ depth := by
      rw [UInt64.le_iff_toNat_le]
      exact Nat.pos_of_ne_zero fun hzero => h (UInt64.toNat_inj.mp hzero)
    exact UInt64.toNat_sub_of_le depth 1 hle

theorem map_toNat_count (s : Symbol) :
    (count checked inside depth s).map UInt64.toNat =
      let next :=
        if inside then depth.toNat
        else if s.isOpeningBracket then depth.toNat + 1
        else if s.isClosingBracket then depth.toNat - 1
        else depth.toNat
      if next < 2 ^ 64 then some next else if checked then none else some 0 := by
  have hlt := depth.toNat_lt
  unfold count
  cases inside with
  | true => exact (if_pos hlt).symm
  | false =>
    cases s.isOpeningBracket with
    | true => exact map_toNat_increment checked depth
    | false =>
      cases s.isClosingBracket with
      | true =>
        have hdecrement : (some (decrement depth)).map UInt64.toNat = some (depth.toNat - 1) :=
          congrArg some (toNat_decrement depth)
        exact hdecrement.trans (if_pos ((Nat.sub_le _ 1).trans_lt hlt)).symm
      | false => exact (if_pos hlt).symm

/-- A machine takes the step of the numbers if the depth behind it fits into a word. If not, the
    depth was the largest word. -/
theorem map_toCursor_account :
    (cursor.account checked token).map toCursor =
      let next := cursor.toCursor.account token
      if next.depth < 2 ^ 64 then some next
      else if checked then none else some { next with depth := 0 } := by
  cases token with
  | text content => exact (if_pos cursor.depth.toNat_lt).symm
  | symbol s =>
    have hshape (depth : Option UInt64) (quote : Option Quote) :
        (depth.map fun depth => { cursor with depth, quote }).map toCursor =
          (depth.map UInt64.toNat).map fun depth => { cursor.toCursor with depth, quote } := by
      cases depth <;> rfl
    have hcases (quote : Option Quote) (next : ℕ) :
        (if next < 2 ^ 64 then some next else if checked then none else some 0).map
            (fun depth => { cursor.toCursor with depth, quote }) =
          if next < 2 ^ 64 then some { cursor.toCursor with depth := next, quote }
          else if checked then none else some { cursor.toCursor with depth := 0, quote } := by
      split
      · rfl
      · cases checked <;> rfl
    cases hquote : s.quote?
    all_goals
      simp only [account, Cursor.account, Token.symbol?, accountSymbol, Cursor.accountSymbol,
        hquote]
      rw [hshape, map_toNat_count, hcases]
      rfl

variable {cursor token tokens}

theorem exists_account (hfits : (cursor.toCursor.account token).depth < 2 ^ 64) :
    ∃ next, cursor.account checked token = some next ∧
      next.toCursor = cursor.toCursor.account token := by
  have hstep := map_toCursor_account checked cursor token
  simp only [if_pos hfits] at hstep
  exact Option.map_eq_some_iff.mp hstep

theorem exists_account_of_fits (hfits : cursor.toCursor.Fits (token :: tokens)) :
    ∃ next, cursor.account checked token = some next ∧
      next.toCursor = cursor.toCursor.account token ∧ next.toCursor.Fits tokens := by
  obtain ⟨-, hrest⟩ := Cursor.fits_cons_iff.mp hfits
  obtain ⟨next, hnext, hcursor⟩ := exists_account checked hrest.depth_lt
  exact ⟨next, hnext, hcursor, by rwa [hcursor]⟩

/-- A machine keeps the count of the numbers as long as that fits into a word. -/
theorem exists_foldlM_account (hfits : cursor.toCursor.Fits tokens) :
    ∃ final, tokens.foldlM (account checked) cursor = some final ∧
      final.toCursor = tokens.foldl Cursor.account cursor.toCursor := by
  induction tokens generalizing cursor with
  | nil => exact ⟨cursor, rfl, rfl⟩
  | cons token tokens ih =>
    obtain ⟨next, hnext, hcursor, hrest⟩ := exists_account_of_fits checked hfits
    obtain ⟨final, hrun, hfinal⟩ := ih hrest
    refine ⟨final, ?_, ?_⟩
    · rw [List.foldlM_cons, hnext]
      exact hrun
    · rw [hfinal, hcursor, List.foldl_cons]

theorem map_toCursor_trail (hfits : cursor.toCursor.Fits tokens) :
    (cursor.trail checked tokens).map toCursor =
      tokens.scanl Cursor.account cursor.toCursor := by
  induction tokens generalizing cursor with
  | nil => rfl
  | cons token tokens ih =>
    obtain ⟨next, hnext, hcursor, hrest⟩ := exists_account_of_fits checked hfits
    simp only [trail, hnext, List.map_cons, List.scanl_cons, ← hcursor, ih hrest]

/-- A machine that checks its arithmetic stops if there are too many open brackets somewhere, and
    only then. -/
theorem foldlM_account_eq_none_iff :
    tokens.foldlM (account true) cursor = none ↔ ¬ cursor.toCursor.Fits tokens := by
  constructor
  · intro hnone hfits
    obtain ⟨final, hsome, -⟩ := exists_foldlM_account true hfits
    rw [hnone] at hsome
    cases hsome
  · intro hnot
    induction tokens generalizing cursor with
    | nil => exact absurd (Cursor.fits_nil_iff.mpr cursor.depth.toNat_lt) hnot
    | cons token tokens ih =>
      by_cases hfits : (cursor.toCursor.account token).depth < 2 ^ 64
      · obtain ⟨next, hnext, hcursor⟩ := exists_account true hfits
        rw [List.foldlM_cons, hnext]
        refine ih fun hrest => hnot (Cursor.fits_cons_iff.mpr ⟨cursor.depth.toNat_lt, ?_⟩)
        rwa [← hcursor]
      · have hstep := map_toCursor_account true cursor token
        simp only [if_neg hfits] at hstep
        rw [List.foldlM_cons, Option.map_eq_none_iff.mp hstep]
        rfl

/-- Tokens of which a machine takes note do not move its cursor. The quote is that of the string
    that was opened last and not closed. The depth is the number of brackets outside of strings that
    are still open when every closing one has cancelled an open one, if there was any. The machine
    gets there, and does not begin at zero again, if this number fits into a word all the way. -/
theorem account_counts_what_fits (checked : Bool) (cursor : WordCursor) (tokens : List Token)
    (hfits : cursor.toCursor.Fits tokens) :
    ∃ final, tokens.foldlM (account checked) cursor = some final ∧
      final.token = cursor.token ∧
      (∀ quote, final.quote = some quote ↔ LeavesOpen cursor.quote tokens quote) ∧
      (∀ outside last, Unquotes cursor.quote tokens outside last ↔
        outside = unquoted cursor.quote tokens ∧ last = final.quote) ∧
      final.depth.toNat = (stillOpen (List.replicate cursor.depth.toNat (.symbol .openParen))
        (unquoted cursor.quote tokens)).length ∧
      let gain := surplusAt cursor.quote tokens
      IsGreatest (insert (cursor.depth.toNat + gain tokens.length)
        ((fun k => gain tokens.length - gain k) '' Set.Iic tokens.length))
        (final.depth.toNat : ℤ) := by
  obtain ⟨final, hrun, hfinal⟩ := exists_foldlM_account checked hfits
  obtain ⟨htoken, hquote, hunquotes, hdepth, hgreatest, -⟩ :=
    cursor.toCursor.account_keeps_count tokens
  rw [← hfinal] at htoken hquote hunquotes hdepth hgreatest
  exact ⟨final, hrun, htoken, hquote, hunquotes, hdepth, hgreatest⟩

/-- The second bracket closes nothing, and the last one is within a string. -/
theorem account_counts_what_fits_before_string :
    ∃ tokens : List Token, tokens = [.symbol .closeParen, .symbol .closeParen,
        .symbol .openSquare, .symbol .singleQuote, .symbol .openParen] ∧
      Cursor.Fits ⟨4, 1, none⟩ tokens ∧
      tokens.foldlM (account true) ⟨4, 1, none⟩ = some ⟨4, 1, some .single⟩ ∧
      LeavesOpen none tokens .single ∧
      (stillOpen [.symbol .openParen] (unquoted none tokens)).length = 1 ∧
      IsGreatest (insert (1 + surplusAt none tokens tokens.length)
        ((fun k => surplusAt none tokens tokens.length - surplusAt none tokens k) ''
          Set.Iic tokens.length)) 1 := by
  obtain ⟨tokens, htokens⟩ : ∃ tokens : List Token, tokens = [.symbol .closeParen,
      .symbol .closeParen, .symbol .openSquare, .symbol .singleQuote, .symbol .openParen] :=
    ⟨_, rfl⟩
  have hfits : Cursor.Fits ⟨4, 1, none⟩ tokens := by
    apply Cursor.fits_of_length_lt
    rw [htokens]
    decide
  have hrun : tokens.foldlM (account true) ⟨4, 1, none⟩ = some ⟨4, 1, some .single⟩ := by
    rw [htokens]
    rfl
  obtain ⟨final, hfinal, -, hquote, -, hdepth, hgreatest⟩ :=
    account_counts_what_fits true ⟨4, 1, none⟩ tokens hfits
  obtain rfl : ⟨4, 1, some .single⟩ = final := Option.some.inj (hrun.symm.trans hfinal)
  exact ⟨tokens, htokens, hfits, hrun, (hquote .single).mp rfl, hdepth.symm, hgreatest⟩

/-- The largest word has no room for another bracket. -/
theorem account_past_largest_word :
    (stillOpen (List.replicate 18446744073709551615 (.symbol .openParen))
        (unquoted none [.symbol .openParen])).length = 18446744073709551616 ∧
      [Token.symbol .openParen].foldlM (account true) ⟨0, 18446744073709551615, none⟩ = none ∧
      [Token.symbol .openParen].foldlM (account false) ⟨0, 18446744073709551615, none⟩ =
        some ⟨0, 0, none⟩ ∧
      (0 : UInt64).toNat ≠ 18446744073709551616 := by
  have hlength (depth : ℕ) : (stillOpen (List.replicate depth (.symbol .openParen))
      (unquoted none [.symbol .openParen])).length = depth + 1 := by
    have hmore : stillOpen (List.replicate depth (.symbol .openParen))
        (unquoted none [.symbol .openParen]) =
          .symbol .openParen :: List.replicate depth (.symbol .openParen) := rfl
    rw [hmore, List.length_cons, List.length_replicate]
  exact ⟨hlength 18446744073709551615, rfl, rfl, by decide⟩

end

end WordCursor

/-- The cursors that are shown are those of the numbers as long as these fit. -/
theorem Cursor.trail_eq_scanl {cursor : Cursor} {tokens : List Token}
    (hfits : cursor.Fits tokens) : cursor.trail tokens = tokens.scanl account cursor := by
  have hcursor := WordCursor.toCursor_ofCursor hfits.depth_lt
  rw [trail, WordCursor.map_toCursor_trail false (by rwa [hcursor]), hcursor]

end CurlyScript
