import CurlyScript.Proofs.Grammar.Extent

namespace CurlyScript

/-- The bracket that a closing bracket belongs to by its shape. -/
def Symbol.opener? : Symbol → Option Symbol
  | .closeParen => some .openParen
  | .closeSquare => some .openSquare
  | .closeCurly => some .openCurly
  | _ => none

/-- Neither a bracket nor a quote. -/
def Token.isNeutral : Token → Bool
  | .text _ => true
  | .symbol s => s.quote?.isNone && !s.isOpeningBracket && !s.isClosingBracket

namespace TokenStream

/-- What is open after some tokens if every one of them is taken note of in turn. -/
def scan (ts : TokenStream) (start stop : Nat) : Cursor :=
  (ts.extract start stop).toList.foldl Cursor.account (.fresh start)

/-- In a scan, the bracket at `k` closes the one at `j`: they are of one shape, and from the one to
    the other nothing that was open before is closed. -/
structure Closes (ts : TokenStream) (start j k : Nat) : Prop where
  start_le : start ≤ j
  lt : j < k
  shape : ∃ opener closer, ts.sees j opener = true ∧ ts.sees k closer = true ∧
    closer.opener? = some opener
  outside : (ts.scan start j).quote = none
  depth_eq : (ts.scan start k).depth = (ts.scan start j).depth + 1
  lt_depth : ∀ m, j < m → m ≤ k → (ts.scan start j).depth < (ts.scan start m).depth

/-- A part of a scan leaves open what was open before it, and each bracket that is closed in it
    was opened in it. -/
structure Settles (ts : TokenStream) (start i j : Nat) : Prop where
  scan_eq : ts.scan start j = ts.scan start i
  le_depth : ∀ k, i ≤ k → k ≤ j → (ts.scan start i).depth ≤ (ts.scan start k).depth
  closes : ∀ k s, i ≤ k → k < j → ts.sees k s = true → s.isClosingBracket = true →
    (ts.scan start k).quote = none → ∃ m, ts.Closes start m k

/-- The tokens between two indices hold whole strings and brackets with their partners, so that
    every scan that comes to them outside of a string has nothing more to close behind them. -/
structure Balanced (ts : TokenStream) (i j : Nat) : Prop where
  le : i ≤ j
  le_size : i ≤ ts.size → j ≤ ts.size
  settles : ∀ start, start ≤ i → (ts.scan start i).quote = none → ts.Settles start i j

variable {ts : TokenStream} {start i j k : Nat} {token : Token}

theorem scan_self (ts : TokenStream) (start : Nat) : ts.scan start start = .fresh start := by
  simp [scan]

theorem scan_succ (hle : start ≤ k) (htoken : ts[k]? = some token) :
    ts.scan start (k + 1) = (ts.scan start k).account token := by
  obtain ⟨hlt, rfl⟩ := Array.getElem?_eq_some_iff.mp htoken
  have hextract : ts.extract start (k + 1) = (ts.extract start k).push ts[k] := by
    rw [Array.push_extract_getElem]
    congr 1
    omega
  rw [scan, hextract, Array.toList_push, List.foldl_concat, scan]

end TokenStream

theorem Cursor.account_of_isNeutral {token : Token} (hneutral : token.isNeutral = true)
    {cursor : Cursor} (hquote : cursor.quote = none) : cursor.account token = cursor := by
  obtain ⟨i, depth, quote⟩ := cursor
  subst hquote
  cases token with
  | text content => rfl
  | symbol s => cases s <;> first | rfl | cases hneutral

theorem Cursor.account_quote {token : Token} {quote : Quote} (htoken : token.quote? = some quote)
    {cursor : Cursor} (hquote : cursor.quote = none) :
    cursor.account token = { cursor with quote := some quote } := by
  obtain ⟨i, depth, opened⟩ := cursor
  subst hquote
  cases token with
  | text content => cases htoken
  | symbol s => cases s <;> cases htoken <;> rfl

theorem Cursor.account_quoted (cursor : Cursor) (quote : Quote) (token : Token) :
    Cursor.account { cursor with quote := some quote } token =
      { cursor with quote := if token.quote? = some quote then none else some quote } := by
  cases token with
  | text content => rfl
  | symbol s => cases s <;> cases quote <;> rfl

theorem Cursor.account_opener {opener closer : Symbol} (hshape : closer.opener? = some opener)
    {cursor : Cursor} (hquote : cursor.quote = none) :
    cursor.account (.symbol opener) = { cursor with depth := cursor.depth + 1 } := by
  obtain ⟨i, depth, quote⟩ := cursor
  subst hquote
  cases closer <;> cases hshape <;> rfl

theorem Cursor.account_closer {opener closer : Symbol} (hshape : closer.opener? = some opener)
    {cursor : Cursor} (hquote : cursor.quote = none) :
    cursor.account (.symbol closer) = { cursor with depth := cursor.depth - 1 } := by
  obtain ⟨i, depth, quote⟩ := cursor
  subst hquote
  cases closer <;> cases hshape <;> rfl

namespace TokenStream

variable {ts : TokenStream} {start i j k : Nat} {token : Token}

theorem Settles.refl (ts : TokenStream) (start i : Nat) : ts.Settles start i i where
  scan_eq := rfl
  le_depth k hle hge := by
    obtain rfl := Nat.le_antisymm hle hge
    exact Nat.le_refl _
  closes k s hle hlt := absurd hle (Nat.not_le.mpr hlt)

theorem Settles.trans (hfirst : ts.Settles start i j) (hrest : ts.Settles start j k) :
    ts.Settles start i k where
  scan_eq := hrest.scan_eq.trans hfirst.scan_eq
  le_depth m hle hge := by
    by_cases hm : m ≤ j
    · exact hfirst.le_depth m hle hm
    · rw [← hfirst.scan_eq]
      exact hrest.le_depth m (by omega) hge
  closes m s hle hlt := by
    by_cases hm : m < j
    · exact hfirst.closes m s hle hm
    · exact hrest.closes m s (by omega) hlt

theorem Balanced.refl (ts : TokenStream) (i : Nat) : ts.Balanced i i :=
  ⟨Nat.le_refl i, id, fun start _ _ => .refl ts start i⟩

theorem Balanced.trans (hfirst : ts.Balanced i j) (hrest : ts.Balanced j k) :
    ts.Balanced i k where
  le := Nat.le_trans hfirst.le hrest.le
  le_size hle := hrest.le_size (hfirst.le_size hle)
  settles start hstart houtside := by
    have hbefore := hfirst.settles start hstart houtside
    have houtside' : (ts.scan start j).quote = none := by rw [hbefore.scan_eq, houtside]
    exact hbefore.trans (hrest.settles start (Nat.le_trans hstart hfirst.le) houtside')

theorem isNeutral_eq_false_of_isClosingBracket {s : Symbol} (hs : s.isClosingBracket = true) :
    (Token.symbol s).isNeutral = false := by
  simp [Token.isNeutral, hs]

theorem balanced_token (htoken : ts[i]? = some token) (hneutral : token.isNeutral = true) :
    ts.Balanced i (i + 1) where
  le := Nat.le_succ i
  le_size _ := (Array.getElem?_eq_some_iff.mp htoken).1
  settles start hstart houtside := by
    have hnext := scan_succ hstart htoken
    rw [Cursor.account_of_isNeutral hneutral houtside] at hnext
    refine ⟨hnext, fun k hle hge => ?_, fun k s hle hlt hsees hs => ?_⟩
    · obtain rfl | hk := Nat.eq_or_lt_of_le hle
      · exact Nat.le_refl _
      · obtain rfl := Nat.le_antisymm hge hk
        rw [hnext]
    · obtain rfl := Nat.le_antisymm (Nat.le_of_lt_succ hlt) hle
      rw [sees_iff, htoken, Option.some.injEq] at hsees
      rw [hsees, isNeutral_eq_false_of_isClosingBracket hs] at hneutral
      cases hneutral

theorem balanced_symbol {s : Symbol} (hsees : ts.sees i s = true)
    (hneutral : (Token.symbol s).isNeutral = true) : ts.Balanced i (i + 1) :=
  balanced_token (sees_iff.mp hsees) hneutral

theorem isNeutral_of_isWhitespace {token : Token} (hblank : token.isWhitespace = true) :
    token.isNeutral = true := by
  cases token with
  | text content => rfl
  | symbol s => cases s <;> first | rfl | cases hblank

theorem balanced_skipBlanks (ts : TokenStream) (i : Nat) : ts.Balanced i (ts.skipBlanks i) := by
  fun_induction skipBlanks ts i with
  | case1 i hlt hblank ih =>
    have hneutral := isNeutral_of_isWhitespace hblank
    exact (balanced_token (Array.getElem?_eq_getElem hlt) hneutral).trans ih
  | case2 i | case3 i => exact .refl ts i

/-- Inside a string a scan takes note of nothing up to the closing quote. -/
theorem scan_of_closesAt {quote : Quote} {close : Nat} (hstart : start ≤ i)
    (hquote : (ts.scan start i).quote = some quote) (hcloses : ts.ClosesAt quote i close)
    (hle : i ≤ k) (hge : k ≤ close) : ts.scan start k = ts.scan start i := by
  induction k, hle using Nat.le_induction with
  | base => rfl
  | succ k hle ih =>
    have hlt := Nat.lt_of_lt_of_le (Nat.lt_of_succ_le hge)
      (Nat.le_of_lt (lt_size_of_quoteAt? hcloses.2.1))
    have hother := hcloses.2.2 k hle hge
    rw [quoteAt?_of_lt hlt] at hother
    have hsame : ts.scan start i = { ts.scan start i with quote := some quote } := by rw [← hquote]
    rw [scan_succ (Nat.le_trans hstart hle) (Array.getElem?_eq_getElem hlt), ih (Nat.le_of_lt hge),
      hsame, Cursor.account_quoted, if_neg hother]

theorem balanced_string {quote : Quote} {close : Nat} (hquote : ts.quoteAt? i = some quote)
    (hcloses : ts.ClosesAt quote (i + 1) close) : ts.Balanced i (close + 1) where
  le := by
    have hle := hcloses.1
    omega
  le_size _ := lt_size_of_quoteAt? hcloses.2.1
  settles start hstart houtside := by
    have hlt := lt_size_of_quoteAt? hquote
    have hend := lt_size_of_quoteAt? hcloses.2.1
    have hfirst := scan_succ hstart (Array.getElem?_eq_getElem hlt)
    rw [quoteAt?_of_lt hlt] at hquote
    rw [Cursor.account_quote hquote houtside] at hfirst
    have hinside (k : Nat) (hle : i + 1 ≤ k) (hge : k ≤ close) :
        ts.scan start k = { ts.scan start i with quote := some quote } := by
      rw [← hfirst]
      exact scan_of_closesAt (Nat.le_succ_of_le hstart) (by rw [hfirst]) hcloses hle hge
    have hlast := scan_succ (Nat.le_trans (Nat.le_succ_of_le hstart) hcloses.1)
      (Array.getElem?_eq_getElem hend)
    have hclose := hcloses.2.1
    rw [quoteAt?_of_lt hend] at hclose
    rw [hinside close hcloses.1 (Nat.le_refl _), Cursor.account_quoted, if_pos hclose,
      ← houtside] at hlast
    refine ⟨hlast, fun k hle hge => ?_, fun k s hle hlt hsees hs houtside' => ?_⟩
    · obtain rfl | hk := Nat.eq_or_lt_of_le hle
      · exact Nat.le_refl _
      · obtain rfl | hge := Nat.eq_or_lt_of_le hge
        · rw [hlast]
        · rw [hinside k hk (Nat.le_of_lt_succ hge)]
    · obtain rfl | hk := Nat.eq_or_lt_of_le hle
      · rw [← quoteAt?_of_lt ‹_›, quoteAt?_of_sees hsees] at hquote
        cases s <;> cases hs <;> cases hquote
      · rw [hinside k hk (Nat.le_of_lt_succ hlt)] at houtside'
        cases houtside'

theorem scan_opener {opener closer : Symbol} (hshape : closer.opener? = some opener)
    (hopen : ts.sees i opener = true) (hstart : start ≤ i)
    (houtside : (ts.scan start i).quote = none) :
    ts.scan start (i + 1) = { ts.scan start i with depth := (ts.scan start i).depth + 1 } := by
  rw [scan_succ hstart (sees_iff.mp hopen), Cursor.account_opener hshape houtside]

/-- The closing bracket behind a balanced part closes the opening one before it. -/
theorem Balanced.closes {opener closer : Symbol} (hshape : closer.opener? = some opener)
    (hopen : ts.sees i opener = true) (hinner : ts.Balanced (i + 1) k)
    (hclose : ts.sees k closer = true) (hstart : start ≤ i)
    (houtside : (ts.scan start i).quote = none) :
    ts.Closes start i k ∧ (ts.scan start k).quote = none := by
  have hfirst := scan_opener hshape hopen hstart houtside
  have hbody := hinner.settles start (Nat.le_succ_of_le hstart) (by rw [hfirst, houtside])
  have hscan := hbody.scan_eq
  have hdepth := hbody.le_depth
  rw [hfirst] at hscan hdepth
  refine ⟨⟨hstart, hinner.le, ⟨opener, closer, hopen, hclose, hshape⟩, houtside, by rw [hscan],
    fun m hm hm' => hdepth m hm hm'⟩, by rw [hscan, houtside]⟩

theorem Balanced.enclosed {opener closer : Symbol} (hshape : closer.opener? = some opener)
    (hopen : ts.sees i opener = true) (hinner : ts.Balanced (i + 1) k)
    (hclose : ts.sees k closer = true) : ts.Balanced i (k + 1) where
  le := Nat.le_succ_of_le (Nat.le_of_succ_le hinner.le)
  le_size _ := lt_size_of_sees hclose
  settles start hstart houtside := by
    have hle := hinner.le
    obtain ⟨hcloses, hopened⟩ := hinner.closes hshape hopen hclose hstart houtside
    have hfirst := scan_opener hshape hopen hstart houtside
    have hbody := hinner.settles start (Nat.le_succ_of_le hstart) (by rw [hfirst, houtside])
    have hscan := hbody.scan_eq
    rw [hfirst] at hscan
    have hlast := scan_succ (Nat.le_trans (Nat.le_succ_of_le hstart) hle) (sees_iff.mp hclose)
    rw [Cursor.account_closer hshape hopened, hscan, Nat.add_sub_cancel] at hlast
    refine ⟨hlast, fun m hm hm' => ?_, fun m s hm hm' hsees hs houtside' => ?_⟩
    · obtain rfl | hm := Nat.eq_or_lt_of_le hm
      · exact Nat.le_refl _
      · obtain rfl | hm' := Nat.eq_or_lt_of_le hm'
        · rw [hlast]
        · exact Nat.le_of_lt (hcloses.lt_depth m hm (Nat.le_of_lt_succ hm'))
    · obtain rfl | hm := Nat.eq_or_lt_of_le hm
      · rw [sees_iff, sees_iff.mp hopen, Option.some.injEq, Token.symbol.injEq] at hsees
        subst hsees
        cases closer <;> cases hshape <;> cases hs
      · obtain rfl | hm' := Nat.eq_or_lt_of_le (Nat.le_of_lt_succ hm')
        · exact ⟨i, hcloses⟩
        · exact hbody.closes m s hm hm' hsees hs houtside'

end TokenStream

end CurlyScript
