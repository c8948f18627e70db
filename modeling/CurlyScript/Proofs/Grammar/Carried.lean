import CurlyScript.Proofs.Grammar.Extent

namespace CurlyScript

namespace TokenStream

/-- The tokens between two indices stand in another input too, side by side as they are here. A map
    takes each index to its place there, the last one included. -/
structure Carries (ts : TokenStream) (f : Nat → Nat) (ts' : TokenStream) (low high : Nat) :
    Prop where
  succ : ∀ i, low ≤ i → i < high → f (i + 1) = f i + 1
  token : ∀ i, low ≤ i → i < high → ts'[f i]? = ts[i]?

variable {ts ts' : TokenStream} {f : Nat → Nat} {low high i j n : Nat}

theorem Carries.add (hcarries : ts.Carries f ts' low high) (hlow : low ≤ i) (hhigh : i + n ≤ high) :
    f (i + n) = f i + n := by
  induction n with
  | zero => rfl
  | succ n ih =>
    rw [← Nat.add_assoc, hcarries.succ (i + n) (by omega) (by omega), ih (by omega), Nat.add_assoc]

/-- The order of the indices is kept. -/
theorem Carries.lt (hcarries : ts.Carries f ts' low high) (hlow : low ≤ i) (hlt : i < j)
    (hhigh : j ≤ high) : f i < f j := by
  obtain ⟨n, rfl⟩ := Nat.exists_eq_add_of_lt hlt
  rw [Nat.add_assoc, hcarries.add hlow hhigh]
  omega

theorem Carries.sees_eq (hcarries : ts.Carries f ts' low high) (hlow : low ≤ i) (hlt : i < high)
    (s : Symbol) : ts'.sees (f i) s = ts.sees i s := by
  rw [sees, sees, hcarries.token i hlow hlt]

theorem Carries.quoteAt?_eq (hcarries : ts.Carries f ts' low high) (hlow : low ≤ i)
    (hlt : i < high) : ts'.quoteAt? (f i) = ts.quoteAt? i := by
  rw [quoteAt?, quoteAt?, hcarries.token i hlow hlt]

theorem Carries.wordAt?_eq (hcarries : ts.Carries f ts' low high) (hlow : low ≤ i)
    (hlt : i < high) : ts'.wordAt? (f i) = ts.wordAt? i := by
  rw [wordAt?, wordAt?, hcarries.token i hlow hlt]

theorem Carries.hasParameters_eq (hcarries : ts.Carries f ts' low high) (hlow : low ≤ i)
    (hlt : i + 1 < high) : ts'.hasParameters (f i) = ts.hasParameters i := by
  rw [hasParameters, hasParameters, ← hcarries.succ i hlow (by omega),
    hcarries.sees_eq hlow (by omega), hcarries.sees_eq (Nat.le_succ_of_le hlow) hlt]

theorem Carries.seenAt_eq (hcarries : ts.Carries f ts' low high) (hlow : low ≤ i) (hlt : i < high)
    (delimiters : Delimiters) : delimiters.seenAt ts' (f i) = delimiters.seenAt ts i := by
  rw [Delimiters.seenAt, Delimiters.seenAt, hcarries.sees_eq hlow hlt, hcarries.sees_eq hlow hlt]

/-- Blanks that two inputs have in common are skipped in both. -/
theorem Carries.skipBlanks_through (hcarries : ts.Carries f ts' low high) (hlow : low ≤ i)
    (hle : ts.skipBlanks i ≤ high) :
    ts'.skipBlanks (f i) = ts'.skipBlanks (f (ts.skipBlanks i)) := by
  fun_induction skipBlanks ts i with
  | case1 i hlt hblank ih =>
    have hskip := ts.le_skipBlanks (i + 1)
    have hsame := hcarries.token i hlow (by omega)
    rw [Array.getElem?_eq_getElem hlt] at hsame
    obtain ⟨hlt', htoken⟩ := Array.getElem?_eq_some_iff.mp hsame
    rw [← ih (Nat.le_succ_of_le hlow) hle, hcarries.succ i hlow (by omega), skipBlanks,
      dif_pos hlt', htoken, if_pos hblank]
  | case2 i hlt hblank => rfl
  | case3 i hge => rfl

/-- What comes after blanks that two inputs have in common is the same if it is in both. -/
theorem Carries.skipBlanks_eq (hcarries : ts.Carries f ts' low high) (hlow : low ≤ i)
    (hlt : ts.skipBlanks i < high) : ts'.skipBlanks (f i) = f (ts.skipBlanks i) := by
  have hsame := hcarries.token _ (Nat.le_trans hlow (ts.le_skipBlanks i)) hlt
  have hstay := ts.skipBlanks_skipBlanks i
  rw [hcarries.skipBlanks_through hlow (Nat.le_of_lt hlt)]
  generalize ts.skipBlanks i = j at hsame hstay
  cases htoken : ts[j]? with
  | none =>
    rw [htoken, Array.getElem?_eq_none_iff] at hsame
    rw [skipBlanks, dif_neg (Nat.not_lt.mpr hsame)]
  | some token =>
    obtain ⟨hlt', rfl⟩ := Array.getElem?_eq_some_iff.mp htoken
    refine skipBlanks_eq_self (hsame.trans htoken) (Bool.eq_false_iff.mpr fun hblank => ?_)
    have hmoved := ts.le_skipBlanks (j + 1)
    rw [skipBlanks, dif_pos hlt', if_pos hblank] at hstay
    omega

theorem Carries.opening_parenthesis (hcarries : ts.Carries f ts' low high)
    (hlow : low ≤ i) (hlt : i < high) (hopening : ts.opening i = .parenthesis) :
    ts'.opening (f i) = .parenthesis := by
  have hparen : ts.sees i .openParen = true := shows_of_opening_eq hopening
  rw [← hcarries.sees_eq hlow hlt] at hparen
  exact opening_of_openParen hparen

theorem getElem?_extract_add (ts : TokenStream) (i n k : Nat) :
    (ts.extract i (i + n))[k]? = if k < n then ts[i + k]? else none := by
  rw [Array.getElem?_extract]
  by_cases hk : k < n
  · rw [if_pos hk]
    split
    · rfl
    · rw [Array.getElem?_eq_none (by omega)]
  · rw [if_neg hk, if_neg (by omega)]

/-- Tokens that are taken out of an input stand at lower indices there. -/
theorem carries_extract (ts : TokenStream) (low high : Nat) :
    ts.Carries (· - low) (ts.extract low high) low high where
  succ i hle _ := Nat.sub_add_comm hle
  token i hle hlt := by
    obtain ⟨k, rfl⟩ := Nat.exists_eq_add_of_le hle
    obtain ⟨n, rfl⟩ := Nat.exists_eq_add_of_le (Nat.le_of_lt (Nat.lt_of_le_of_lt hle hlt))
    rw [Nat.add_sub_cancel_left, getElem?_extract_add, if_pos (Nat.lt_of_add_lt_add_left hlt)]

/-- Tokens that two inputs have in common are the same when taken out of them. -/
theorem Carries.extract_eq (hcarries : ts.Carries f ts' low high) (hlow : low ≤ i) (hle : i ≤ j)
    (hhigh : j ≤ high) : ts'.extract (f i) (f j) = ts.extract i j := by
  obtain ⟨n, rfl⟩ := Nat.exists_eq_add_of_le hle
  rw [hcarries.add hlow hhigh]
  refine Array.ext_getElem? fun k => ?_
  rw [getElem?_extract_add, getElem?_extract_add]
  split
  · rw [← hcarries.add hlow (by omega), hcarries.token _ (by omega) (by omega)]
  · rfl

end TokenStream

end CurlyScript
