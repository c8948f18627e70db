import CurlyScript.Proofs.Grammar.Portability

namespace CurlyScript

/-- Tokens between so many opening parentheses and as many closing ones. -/
def TokenStream.parenthesised (k : Nat) (tokens : List Token) : TokenStream :=
  (List.replicate k (Token.symbol .openParen) ++ tokens ++
    List.replicate k (Token.symbol .closeParen)).toArray

section

variable {ts ts' : TokenStream} {i j k next : Nat} {node : Node}

/-- Parentheses that only group take two levels: they are looked at as a callee first, and a callee
    asks for what they hold one level deeper than they would on their own. -/
theorem Request.fits_grouping_iff {levels : Nat} (hparen : ts.sees i .openParen = true)
    (hinner : Reads ts (i + 1) node next)
    (hcall : ts.sees (ts.skipBlanks (ts.skipBlanks next + 1)) .openParen = false) :
    Request.Fits ts levels ⟨i, none⟩ ↔ Request.Fits ts (levels - 2) ⟨i + 1, none⟩ := by
  cases levels with
  | zero => exact Iff.rfl
  | succ levels =>
    have hskip := TokenStream.skipBlanks_of_sees hparen rfl
    rw [fits_iff_opening (TokenStream.lt_size_of_sees hparen), hskip,
      TokenStream.opening_of_openParen hparen, Opening.Fits]
    refine and_iff_left fun inner hverdict _ hcalled => ?_
    rw [(agrees ts (i + 1)).verdict_eq hinner, Except.ok.injEq] at hverdict
    rw [← hverdict, Cursor.fresh_token, hcall] at hcalled
    cases hcalled

/-- Parentheses around a node, as many as there are, leave the node as it is. They take two levels
    each. -/
theorem Reads.in_parentheses (hopens : ts.Holds i (List.replicate k (.symbol .openParen)))
    (hcloses : ts.Holds j (List.replicate k (.symbol .closeParen))) (hstops : ts.StopsAt (j + k))
    (hreads : Reads ts (i + k) node j) :
    Reads ts i node (j + k) ∧ ∀ levels, Request.Fits ts levels ⟨i, none⟩ ↔
      Request.Fits ts (levels - 2 * k) ⟨i + k, none⟩ := by
  induction k generalizing i with
  | zero => exact ⟨hreads, fun _ => Iff.rfl⟩
  | succ k ih =>
    obtain ⟨hopen, hopens⟩ := hopens
    rw [List.replicate_succ'] at hcloses
    obtain ⟨hcloses, hclose, -⟩ := TokenStream.holds_append.mp hcloses
    rw [List.length_replicate, ← TokenStream.sees_iff] at hclose
    rw [← TokenStream.sees_iff] at hopen
    have hblank := TokenStream.skipBlanks_of_sees hopen rfl
    have hblank' := TokenStream.skipBlanks_of_sees hclose rfl
    have hends : ts.StopsAt (j + k) := .of_sees (by rwa [hblank']) (by decide)
    rw [← Nat.add_assoc, Nat.add_right_comm] at hreads
    obtain ⟨hinner, hfits⟩ := ih hopens hcloses hends hreads
    have hcall : ts.sees (ts.skipBlanks (ts.skipBlanks (j + k) + 1)) .openParen = false := by
      rw [hblank']
      exact hstops.sees_eq_false (by decide)
    refine ⟨?_, fun levels => ?_⟩
    · have hopening := TokenStream.opening_of_openParen hopen
      rw [← hblank] at hopening hinner
      have hgrouping := Reads.grouping hopening hinner (by rwa [hblank']) hcall
      rwa [hblank'] at hgrouping
    · rw [Request.fits_grouping_iff hopen hinner hcall, hfits, Nat.sub_sub, Nat.add_right_comm,
        Nat.mul_succ, Nat.add_comm 2, Nat.add_assoc i]

namespace TokenStream

variable {low high : Nat} {tokens : List Token}

/-- Tokens that stand further behind in another input are carried back from there. -/
theorem Carries.back (hcarries : ts.Carries (· + k) ts' low high) :
    ts'.Carries (· - k) ts (low + k) (high + k) where
  succ m hle _ := Nat.sub_add_comm (Nat.le_of_add_left_le hle)
  token m hle hlt := by
    obtain ⟨n, rfl⟩ := Nat.exists_eq_add_of_le' (Nat.le_of_add_left_le hle)
    rw [Nat.add_sub_cancel]
    exact (hcarries.token n (by omega) (by omega)).symm

theorem carries_parenthesised (k : Nat) (tokens : List Token) :
    TokenStream.Carries tokens.toArray (· + k) (parenthesised k tokens) 0 tokens.length where
  succ m _ _ := Nat.add_right_comm m 1 k
  token m _ hlt := by
    simp [parenthesised, List.getElem?_append, hlt]

theorem holds_openParens (k : Nat) (tokens : List Token) :
    (parenthesised k tokens).Holds 0 (List.replicate k (.symbol .openParen)) := by
  rw [parenthesised, List.append_assoc]
  exact holds_toArray [] _ _

theorem holds_closeParens (k : Nat) (tokens : List Token) :
    (parenthesised k tokens).Holds (tokens.length + k)
      (List.replicate k (.symbol .closeParen)) := by
  have hholds := holds_toArray (List.replicate k (Token.symbol .openParen) ++ tokens)
    (List.replicate k (.symbol .closeParen)) []
  rwa [List.append_nil, List.length_append, List.length_replicate, Nat.add_comm k] at hholds

theorem size_parenthesised (k : Nat) (tokens : List Token) :
    (parenthesised k tokens).size = tokens.length + k + k := by
  simp [parenthesised]
  omega

/-- What is put in parentheses ends before the closing ones or, without any, with the input. -/
theorem stopsAt_parenthesised (k : Nat) (tokens : List Token) :
    (parenthesised k tokens).StopsAt (tokens.length + k) := by
  obtain _ | k := k
  · exact stopsAt_of_size_le (Nat.le_of_eq (size_parenthesised 0 tokens))
  · have hclose := sees_of_holds (holds_closeParens (k + 1) tokens)
    exact .of_sees (by rwa [skipBlanks_of_sees hclose rfl]) (by decide)

end TokenStream

/-- What takes up all tokens is read in parentheses as well, and they take two levels each. -/
theorem Reads.parenthesised {tokens : List Token}
    (hreads : Reads tokens.toArray 0 node tokens.length) (hsolid : node.Solid) (k : Nat) :
    Reads (.parenthesised k tokens) 0 (node.moved (· + k)) (tokens.length + k + k) ∧
      ∀ levels, Request.Fits (.parenthesised k tokens) levels ⟨0, none⟩ ↔
        Request.Fits tokens.toArray (levels - 2 * k) ⟨0, none⟩ := by
  have hcarries := TokenStream.carries_parenthesised k tokens
  have hthere := hreads.carried hsolid hcarries (Nat.le_refl _) (Nat.le_refl _)
    (TokenStream.stopsAt_parenthesised k tokens).not_goesOn
  -- Back from the parentheses the node is moved once more, but only its levels matter.
  have hends : TokenStream.StopsAt tokens.toArray (tokens.length + k - k) :=
    TokenStream.stopsAt_of_size_le (by simp)
  have hback := hthere.reads.carried (hsolid.moved _) hcarries.back (Nat.le_refl _) (Nat.le_refl _)
    hends.not_goesOn
  have hfits (levels : Nat) : Request.Fits (.parenthesised k tokens) levels ⟨0 + k, none⟩ ↔
      Request.Fits tokens.toArray levels ⟨0, none⟩ := by
    refine ⟨fun h => ?_, hthere.fits levels⟩
    have hthere' := hback.fits levels h
    rwa [Nat.add_sub_cancel] at hthere'
  obtain ⟨hgrouped, hlevels⟩ := hthere.reads.in_parentheses
    (TokenStream.holds_openParens k tokens) (TokenStream.holds_closeParens k tokens)
    (TokenStream.stopsAt_of_size_le (Nat.le_of_eq (TokenStream.size_parenthesised k tokens)))
  exact ⟨hgrouped, fun levels => (hlevels levels).trans (hfits _)⟩

/-- Parentheses around an input, as many as there are, change nothing but where the node stands.
    They take two levels each, no more and no less. -/
theorem Session.parse_parenthesised {tokens : List Token} {limit : Nat} {parsed : Parsed}
    (hparse : (Session.parse ⟨tokens.toArray, limit, {}⟩ ⟨0, none⟩).1 = .ok parsed)
    (hsolid : parsed.node.Solid) (hall : parsed.cursor.token = tokens.length) (k : Nat) :
    (Session.parse ⟨.parenthesised k tokens, limit + 2 * k, {}⟩ ⟨0, none⟩).1 =
        .ok ⟨parsed.node.moved (· + k), .fresh (tokens.length + 2 * k)⟩ ∧
      ∀ low other, (Session.parse ⟨.parenthesised k tokens, low, {}⟩ ⟨0, none⟩).1 = .ok other →
        2 * k ≤ low ∧
          (Session.parse ⟨tokens.toArray, low - 2 * k, {}⟩ ⟨0, none⟩).1 = .ok parsed := by
  obtain ⟨hfits, hverdict⟩ := parse_eq_ok_iff.mp hparse
  obtain ⟨node, stop, hreads, rfl⟩ := (agrees tokens.toArray 0 parsed).mp hverdict
  obtain rfl : stop = tokens.length := hall
  obtain ⟨hgrouped, hlevels⟩ := hreads.parenthesised hsolid k
  constructor
  · refine parse_eq_ok_iff.mpr ⟨(hlevels _).mpr ?_, ?_⟩
    · rwa [Nat.add_right_comm, Nat.add_sub_cancel]
    · rw [(agrees _ 0).verdict_eq hgrouped, Nat.add_assoc, Nat.two_mul]
  · intro low other hother
    have hlow := (hlevels _).mp (parse_eq_ok_iff.mp hother).1
    have hpos := hlow.pos
    have hle : 2 * k ≤ low := by omega
    rw [Nat.sub_add_comm hle] at hlow
    exact ⟨hle, parse_eq_ok_iff.mpr ⟨hlow, hverdict⟩⟩

/-- A call takes a level besides its own, and with two pairs of parentheses around it four more. -/
theorem Session.parse_parenthesised_call :
    let tokens : List Token := [.text "f", .symbol .openParen, .symbol .closeParen]
    let call := Node.execution ⟨0, 3⟩ (.identifier ⟨0, 1⟩ "f") []
    let moved := Node.execution ⟨2, 5⟩ (.identifier ⟨2, 3⟩ "f") []
    (Session.parse ⟨tokens.toArray, 1, {}⟩ ⟨0, none⟩).1 = .ok ⟨call, .fresh 3⟩ ∧ call.Solid ∧
      (Session.parse ⟨.parenthesised 2 tokens, 5, {}⟩ ⟨0, none⟩).1 = .ok ⟨moved, .fresh 7⟩ ∧
      ∀ other, (Session.parse ⟨.parenthesised 2 tokens, 4, {}⟩ ⟨0, none⟩).1 ≠ .ok other := by
  intro tokens call moved
  have hparse : (Session.parse ⟨tokens.toArray, 1, {}⟩ ⟨0, none⟩).1 = .ok ⟨call, .fresh 3⟩ := by
    cbv
  have hdeep : (Session.parse ⟨tokens.toArray, 0, {}⟩ ⟨0, none⟩).1 =
      .error (.tooDeep ⟨0, 0⟩) := by cbv
  have hname : (Node.identifier ⟨0, 1⟩ "f").Solid := Node.solid_of_leaf (by decide) rfl
  have hsolid : call.Solid :=
    Node.everywhere_iff.mpr ⟨by decide, List.forall_mem_singleton.mpr hname⟩
  obtain ⟨hmoved, hlow⟩ := Session.parse_parenthesised hparse hsolid rfl 2
  refine ⟨hparse, hsolid, hmoved, fun other hother => ?_⟩
  have hshallow := (hlow 4 other hother).2
  rw [hdeep] at hshallow
  cases hshallow

end

end CurlyScript
