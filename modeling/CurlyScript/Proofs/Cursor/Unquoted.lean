import CurlyScript.Token

namespace CurlyScript

/-- Tokens that are read with some string open or with none, those among them that are outside of
    strings, and the string that is open behind them. A quote opens a string, and the next quote of
    its kind closes it, whatever lies between the two. -/
inductive Unquotes : Option Quote → List Token → List Token → Option Quote → Prop where
  | nil : Unquotes none [] [] none
  | outside {token : Token} {tokens outside : List Token} {last : Option Quote}
      (htoken : token.quote? = none) (hrest : Unquotes none tokens outside last) :
      Unquotes none (token :: tokens) (token :: outside) last
  | opening {token : Token} {quote : Quote} {tokens outside : List Token} {last : Option Quote}
      (htoken : token.quote? = some quote) (hrest : Unquotes (some quote) tokens outside last) :
      Unquotes none (token :: tokens) outside last
  | closing {inside : List Token} {token : Token} {quote : Quote} {tokens outside : List Token}
      {last : Option Quote} (hinside : ∀ other ∈ inside, other.quote? ≠ some quote)
      (htoken : token.quote? = some quote) (hrest : Unquotes none tokens outside last) :
      Unquotes (some quote) (inside ++ token :: tokens) outside last
  | unclosed {inside : List Token} {quote : Quote}
      (hinside : ∀ other ∈ inside, other.quote? ≠ some quote) :
      Unquotes (some quote) inside [] (some quote)

/-- The tokens outside of strings, where a string may be open at first. -/
def unquoted : Option Quote → List Token → List Token
  | _, [] => []
  | none, token :: tokens =>
    match token.quote? with
    | none => token :: unquoted none tokens
    | some quote => unquoted (some quote) tokens
  | some quote, token :: tokens =>
    if token.quote? = some quote then unquoted none tokens else unquoted (some quote) tokens

/-- The string that was opened last is of this kind and not closed: either it was open before the
    tokens and none of them closes it, or one of them opens it behind whole strings and none of
    those that follow closes it. -/
def LeavesOpen (opened : Option Quote) (tokens : List Token) (quote : Quote) : Prop :=
  (opened = some quote ∧ ∀ token ∈ tokens, token.quote? ≠ some quote) ∨
    ∃ before opener inside outside, tokens = before ++ opener :: inside ∧
      Unquotes opened before outside none ∧ opener.quote? = some quote ∧
      ∀ token ∈ inside, token.quote? ≠ some quote

section

variable {opened between last : Option Quote} {quote : Quote} {token : Token}
  {tokens more inside outside : List Token}

/-- Within a string a token that does not close it makes no difference. -/
theorem Unquotes.cons_inside (htoken : token.quote? ≠ some quote)
    (hrest : Unquotes (some quote) tokens outside last) :
    Unquotes (some quote) (token :: tokens) outside last := by
  cases hrest with
  | closing hinside hcloser hrest =>
    exact .closing (List.forall_mem_cons.mpr ⟨htoken, hinside⟩) hcloser hrest
  | unclosed hinside => exact .unclosed (List.forall_mem_cons.mpr ⟨htoken, hinside⟩)

/-- The tokens outside of strings are what is left of all tokens without the strings. -/
theorem exists_unquotes (opened : Option Quote) (tokens : List Token) :
    ∃ last, Unquotes opened tokens (unquoted opened tokens) last := by
  induction tokens generalizing opened with
  | nil =>
    cases opened with
    | none => exact ⟨none, .nil⟩
    | some quote => exact ⟨some quote, .unclosed (List.forall_mem_nil _)⟩
  | cons token tokens ih =>
    cases opened with
    | none =>
      rw [unquoted]
      split
      · next htoken =>
        obtain ⟨last, hrest⟩ := ih none
        exact ⟨last, .outside htoken hrest⟩
      · next quote htoken =>
        obtain ⟨last, hrest⟩ := ih (some quote)
        exact ⟨last, .opening htoken hrest⟩
    | some quote =>
      rw [unquoted]
      split
      · next htoken =>
        obtain ⟨last, hrest⟩ := ih none
        exact ⟨last, .closing (List.forall_mem_nil _) htoken hrest⟩
      · next htoken =>
        obtain ⟨last, hrest⟩ := ih (some quote)
        exact ⟨last, hrest.cons_inside htoken⟩

/-- A token is outside of strings or it is not. -/
theorem unquoted_singleton (opened : Option Quote) (token : Token) :
    unquoted opened [token] = [] ∨ unquoted opened [token] = [token] := by
  cases opened with
  | none => cases htoken : token.quote? <;> simp [unquoted, htoken]
  | some quote => simp [unquoted]

theorem unquoted_append_of_inside (hinside : ∀ other ∈ inside, other.quote? ≠ some quote) :
    unquoted (some quote) (inside ++ tokens) = unquoted (some quote) tokens := by
  induction inside with
  | nil => rfl
  | cons token inside ih =>
    rw [List.forall_mem_cons] at hinside
    rw [List.cons_append, unquoted, if_neg hinside.1, ih hinside.2]

/-- There is one way to tell the strings from what is outside of them. -/
theorem Unquotes.eq_unquoted (h : Unquotes opened tokens outside last) :
    outside = unquoted opened tokens := by
  induction h with
  | nil => rfl
  | outside htoken _ ih => simp only [unquoted, htoken, ih]
  | opening htoken _ ih => simp only [unquoted, htoken, ih]
  | closing hinside htoken _ ih =>
    rw [unquoted_append_of_inside hinside, unquoted, if_pos htoken, ih]
  | @unclosed inside quote hinside =>
    have hnothing : unquoted (some quote) (inside ++ []) = unquoted (some quote) [] :=
      unquoted_append_of_inside hinside
    rw [List.append_nil] at hnothing
    exact hnothing.symm

theorem Unquotes.append_inside (hinside : ∀ other ∈ inside, other.quote? ≠ some quote)
    (hrest : Unquotes (some quote) tokens outside last) :
    Unquotes (some quote) (inside ++ tokens) outside last := by
  induction inside with
  | nil => exact hrest
  | cons token inside ih =>
    rw [List.forall_mem_cons] at hinside
    exact (ih hinside.2).cons_inside hinside.1

/-- More tokens are read on with the string that is open behind the first ones. -/
theorem Unquotes.append {outside' : List Token} (hfirst : Unquotes opened tokens outside between)
    (hmore : Unquotes between more outside' last) :
    Unquotes opened (tokens ++ more) (outside ++ outside') last := by
  induction hfirst with
  | nil => exact hmore
  | outside htoken _ ih => exact .outside htoken (ih hmore)
  | opening htoken _ ih => exact .opening htoken (ih hmore)
  | closing hinside htoken _ ih =>
    rw [List.append_assoc, List.cons_append]
    exact .closing hinside htoken (ih hmore)
  | unclosed hinside => exact hmore.append_inside hinside

theorem LeavesOpen.exists_unquotes (h : LeavesOpen opened tokens quote) :
    ∃ outside, Unquotes opened tokens outside (some quote) := by
  obtain ⟨rfl, hinside⟩ | ⟨before, opener, inside, outside, rfl, hbefore, hopener, hinside⟩ := h
  · exact ⟨[], .unclosed hinside⟩
  · exact ⟨outside ++ [], hbefore.append (.opening hopener (.unclosed hinside))⟩

/-- More tokens in front of a string that is opened behind whole strings leave it so. -/
theorem LeavesOpen.after {first : List Token} {outside : List Token}
    (hfirst : Unquotes opened first outside none) (h : LeavesOpen none tokens quote) :
    LeavesOpen opened (first ++ tokens) quote := by
  obtain ⟨hnone, -⟩ | ⟨before, opener, inside, outside', rfl, hbefore, hopener, hinside⟩ := h
  · cases hnone
  · exact .inr ⟨first ++ before, opener, inside, outside ++ outside',
      (List.append_assoc ..).symm, hfirst.append hbefore, hopener, hinside⟩

theorem Unquotes.leavesOpen (h : Unquotes opened tokens outside (some quote)) :
    LeavesOpen opened tokens quote := by
  generalize hlast : some quote = last at h
  induction h with
  | nil => cases hlast
  | outside htoken _ ih => exact (ih hlast).after (.outside htoken .nil)
  | opening htoken _ ih =>
    obtain ⟨hsame, hinside⟩ | ⟨before, opener, inside, outside', rfl, hbefore, hopener, hinside⟩ :=
      ih hlast
    · obtain rfl := Option.some.inj hsame
      exact .inr ⟨[], _, _, [], rfl, .nil, htoken, hinside⟩
    · exact .inr ⟨_, opener, inside, outside', rfl, .opening htoken hbefore, hopener, hinside⟩
  | closing hinside htoken _ ih =>
    have hafter := (ih hlast).after (.closing hinside htoken .nil)
    rwa [List.append_assoc] at hafter
  | unclosed hinside =>
    obtain rfl := Option.some.inj hlast
    exact .inl ⟨rfl, hinside⟩

theorem leavesOpen_iff :
    LeavesOpen opened tokens quote ↔ ∃ outside, Unquotes opened tokens outside (some quote) :=
  ⟨LeavesOpen.exists_unquotes, fun ⟨_, h⟩ => h.leavesOpen⟩

end

end CurlyScript
