import CurlyScript.Proofs.Grammar.Afterword

namespace CurlyScript

/-- The tokens by which an opening is known. -/
def Opening.Shows (ts : TokenStream) (i : Nat) : Opening → Prop
  | .block => ts.sees i .openCurly = true
  | .string quote => ts.quoteAt? i = some quote
  | .named name body =>
    (∃ type, ts.wordAt? i = some type ∧ ts.sees (i + 1) .space = true ∧
      ts.wordAt? (i + 2) = some name ∧ ts.hasParameters (i + 3) = true ∧
      body = ts.skipBlanks (i + 5)) ∨
    (ts.wordAt? i = some name ∧ ts.hasParameters (i + 1) = true ∧
      body = ts.skipBlanks (i + 3) ∧ ts.sees body .openCurly = true)
  | .misnamed => ∃ type, ts.wordAt? i = some type ∧ ts.sees (i + 1) .space = true ∧
      ts.hasText (i + 2) = true ∧ ts.wordAt? (i + 2) = none
  | .inline body => ∃ type, ts.wordAt? i = some type ∧ ts.hasParameters (i + 1) = true ∧
      ts.sees (ts.skipBlanks (i + 3)) .equal = true ∧
      ts.sees (ts.skipBlanks (i + 3) + 1) .rightChevron = true ∧
      body = ts.skipBlanks (ts.skipBlanks (i + 3) + 2)
  | .call callee place => ts.wordAt? i = some callee ∧
      ts.sees (ts.skipBlanks (i + 1)) .openParen = true ∧ place = ts.skipBlanks (i + 1) + 1
  | .word name => ts.wordAt? i = some name
  | .parenthesis => ts.sees i .openParen = true
  | .nothing => ts.sees i .openCurly = false ∧ ts.quoteAt? i = none ∧ ts.wordAt? i = none ∧
      ts.sees i .openParen = false

namespace TokenStream

variable {ts : TokenStream} {i : Nat}

theorem afterWord_shows {name : String} (hword : ts.wordAt? i = some name) :
    (ts.afterWord name (i + 1)).Shows ts i := by
  unfold afterWord
  split
  · next htyped =>
    rw [Bool.and_eq_true] at htyped
    split
    · next hnone => exact ⟨name, hword, htyped.1, htyped.2, hnone⟩
    · next defined hdefined =>
      split
      · next hparameters => exact .inl ⟨name, hword, htyped.1, hdefined, hparameters, rfl⟩
      · exact hword
  · split
    · next huntyped =>
      rw [Bool.and_eq_true] at huntyped
      exact .inr ⟨hword, huntyped.1, rfl, huntyped.2⟩
    · split
      · next harrow =>
        rw [Bool.and_eq_true, Bool.and_eq_true] at harrow
        exact ⟨name, hword, harrow.1.1, harrow.1.2, harrow.2, rfl⟩
      · split
        · next hcall => exact ⟨hword, hcall, rfl⟩
        · exact hword

/-- An opening is only found where its tokens stand. -/
theorem opening_shows (ts : TokenStream) (i : Nat) : (ts.opening i).Shows ts i := by
  unfold opening
  split
  · next hcurly => exact hcurly
  · next hcurly =>
    split
    · next quote hquote => exact hquote
    · next hquote =>
      split
      · next name hword => exact afterWord_shows hword
      · next hword =>
        split
        · next hparen => exact hparen
        · next hparen =>
          exact ⟨Bool.eq_false_iff.mpr hcurly, hquote, hword, Bool.eq_false_iff.mpr hparen⟩

theorem shows_of_opening_eq {opening : Opening} (hopening : ts.opening i = opening) :
    opening.Shows ts i :=
  hopening ▸ ts.opening_shows i

end TokenStream

end CurlyScript
