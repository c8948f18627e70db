import CurlyScript.Proofs.Grammar.Agreement
import CurlyScript.Proofs.Grammar.Evidence

namespace CurlyScript

mutual

/-- Where the grammar has no node, what is wrong and with which token. The fault lies in the first
    part that cannot be read, and what stands before that part has been read. -/
inductive Fails (ts : TokenStream) : Nat → SyntaxError → Prop
  | block {start : Nat} {error : SyntaxError}
      (hopening : ts.opening (ts.skipBlanks start) = .block)
      (hlist : FailsList ts .statements (ts.skipBlanks start + 1) error) : Fails ts start error
  | string {start : Nat} {quote : Quote}
      (hopening : ts.opening (ts.skipBlanks start) = .string quote)
      (hopen : ∀ i, ts.skipBlanks start < i → ts.quoteAt? i ≠ some quote) :
      Fails ts start ⟨.unterminatedString quote, ts.size⟩
  | named {start body : Nat} {name : String} {error : SyntaxError}
      (hopening : ts.opening (ts.skipBlanks start) = .named name body)
      (hbody : Fails ts body error) : Fails ts start error
  | misnamed {start : Nat} (hopening : ts.opening (ts.skipBlanks start) = .misnamed) :
      Fails ts start ⟨.invalidFunctionName (ts.describe? (ts.skipBlanks start + 2)),
        ts.skipBlanks start + 2⟩
  | inline {start body : Nat} {error : SyntaxError}
      (hopening : ts.opening (ts.skipBlanks start) = .inline body)
      (hbody : Fails ts body error) : Fails ts start error
  | call {start place : Nat} {callee : String} {error : SyntaxError}
      (hopening : ts.opening (ts.skipBlanks start) = .call callee place)
      (hlist : FailsList ts .arguments place error) : Fails ts start error
  | inner {start : Nat} {error : SyntaxError}
      (hopening : ts.opening (ts.skipBlanks start) = .parenthesis)
      (hinner : Fails ts (ts.skipBlanks start + 1) error) : Fails ts start error
  /-- Parentheses that hold more than a node are themselves what is not expected. -/
  | ungrouped {start next : Nat} {node : Node}
      (hopening : ts.opening (ts.skipBlanks start) = .parenthesis)
      (hinner : Reads ts (ts.skipBlanks start + 1) node next)
      (hclose : ts.sees (ts.skipBlanks next) .closeParen = false) :
      Fails ts start ⟨.unexpected (ts.describe? (ts.skipBlanks start)), ts.skipBlanks start⟩
  | groupingCall {start next : Nat} {node : Node} {error : SyntaxError}
      (hopening : ts.opening (ts.skipBlanks start) = .parenthesis)
      (hinner : Reads ts (ts.skipBlanks start + 1) node next)
      (hclose : ts.sees (ts.skipBlanks next) .closeParen = true)
      (hcall : ts.sees (ts.skipBlanks (ts.skipBlanks next + 1)) .openParen = true)
      (hlist : FailsList ts .arguments (ts.skipBlanks (ts.skipBlanks next + 1) + 1) error) :
      Fails ts start error
  | nothing {start : Nat} (hlt : start < ts.size)
      (hopening : ts.opening (ts.skipBlanks start) = .nothing) :
      Fails ts start ⟨.unexpected (ts.describe? (ts.skipBlanks start)), ts.skipBlanks start⟩

/-- Where a list is not read to its end, what is wrong and with which token. -/
inductive FailsList (ts : TokenStream) : Delimiters → Nat → SyntaxError → Prop
  | separator {delimiters : Delimiters} {i : Nat} {error : SyntaxError}
      (hseparator : ts.sees (ts.skipBlanks i) delimiters.separator = true)
      (hrest : FailsList ts delimiters (ts.skipBlanks i + 1) error) :
      FailsList ts delimiters i error
  | ended {delimiters : Delimiters} {i : Nat} (hend : ts.size ≤ ts.skipBlanks i) :
      FailsList ts delimiters i
        ⟨.expectedSeparator delimiters.expected (ts.describe? (ts.skipBlanks i)), ts.skipBlanks i⟩
  | item {delimiters : Delimiters} {i : Nat} {error : SyntaxError}
      (hstart : delimiters.seenAt ts (ts.skipBlanks i) = false)
      (hnode : Fails ts (ts.skipBlanks i) error) : FailsList ts delimiters i error
  | undelimited {delimiters : Delimiters} {i next : Nat} {node : Node}
      (hstart : delimiters.seenAt ts (ts.skipBlanks i) = false)
      (hnode : Reads ts (ts.skipBlanks i) node next)
      (hend : delimiters.seenAt ts (ts.skipBlanks next) = false) :
      FailsList ts delimiters i
        ⟨.expectedSeparator delimiters.expected (ts.describe? (ts.skipBlanks next)),
          ts.skipBlanks next⟩
  | rest {delimiters : Delimiters} {i next : Nat} {node : Node} {error : SyntaxError}
      (hstart : delimiters.seenAt ts (ts.skipBlanks i) = false)
      (hnode : Reads ts (ts.skipBlanks i) node next)
      (hend : delimiters.seenAt ts (ts.skipBlanks next) = true)
      (hrest : FailsList ts delimiters (ts.skipBlanks next) error) :
      FailsList ts delimiters i error

end

/-- Every fault that the parser finds at a place is one of the grammar. -/
def Accounted (ts : TokenStream) (i : Nat) : Prop :=
  ∀ error, verdict ts ⟨i, none⟩ = .error error → Fails ts i error

section

variable {ts : TokenStream} {delimiters : Delimiters} {start i : Nat} {error : SyntaxError}

theorem exists_reads_of_verdict {parsed : Parsed} (hparsed : verdict ts ⟨i, none⟩ = .ok parsed) :
    ∃ node, Reads ts i node parsed.cursor.token := by
  obtain ⟨node, stop, hreads, rfl⟩ := (agrees ts i parsed).mp hparsed
  exact ⟨node, hreads⟩

/-- Where faults are accounted for from an index on, so are those of a list. -/
theorem Delimiters.failsList_of_eval_items (hplain : delimiters.Plain)
    (haccounted : ∀ j, i ≤ j → Accounted ts j) {budget : Nat} (hbudget : ts.size - i ≤ budget)
    {found : List Node}
    (heval : (delimiters.items ts budget (.fresh i) found).eval (verdict ts) =
      .error (.rejected error)) : FailsList ts delimiters i error := by
  have hskip := ts.le_skipBlanks i
  induction budget generalizing i found with
  | zero =>
    have hblank : ts.skipBlanks i = i := by rw [TokenStream.skipBlanks, dif_neg (by omega)]
    have hended : FailsList ts delimiters i _ := .ended (by omega)
    rw [hblank] at hended
    obtain rfl : error = _ := (Refusal.rejected.inj (Except.error.inj heval)).symm
    exact hended
  | succ budget ih =>
    rw [eval_items_succ hplain] at heval
    split at heval
    · next hseparator =>
      have hlt := TokenStream.lt_size_of_sees hseparator
      exact .separator hseparator
        (ih (fun j hj => haccounted j (by omega)) (by omega) heval (ts.le_skipBlanks _))
    · next hseparator =>
      split at heval
      · cases heval
      · next hcloser =>
        have hstart := seenAt_eq_false_iff.mpr
          ⟨Bool.eq_false_iff.mpr hseparator, Bool.eq_false_iff.mpr hcloser⟩
        split at heval
        · next hlt =>
          cases hverdict : verdict ts ⟨ts.skipBlanks i, none⟩ with
          | error fault =>
            rw [hverdict] at heval
            obtain rfl : error = fault := (Refusal.rejected.inj (Except.error.inj heval)).symm
            exact .item hstart (haccounted _ hskip _ hverdict)
          | ok item =>
            rw [hverdict] at heval
            obtain ⟨node, hnode⟩ := exists_reads_of_verdict hverdict
            have hmoved := (verdict_advances ts _ _ hverdict).2 hlt
            have hskip' := ts.le_skipBlanks item.cursor.token
            dsimp only at heval hmoved
            split at heval
            · next hend =>
              exact .rest hstart hnode hend
                (ih (fun j hj => haccounted j (by omega)) (by omega) heval (ts.le_skipBlanks _))
            · next hend =>
              obtain rfl : error = _ := (Refusal.rejected.inj (Except.error.inj heval)).symm
              exact .undelimited hstart hnode (Bool.eq_false_iff.mpr hend)
        · next hge =>
          obtain rfl : error = _ := (Refusal.rejected.inj (Except.error.inj heval)).symm
          exact .ended (Nat.le_of_not_lt hge)

theorem Delimiters.failsList_of_eval_read (hplain : delimiters.Plain)
    (haccounted : ∀ j, i ≤ j → Accounted ts j)
    (heval : (delimiters.read ts (.fresh i)).eval (verdict ts) = .error (.rejected error)) :
    FailsList ts delimiters i error := by
  rw [read, Cursor.fresh_token] at heval
  exact failsList_of_eval_items hplain haccounted (Nat.le_refl _) heval

theorem fails_of_faults (hlater : ∀ j, start < j → Accounted ts j) (hlt : start < ts.size)
    (hfaults : (ts.opening (ts.skipBlanks start)).Faults ts (ts.skipBlanks start) error) :
    Fails ts start error := by
  have hskip := ts.le_skipBlanks start
  cases hopening : ts.opening (ts.skipBlanks start) with
  | block =>
    rw [hopening] at hfaults
    exact .block hopening (Delimiters.failsList_of_eval_read Delimiters.plain_statements
      (fun j hj => hlater j (by omega)) hfaults)
  | string quote =>
    rw [hopening] at hfaults
    have hquote : ts.quoteAt? (ts.skipBlanks start) = some quote :=
      TokenStream.shows_of_opening_eq hopening
    obtain ⟨rfl, hopen⟩ :=
      Rule.restOfString_eq_error (TokenStream.lt_size_of_quoteAt? hquote) hfaults
    exact .string hopening hopen
  | named name body =>
    rw [hopening] at hfaults
    have hbehind := TokenStream.lt_of_opening (congrArg Opening.place? hopening)
    exact .named hopening (hlater body (by omega) error hfaults)
  | misnamed =>
    rw [hopening] at hfaults
    obtain rfl : error = _ := hfaults
    exact .misnamed hopening
  | inline body =>
    rw [hopening] at hfaults
    have hbehind := TokenStream.lt_of_opening (congrArg Opening.place? hopening)
    exact .inline hopening (hlater body (by omega) error hfaults)
  | call callee place =>
    rw [hopening] at hfaults
    have hbehind := TokenStream.lt_of_opening (congrArg Opening.place? hopening)
    exact .call hopening (Delimiters.failsList_of_eval_read Delimiters.plain_arguments
      (fun j hj => hlater j (by omega)) hfaults)
  | word name =>
    rw [hopening] at hfaults
    exact hfaults.elim
  | parenthesis =>
    rw [hopening] at hfaults
    obtain hinner | ⟨inner, hinner, hrest⟩ := hfaults
    · exact .inner hopening (hlater _ (by omega) error hinner)
    · obtain ⟨node, hnode⟩ := exists_reads_of_verdict hinner
      have hle := (verdict_advances ts _ _ hinner).1
      have hskip' := ts.le_skipBlanks inner.cursor.token
      have hskip'' := ts.le_skipBlanks (ts.skipBlanks inner.cursor.token + 1)
      dsimp only at hle
      split at hrest
      · next hclose =>
        exact .groupingCall hopening hnode hclose hrest.1
          (Delimiters.failsList_of_eval_read Delimiters.plain_arguments
            (fun j hj => hlater j (by omega)) hrest.2)
      · next hclose =>
        obtain rfl : error = _ := hrest
        exact .ungrouped hopening hnode (Bool.eq_false_iff.mpr hclose)
  | nothing =>
    rw [hopening] at hfaults
    obtain rfl : error = _ := hfaults
    exact .nothing hlt hopening

/-- Whatever the parser tried before it found a fault, the fault is the one of the grammar. -/
theorem accounted (ts : TokenStream) (start : Nat) : Accounted ts start := by
  induction hleft : ts.size - start using Nat.strongRecOn generalizing start with
  | ind left ih =>
    intro error herror
    by_cases hlt : start < ts.size
    · have hlater (j : Nat) (hj : start < j) : Accounted ts j := ih (ts.size - j) (by omega) j rfl
      exact fails_of_faults hlater hlt ((opening_tells_verdict hlt).2 error herror)
    · rw [verdict_eq, Request.inquiry, if_neg hlt] at herror
      cases herror

end

end CurlyScript
