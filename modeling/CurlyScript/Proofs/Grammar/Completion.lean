import CurlyScript.Proofs.Grammar.Prefix

namespace CurlyScript

/-- With some tokens put at an index, and nothing behind them that goes on, a node stands from its
    place through these tokens, whatever the input was from the index on. -/
structure Completes (ts : TokenStream) (start p : Nat) (ext : List Token) : Prop where
  skips : ∀ ts', ts.AgreeBelow ts' p → ts'.Holds p ext →
    ts'.skipBlanks start = ts.skipBlanks start
  reads : ∀ ts', ts.AgreeBelow ts' p → ts'.Holds p ext → ts'.StopsAt (p + ext.length) →
    ∃ node, Reads ts' start node (p + ext.length)

/-- The same for the items of a list, which its closing bracket ends whatever comes after it. -/
def CompletesList (ts : TokenStream) (delimiters : Delimiters) (i p : Nat) (ext : List Token) :
    Prop :=
  ∀ ts', ts.AgreeBelow ts' p → ts'.Holds p ext →
    ∃ nodes, ReadsList ts' delimiters i nodes (p + ext.length)

section

variable {ts ts' : TokenStream} {delimiters : Delimiters} {start i next p body : Nat}
  {ext : List Token} {name : String}

theorem TokenStream.StopsAt.of_sees {s : Symbol} (hsees : ts.sees (ts.skipBlanks i) s = true)
    (hs : s ∈ [Symbol.semiColon, .closeCurly, .comma, .closeParen]) : ts.StopsAt i :=
  (EndsAt.of_sees hsees hs).stopsAt

theorem Delimiters.Usual.stopsAt (husual : delimiters.Usual)
    (hseen : delimiters.seenAt ts (ts.skipBlanks i) = true) : ts.StopsAt i := by
  obtain hsees | hsees := Bool.or_eq_true_iff.mp hseen
  · exact .of_sees hsees husual.mem.1
  · exact .of_sees hsees husual.mem.2

/-- A name with which something ends is read on its own. -/
theorem reads_name (hword : ts.wordAt? (ts.skipBlanks start) = some name)
    (hstops : ts.StopsAt (ts.skipBlanks start + 1)) :
    ∃ node, Reads ts start node (ts.skipBlanks start + 1) := by
  have hopening : ts.opening (ts.skipBlanks start) = .word name := by
    rw [TokenStream.opening_of_wordAt? hword]
    exact TokenStream.afterWord_of_stopsAt hstops
  exact ⟨_, .word hopening⟩

/-- Where a node is looked for, any name will do. -/
theorem completes_name (ts : TokenStream) (start : Nat) :
    Completes ts start (ts.skipBlanks start) [.text "x"] := by
  have hskips (ts' : TokenStream) (hagree : ts.AgreeBelow ts' (ts.skipBlanks start))
      (hholds : ts'.Holds (ts.skipBlanks start) [.text "x"]) :
      ts'.skipBlanks start = ts.skipBlanks start := by
    rw [hagree.skipBlanks_through]
    exact TokenStream.skipBlanks_eq_self hholds.1 rfl
  refine ⟨hskips, fun ts' hagree hholds hstops => ?_⟩
  have hword := TokenStream.wordAt?_of_holds (by decide) hholds
  rw [← hskips ts' hagree hholds] at hword hstops ⊢
  exact reads_name hword hstops

/-- Behind a type and a space any definition will do. -/
theorem completes_definition (hopening : ts.opening (ts.skipBlanks start) = .misnamed) :
    Completes ts start (ts.skipBlanks start + 2)
      [.text "x", .symbol .openParen, .symbol .closeParen, .text "x"] where
  skips ts' hagree _ := hagree.skipBlanks_eq (by omega)
  reads ts' hagree hholds hstops := by
    obtain ⟨type, htype, hspace, -, -⟩ := TokenStream.shows_of_opening_eq hopening
    rw [← hagree.wordAt?_eq (by omega)] at htype
    rw [← hagree.sees_eq (by omega)] at hspace
    rw [← hagree.skipBlanks_eq (i := start) (by omega)] at htype hspace hholds hstops ⊢
    generalize hi : ts'.skipBlanks start = i at *
    have hbody : ts'.skipBlanks (i + 5) = i + 5 :=
      TokenStream.skipBlanks_eq_self hholds.2.2.2.1 rfl
    have hword : ts'.wordAt? (ts'.skipBlanks (i + 5)) = some "x" := by
      rw [hbody]
      exact TokenStream.wordAt?_of_holds (by decide) hholds.2.2.2
    obtain ⟨node, hnode⟩ := reads_name hword (by rw [hbody]; exact hstops)
    rw [hbody] at hnode
    have hnamed : ts'.opening (ts'.skipBlanks start) = .named "x" (i + 5) := by
      rw [hi, TokenStream.opening_of_wordAt? htype, TokenStream.afterWord_typed hspace
        (TokenStream.wordAt?_of_holds (by decide) hholds)
        (TokenStream.hasParameters_of_holds hholds.2), hbody]
    exact ⟨_, .named hnamed hnode⟩

/-- A string that goes to the end of the input needs its quote. -/
theorem completes_string {quote : Quote}
    (hopening : ts.opening (ts.skipBlanks start) = .string quote)
    (hopen : ∀ i, ts.skipBlanks start < i → ts.quoteAt? i ≠ some quote) :
    Completes ts start ts.size [.symbol quote.symbol] := by
  have hquote : ts.quoteAt? (ts.skipBlanks start) = some quote :=
    TokenStream.shows_of_opening_eq hopening
  have hlt := TokenStream.lt_size_of_quoteAt? hquote
  refine ⟨fun ts' hagree _ => hagree.skipBlanks_eq hlt, fun ts' hagree hholds _ => ?_⟩
  have hskip := hagree.skipBlanks_eq hlt
  rw [← hagree.quoteAt?_eq hlt, ← hskip] at hquote
  have hclose := TokenStream.quoteAt?_eq_some_iff.mpr hholds.1
  refine ⟨_, .string (TokenStream.opening_of_quoteAt? hquote) (by omega) hclose ?_⟩
  intro i hlow hhigh
  rw [hagree.quoteAt?_eq hhigh]
  exact hopen i (by omega)

theorem Completes.block (hopening : ts.opening (ts.skipBlanks start) = .block)
    (hlt : ts.skipBlanks start < p)
    (hlist : CompletesList ts .statements (ts.skipBlanks start + 1) p ext) :
    Completes ts start p ext := by
  refine ⟨fun ts' hagree _ => hagree.skipBlanks_eq hlt, fun ts' hagree hholds _ => ?_⟩
  obtain ⟨nodes, hnodes⟩ := hlist ts' hagree hholds
  have hcurly : ts.sees (ts.skipBlanks start) .openCurly = true :=
    TokenStream.shows_of_opening_eq hopening
  rw [← hagree.sees_eq hlt] at hcurly
  rw [← hagree.skipBlanks_eq hlt] at hcurly hnodes
  exact ⟨_, .block (TokenStream.opening_of_openCurly hcurly) hnodes⟩

theorem Completes.call {place : Nat}
    (hopening : ts.opening (ts.skipBlanks start) = .call name place) (hle : place ≤ p)
    (hlist : CompletesList ts .arguments place p ext) : Completes ts start p ext := by
  obtain ⟨hword, hparen, rfl⟩ := TokenStream.shows_of_opening_eq hopening
  have hskip' := ts.le_skipBlanks (ts.skipBlanks start + 1)
  refine ⟨fun ts' hagree _ => hagree.skipBlanks_eq (by omega), fun ts' hagree hholds hstops => ?_⟩
  obtain ⟨nodes, hnodes⟩ := hlist ts' hagree hholds
  rw [← hagree.wordAt?_eq (by omega), ← hagree.skipBlanks_eq (i := start) (by omega)] at hword
  rw [← hagree.sees_eq (by omega)] at hparen
  rw [← hagree.skipBlanks_eq hle, ← hagree.skipBlanks_eq (i := start) (by omega)] at hparen hnodes
  have hcall := TokenStream.opening_of_wordAt? hword
  rw [TokenStream.afterWord_call hparen hnodes fun _ _ => hstops.not_bodyAt] at hcall
  exact ⟨_, .call hcall hnodes⟩

/-- Blanks before a node are skipped up to it once it is completed. -/
theorem Completes.skipBlanks_eq (hbody : Completes ts body p ext) (hle : body ≤ p)
    (hplace : body = ts.skipBlanks i) (hagree : ts.AgreeBelow ts' p) (hholds : ts'.Holds p ext) :
    ts'.skipBlanks i = body := by
  subst hplace
  rw [(hagree.mono hle).skipBlanks_through, hbody.skips ts' hagree hholds,
    ts.skipBlanks_skipBlanks]

theorem Completes.named (hopening : ts.opening (ts.skipBlanks start) = .named name body)
    (hle : body ≤ p) (hcurly : ts.sees body .openCurly = true → body < p)
    (hbody : Completes ts body p ext) : Completes ts start p ext := by
  have hplace := TokenStream.lt_of_opening (congrArg Opening.place? hopening)
  refine ⟨fun ts' hagree _ => hagree.skipBlanks_eq (by omega), fun ts' hagree hholds hstops => ?_⟩
  obtain ⟨node, hnode⟩ := hbody.reads ts' hagree hholds hstops
  have hskip := hagree.skipBlanks_eq (i := start) (by omega)
  suffices hnamed : ts'.opening (ts'.skipBlanks start) = .named name body from
    ⟨_, .named hnamed hnode⟩
  rw [hskip]
  obtain ⟨type, htype, hspace, hname, hparameters, heq⟩ | ⟨hname, hparameters, heq, hsees⟩ :=
    TokenStream.shows_of_opening_eq hopening
  · have hafter := ts.le_skipBlanks (ts.skipBlanks start + 5)
    have hskipBody := hbody.skipBlanks_eq hle heq hagree hholds
    rw [← hagree.wordAt?_eq (by omega)] at htype hname
    rw [← hagree.sees_eq (by omega)] at hspace
    rw [← hagree.hasParameters_eq (by omega)] at hparameters
    rw [TokenStream.opening_of_wordAt? htype,
      TokenStream.afterWord_typed hspace hname hparameters, hskipBody]
  · have hafter := ts.le_skipBlanks (ts.skipBlanks start + 3)
    have hskipBody := hbody.skipBlanks_eq hle heq hagree hholds
    rw [← hagree.wordAt?_eq (by omega)] at hname
    rw [← hagree.hasParameters_eq (by omega)] at hparameters
    rw [← hagree.sees_eq (hcurly hsees), ← hskipBody] at hsees
    rw [TokenStream.opening_of_wordAt? hname, TokenStream.afterWord_untyped hparameters hsees,
      hskipBody]

theorem Completes.inline (hopening : ts.opening (ts.skipBlanks start) = .inline body)
    (hle : body ≤ p) (hbody : Completes ts body p ext) : Completes ts start p ext := by
  have hplace := TokenStream.lt_of_opening (congrArg Opening.place? hopening)
  refine ⟨fun ts' hagree _ => hagree.skipBlanks_eq (by omega), fun ts' hagree hholds hstops => ?_⟩
  obtain ⟨node, hnode⟩ := hbody.reads ts' hagree hholds hstops
  have hskip := hagree.skipBlanks_eq (i := start) (by omega)
  suffices hinline : ts'.opening (ts'.skipBlanks start) = .inline body from
    ⟨_, .inline hinline hnode⟩
  obtain ⟨type, htype, hparameters, hequal, harrow, heq⟩ :=
    TokenStream.shows_of_opening_eq hopening
  have hskipBody := hbody.skipBlanks_eq hle heq hagree hholds
  have hafter := ts.le_skipBlanks (ts.skipBlanks start + 3)
  have hafter' := ts.le_skipBlanks (ts.skipBlanks (ts.skipBlanks start + 3) + 2)
  rw [← hagree.wordAt?_eq (by omega)] at htype
  rw [← hagree.hasParameters_eq (by omega)] at hparameters
  rw [← hagree.sees_eq (by omega)] at hequal harrow
  rw [← hagree.skipBlanks_eq (i := ts.skipBlanks start + 3) (by omega)] at hequal harrow hskipBody
  rw [hskip, TokenStream.opening_of_wordAt? htype,
    TokenStream.afterWord_inline hparameters hequal harrow, hskipBody]

/-- A node that was read up to a delimiter is read there in every continuation of what stands
    through the delimiter. -/
theorem Completes.within {s : Symbol} (hnode : Completes ts start next [])
    (hsees : ts.sees (ts.skipBlanks next) s = true)
    (hs : s ∈ [Symbol.semiColon, .closeCurly, .comma, .closeParen])
    (hagree : ts.AgreeBelow ts' p) (hlt : ts.skipBlanks next < p) :
    ∃ node, Reads ts' start node next := by
  have hskip := ts.le_skipBlanks next
  rw [← hagree.sees_eq hlt, ← hagree.skipBlanks_eq hlt] at hsees
  exact hnode.reads ts' (hagree.mono (by omega)) trivial (.of_sees hsees hs)

theorem TokenStream.AgreeBelow.opening_parenthesis (hagree : ts.AgreeBelow ts' p)
    (hopening : ts.opening (ts.skipBlanks start) = .parenthesis) (hlt : ts.skipBlanks start < p) :
    ts'.opening (ts'.skipBlanks start) = .parenthesis := by
  rw [hagree.skipBlanks_eq hlt]
  exact hagree.carries.opening_parenthesis (Nat.zero_le _) hlt hopening

/-- What is open in parentheses is completed, and then the parentheses are. -/
theorem Completes.inner (hopening : ts.opening (ts.skipBlanks start) = .parenthesis)
    (hlt : ts.skipBlanks start < p) (hinner : Completes ts (ts.skipBlanks start + 1) p ext) :
    Completes ts start p (ext ++ [.symbol .closeParen]) := by
  refine ⟨fun ts' hagree _ => hagree.skipBlanks_eq hlt, fun ts' hagree hholds hstops => ?_⟩
  obtain ⟨hext, hclose⟩ := TokenStream.holds_append.mp hholds
  have hsees := TokenStream.sees_of_holds hclose
  have hskip := TokenStream.skipBlanks_of_sees hsees rfl
  rw [← hskip] at hsees
  obtain ⟨node, hnode⟩ := hinner.reads ts' hagree hext (.of_sees hsees (by decide))
  rw [← hagree.skipBlanks_eq hlt] at hnode
  rw [List.length_append, List.length_singleton, ← Nat.add_assoc, ← hskip] at hstops ⊢
  exact ⟨node, .grouping (hagree.opening_parenthesis hopening hlt) hnode hsees
    (hstops.sees_eq_false (by decide))⟩

theorem Completes.grouping (hopening : ts.opening (ts.skipBlanks start) = .parenthesis)
    (hle : ts.skipBlanks start < next) (hinner : Completes ts (ts.skipBlanks start + 1) next [])
    (hclose : ts.sees (ts.skipBlanks next) .closeParen = true) :
    Completes ts start (ts.skipBlanks next + 1) [] := by
  have hskip := ts.le_skipBlanks next
  refine ⟨fun ts' hagree _ => hagree.skipBlanks_eq (by omega), fun ts' hagree _ hstops => ?_⟩
  obtain ⟨node, hnode⟩ := hinner.within hclose (by decide) hagree (Nat.lt_succ_self _)
  rw [← hagree.sees_eq (Nat.lt_succ_self _), ← hagree.skipBlanks_eq (Nat.lt_succ_self _)] at hclose
  rw [← hagree.skipBlanks_eq (i := start) (by omega)] at hnode
  rw [List.length_nil, Nat.add_zero, ← hagree.skipBlanks_eq (Nat.lt_succ_self _)] at hstops ⊢
  exact ⟨node, .grouping (hagree.opening_parenthesis hopening (by omega)) hnode hclose
    (hstops.sees_eq_false (by decide))⟩

theorem Completes.groupingCall (hopening : ts.opening (ts.skipBlanks start) = .parenthesis)
    (hlt : ts.skipBlanks start < next) (hinner : Completes ts (ts.skipBlanks start + 1) next [])
    (hclose : ts.sees (ts.skipBlanks next) .closeParen = true)
    (hcall : ts.sees (ts.skipBlanks (ts.skipBlanks next + 1)) .openParen = true)
    (hle : ts.skipBlanks (ts.skipBlanks next + 1) < p)
    (hlist : CompletesList ts .arguments (ts.skipBlanks (ts.skipBlanks next + 1) + 1) p ext) :
    Completes ts start p ext := by
  have hskip := ts.le_skipBlanks next
  have hskip' := ts.le_skipBlanks (ts.skipBlanks next + 1)
  refine ⟨fun ts' hagree _ => hagree.skipBlanks_eq (by omega), fun ts' hagree hholds _ => ?_⟩
  obtain ⟨node, hnode⟩ := hinner.within hclose (by decide) hagree (by omega)
  obtain ⟨nodes, hnodes⟩ := hlist ts' hagree hholds
  rw [← hagree.skipBlanks_eq (i := start) (by omega)] at hnode
  rw [← hagree.sees_eq (by omega), ← hagree.skipBlanks_eq (i := next) (by omega)] at hclose
  rw [← hagree.sees_eq hle] at hcall
  rw [← hagree.skipBlanks_eq hle, ← hagree.skipBlanks_eq (i := next) (by omega)] at hcall hnodes
  exact ⟨_, .groupingCall (hagree.opening_parenthesis hopening (by omega)) hnode hclose hcall
    hnodes⟩

theorem CompletesList.separator
    (hseparator : ts.sees (ts.skipBlanks i) delimiters.separator = true)
    (hlt : ts.skipBlanks i < p)
    (hrest : CompletesList ts delimiters (ts.skipBlanks i + 1) p ext) :
    CompletesList ts delimiters i p ext := by
  intro ts' hagree hholds
  obtain ⟨nodes, hnodes⟩ := hrest ts' hagree hholds
  rw [← hagree.sees_eq hlt] at hseparator
  rw [← hagree.skipBlanks_eq hlt] at hseparator hnodes
  exact ⟨nodes, .separator hseparator hnodes⟩

/-- A string that was read is read again wherever it stands. -/
theorem Completes.string {close : Nat} {quote : Quote}
    (hopening : ts.opening (ts.skipBlanks start) = .string quote)
    (hlt : ts.skipBlanks start < close) (hclose : ts.quoteAt? close = some quote)
    (hopen : ∀ i, ts.skipBlanks start < i → i < close → ts.quoteAt? i ≠ some quote) :
    Completes ts start (close + 1) [] := by
  refine ⟨fun ts' hagree _ => hagree.skipBlanks_eq (by omega), fun ts' hagree _ _ => ?_⟩
  have hquote : ts.quoteAt? (ts.skipBlanks start) = some quote :=
    TokenStream.shows_of_opening_eq hopening
  rw [← hagree.quoteAt?_eq (by omega)] at hquote hclose
  have hskip := hagree.skipBlanks_eq (i := start) (by omega)
  rw [← hskip] at hquote hlt hopen
  refine ⟨_, .string (TokenStream.opening_of_quoteAt? hquote) hlt hclose ?_⟩
  intro i hlow hhigh
  rw [hagree.quoteAt?_eq (by omega)]
  exact hopen i hlow hhigh

theorem Completes.word (hopening : ts.opening (ts.skipBlanks start) = .word name) :
    Completes ts start (ts.skipBlanks start + 1) [] := by
  refine ⟨fun ts' hagree _ => hagree.skipBlanks_eq (Nat.lt_succ_self _),
    fun ts' hagree _ hstops => ?_⟩
  have hword : ts.wordAt? (ts.skipBlanks start) = some name :=
    TokenStream.shows_of_opening_eq hopening
  rw [← hagree.wordAt?_eq (Nat.lt_succ_self _)] at hword
  rw [List.length_nil, Nat.add_zero] at hstops ⊢
  rw [← hagree.skipBlanks_eq (Nat.lt_succ_self _)] at hword hstops ⊢
  exact reads_name hword hstops

theorem TokenStream.opening_of_ending {s : Symbol} (hsees : ts.sees i s = true)
    (hs : s ∈ [Symbol.semiColon, .closeCurly, .comma, .closeParen]) : ts.opening i = .nothing := by
  simp only [List.mem_cons, List.not_mem_nil, or_false] at hs
  obtain rfl | rfl | rfl | rfl := hs <;>
    simp [TokenStream.opening, TokenStream.sees_eq_false hsees, TokenStream.quoteAt?_of_sees hsees,
      TokenStream.wordAt?_of_sees hsees, Symbol.quote?]

variable (husual : delimiters.Usual)

include husual

/-- No node begins with what stands between items or after them. -/
theorem Reads.seenAt_eq_false {node : Node} {stop : Nat} (hreads : Reads ts start node stop) :
    delimiters.seenAt ts (ts.skipBlanks start) = false := by
  rw [Bool.eq_false_iff]
  intro hseen
  have hlt := Delimiters.lt_size_of_seenAt hseen
  have hnothing : ts.opening (ts.skipBlanks start) = .nothing := by
    obtain hsees | hsees := Bool.or_eq_true_iff.mp hseen
    · exact TokenStream.opening_of_ending hsees husual.mem.1
    · exact TokenStream.opening_of_ending hsees husual.mem.2
  cases hreads with
  | empty hend =>
    have hskip := ts.le_skipBlanks start
    omega
  | block hopening | string hopening | named hopening | inline hopening | call hopening
  | word hopening | grouping hopening | groupingCall hopening =>
    rw [hnothing] at hopening
    cases hopening

/-- Where an item or the end is looked for, the end will do. -/
theorem completesList_closer (ts : TokenStream) (i : Nat) :
    CompletesList ts delimiters i (ts.skipBlanks i) [.symbol delimiters.closer] := by
  intro ts' hagree hholds
  have hclose := TokenStream.sees_of_holds hholds
  have hskip : ts'.skipBlanks i = ts.skipBlanks i := by
    rw [hagree.skipBlanks_through]
    exact husual.skipBlanks_eq (Delimiters.seenAt_of_closer hclose)
  rw [← hskip] at hclose ⊢
  exact ⟨[], .close hclose⟩

/-- A list whose only item stands before its end. -/
theorem ReadsList.single {node : Node} {stop : Nat} (hskip : ts.skipBlanks i = start)
    (hnode : Reads ts start node stop)
    (hclose : ts.sees (ts.skipBlanks stop) delimiters.closer = true) :
    ReadsList ts delimiters i [node] (ts.skipBlanks stop + 1) := by
  subst hskip
  have hstart := hnode.seenAt_eq_false husual
  rw [ts.skipBlanks_skipBlanks] at hstart
  have hlast : ReadsList ts delimiters stop [] (ts.skipBlanks stop + 1) := .close hclose
  exact .item hstart hnode (Delimiters.seenAt_of_closer hclose)
    (hlast.of_skipBlanks_eq (ts.skipBlanks_skipBlanks stop))

/-- What is open in a list is completed, and then the list is. -/
theorem CompletesList.last (hle : ts.skipBlanks i ≤ p)
    (hnode : Completes ts (ts.skipBlanks i) p ext) :
    CompletesList ts delimiters i p (ext ++ [.symbol delimiters.closer]) := by
  intro ts' hagree hholds
  obtain ⟨hext, hcloser⟩ := TokenStream.holds_append.mp hholds
  have hclose := TokenStream.sees_of_holds hcloser
  have hskip := husual.skipBlanks_eq (Delimiters.seenAt_of_closer hclose)
  have hi := hnode.skipBlanks_eq hle rfl hagree hext
  rw [List.length_append, List.length_singleton, ← Nat.add_assoc]
  rw [← hskip] at hclose ⊢
  obtain ⟨node, hreads⟩ := hnode.reads ts' hagree hext (.of_sees hclose husual.mem.2)
  exact ⟨[node], .single husual hi hreads hclose⟩

/-- A list that goes on without a separator can end there instead. -/
theorem CompletesList.unfinished (hle : ts.skipBlanks i ≤ next)
    (hnode : Completes ts (ts.skipBlanks i) next []) :
    CompletesList ts delimiters i (ts.skipBlanks next) [.symbol delimiters.closer] := by
  intro ts' hagree hholds
  have hclose := TokenStream.sees_of_holds hholds
  have hagree' := hagree.mono (ts.le_skipBlanks next)
  have hi := hnode.skipBlanks_eq hle rfl hagree' trivial
  have hskip : ts'.skipBlanks next = ts.skipBlanks next := by
    rw [hagree.skipBlanks_through]
    exact husual.skipBlanks_eq (Delimiters.seenAt_of_closer hclose)
  rw [← hskip] at hclose ⊢
  obtain ⟨node, hreads⟩ := hnode.reads ts' hagree' trivial (.of_sees hclose husual.mem.2)
  exact ⟨[node], .single husual hi hreads hclose⟩

theorem CompletesList.item (hle : ts.skipBlanks i ≤ next)
    (hnode : Completes ts (ts.skipBlanks i) next [])
    (hend : delimiters.seenAt ts (ts.skipBlanks next) = true) (hlt : ts.skipBlanks next < p)
    (hrest : CompletesList ts delimiters (ts.skipBlanks next) p ext) :
    CompletesList ts delimiters i p ext := by
  intro ts' hagree hholds
  have hskip := ts.le_skipBlanks next
  have hagree' := hagree.mono (Nat.le_of_lt (Nat.lt_of_le_of_lt hskip hlt))
  obtain ⟨nodes, hnodes⟩ := hrest ts' hagree hholds
  rw [← hagree.seenAt_eq hlt] at hend
  rw [← hagree.skipBlanks_eq hlt] at hend hnodes
  obtain ⟨node, hreads⟩ := hnode.reads ts' hagree' trivial (husual.stopsAt hend)
  have hstart := hreads.seenAt_eq_false husual
  have hi : ts'.skipBlanks i = ts.skipBlanks i := hagree.skipBlanks_eq (by omega)
  rw [hnode.skips ts' hagree' trivial, ts.skipBlanks_skipBlanks] at hstart
  rw [← hi] at hstart hreads
  exact ⟨node :: nodes, .item hstart hreads hend hnodes⟩

end

end CurlyScript
