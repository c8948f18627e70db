import CurlyScript.Proofs.Grammar.Completion

namespace CurlyScript

variable {ts : TokenStream}

/-- A node that something follows needs no completion. -/
theorem Completes.of_followed {start stop : Nat}
    (hread : ∃ ext, (stop < ts.size → ext = []) ∧ Completes ts start stop ext)
    (hlt : ts.skipBlanks stop < ts.size) : Completes ts start stop [] := by
  obtain ⟨ext, hext, hcompletes⟩ := hread
  have hstop : stop < ts.size := Nat.lt_of_le_of_lt (ts.le_skipBlanks stop) hlt
  rwa [hext hstop] at hcompletes

mutual

/-- A node that was read is read again where something ends with it. It may itself have to be
    completed if the input ended with it, since then the body of a definition may be missing. -/
theorem Reads.exists_completes {start stop : Nat} {node : Node} :
    Reads ts start node stop → ∃ ext, (stop < ts.size → ext = []) ∧ Completes ts start stop ext
  | .empty hend => by
    have hname := completes_name ts start
    rw [TokenStream.skipBlanks_of_size_le hend] at hname
    exact ⟨_, fun hlt => absurd hend (Nat.not_le.mpr hlt), hname⟩
  | .block hopening hlist => by
    have hlt := hlist.start_lt
    exact ⟨[], fun _ => rfl, .block hopening (by omega) (hlist.completes (.inl rfl))⟩
  | .string hopening hlt hclose hopen => ⟨[], fun _ => rfl, .string hopening hlt hclose hopen⟩
  | .named hopening hbody => by
    obtain ⟨ext, hext, hcompletes⟩ := hbody.exists_completes
    refine ⟨ext, hext, .named hopening hbody.le ?_ hcompletes⟩
    exact fun hcurly => hbody.lt (TokenStream.lt_size_of_sees hcurly)
  | .inline hopening hbody => by
    obtain ⟨ext, hext, hcompletes⟩ := hbody.exists_completes
    exact ⟨ext, hext, .inline hopening hbody.le hcompletes⟩
  | .call hopening hlist => by
    have hlt := hlist.start_lt
    exact ⟨[], fun _ => rfl, .call hopening (by omega) (hlist.completes (.inr rfl))⟩
  | .word hopening => ⟨[], fun _ => rfl, .word hopening⟩
  | .grouping hopening hinner hclose _ => by
    have hcompletes := Completes.of_followed hinner.exists_completes
      (TokenStream.lt_size_of_sees hclose)
    exact ⟨[], fun _ => rfl, .grouping hopening hinner.le hcompletes hclose⟩
  | .groupingCall hopening hinner hclose hcall hlist => by
    have hcompletes := Completes.of_followed hinner.exists_completes
      (TokenStream.lt_size_of_sees hclose)
    have hlt := hlist.start_lt
    exact ⟨[], fun _ => rfl, .groupingCall hopening hinner.le hcompletes hclose hcall (by omega)
      (hlist.completes (.inr rfl))⟩

theorem ReadsList.completes {delimiters : Delimiters} {i stop : Nat} {nodes : List Node} :
    ReadsList ts delimiters i nodes stop → delimiters.Usual →
      CompletesList ts delimiters i stop []
  | .close hclose, husual => by
    intro ts' hagree hholds
    rw [← hagree.sees_eq (Nat.lt_succ_self _)] at hclose
    rw [List.length_nil, Nat.add_zero]
    rw [← hagree.skipBlanks_eq (Nat.lt_succ_self _)] at hclose ⊢
    exact ⟨[], .close hclose⟩
  | .separator hseparator hrest, husual => by
    have hlt := hrest.start_lt
    exact .separator hseparator (by omega) (hrest.completes husual)
  | .item hstart hnode hend hrest, husual => by
    have hcompletes := Completes.of_followed hnode.exists_completes
      (Delimiters.lt_size_of_seenAt hend)
    have hlt := hrest.lt
    rw [ts.skipBlanks_skipBlanks] at hlt
    exact .item husual hnode.le hcompletes hend hlt (hrest.completes husual)

end

section

variable {delimiters : Delimiters} {start i : Nat} {error : SyntaxError}

/-- A fault of a block shows inside it. -/
theorem Fails.lt_position_of_block (hfails : Fails ts start error)
    (hblock : ts.opening (ts.skipBlanks start) = .block) :
    ts.skipBlanks start < error.position := by
  cases hfails with
  | block _ hlist => exact hlist.start_le_position
  | string hopening | named hopening | misnamed hopening | inline hopening | call hopening
  | inner hopening | ungrouped hopening | groupingCall hopening | nothing _ hopening =>
    rw [hblock] at hopening
    cases hopening

/-- A list that goes on with a separator or its end has no fault there. -/
theorem FailsList.lt_position_of_seenAt (husual : delimiters.Usual)
    (hseen : delimiters.seenAt ts i = true) (hfails : FailsList ts delimiters i error) :
    i < error.position := by
  have hskip := husual.skipBlanks_eq hseen
  cases hfails with
  | separator _ hrest =>
    rw [hskip] at hrest
    exact hrest.start_le_position
  | ended hend =>
    have hlt := Delimiters.lt_size_of_seenAt hseen
    omega
  | item hstart | undelimited hstart | rest hstart =>
    rw [hskip, hseen] at hstart
    cases hstart

end

mutual

/-- Up to the fault nothing rules a node out. -/
theorem Fails.exists_completes {start : Nat} {error : SyntaxError} :
    Fails ts start error → ∃ ext, Completes ts start error.position ext
  | .block hopening hlist => by
    have hle := hlist.start_le_position
    obtain ⟨ext, hcompletes⟩ := hlist.exists_completes (.inl rfl)
    exact ⟨ext, .block hopening hle hcompletes⟩
  | .string hopening hopen => ⟨_, completes_string hopening hopen⟩
  | .named hopening hbody => by
    have hskip := TokenStream.skipBlanks_of_opening_named hopening
    have hle := hbody.le_position
    obtain ⟨ext, hcompletes⟩ := hbody.exists_completes
    rw [hskip] at hle
    refine ⟨ext, .named hopening hle (fun hcurly => ?_) hcompletes⟩
    have hlt := hbody.lt_position_of_block
    rw [hskip] at hlt
    exact hlt (TokenStream.opening_of_openCurly hcurly)
  | .misnamed hopening => ⟨_, completes_definition hopening⟩
  | .inline hopening hbody => by
    have hle := hbody.le_position
    obtain ⟨ext, hcompletes⟩ := hbody.exists_completes
    rw [TokenStream.skipBlanks_of_opening_inline hopening] at hle
    exact ⟨ext, .inline hopening hle hcompletes⟩
  | .call hopening hlist => by
    have hle := hlist.start_le_position
    obtain ⟨ext, hcompletes⟩ := hlist.exists_completes (.inr rfl)
    exact ⟨ext, .call hopening hle hcompletes⟩
  | .inner hopening hinner => by
    have hle := hinner.start_le_position
    obtain ⟨ext, hcompletes⟩ := hinner.exists_completes
    exact ⟨_, .inner hopening hle hcompletes⟩
  | .ungrouped _ _ _ => ⟨_, completes_name ts _⟩
  | .groupingCall hopening hinner hclose hcall hlist => by
    have hcompletes := Completes.of_followed hinner.exists_completes
      (TokenStream.lt_size_of_sees hclose)
    have hle := hlist.start_le_position
    obtain ⟨ext, harguments⟩ := hlist.exists_completes (.inr rfl)
    exact ⟨ext, .groupingCall hopening hinner.le hcompletes hclose hcall hle harguments⟩
  | .nothing _ _ => ⟨_, completes_name ts _⟩

theorem FailsList.exists_completes {delimiters : Delimiters} {i : Nat} {error : SyntaxError} :
    FailsList ts delimiters i error → delimiters.Usual →
      ∃ ext, CompletesList ts delimiters i error.position ext
  | .separator hseparator hrest, husual => by
    have hle := hrest.start_le_position
    obtain ⟨ext, hcompletes⟩ := hrest.exists_completes husual
    exact ⟨ext, .separator hseparator hle hcompletes⟩
  | .ended _, husual => ⟨_, completesList_closer husual ts _⟩
  | .item _ hnode, husual => by
    have hle := hnode.le_position
    obtain ⟨ext, hcompletes⟩ := hnode.exists_completes
    rw [ts.skipBlanks_skipBlanks] at hle
    exact ⟨_, .last husual hle hcompletes⟩
  | @FailsList.undelimited _ _ _ next _ _ hnode _, husual => by
    obtain ⟨ext, hext, hcompletes⟩ := hnode.exists_completes
    -- A node at the end of the input may need tokens of its own before the list can end.
    by_cases hlt : next < ts.size
    · rw [hext hlt] at hcompletes
      exact ⟨_, .unfinished husual hnode.le hcompletes⟩
    · have hlist := CompletesList.last husual hnode.le hcompletes
      rw [← TokenStream.skipBlanks_of_size_le (Nat.le_of_not_lt hlt)] at hlist
      exact ⟨_, hlist⟩
  | .rest _ hnode hend hrest, husual => by
    have hcompletes := Completes.of_followed hnode.exists_completes
      (Delimiters.lt_size_of_seenAt hend)
    obtain ⟨ext, hitems⟩ := hrest.exists_completes husual
    exact ⟨ext, .item husual hnode.le hcompletes hend
      (hrest.lt_position_of_seenAt husual hend) hitems⟩

end

/-- What stands before a fault is the beginning of a node: with the right tokens put where the
    fault shows, the whole input is read. So no fault is found later than it could be. -/
theorem Session.viable_before_fault {limit : Nat} {error : SyntaxError}
    (hfault : (Session.parse ⟨ts, limit, {}⟩ ⟨0, none⟩).1 = .error (.malformed error)) :
    error.position ≤ ts.size ∧ ∃ ext node,
      ∀ limit', TrimmedTo limit'
          (Session.parse ⟨ts.continuedAt error.position ext, limit', {}⟩ ⟨0, none⟩).1
          (.ok ⟨node, .fresh (ts.continuedAt error.position ext).size⟩) ∧
        (2 * (ts.continuedAt error.position ext).size ≤ limit' →
          (Session.parse ⟨ts.continuedAt error.position ext, limit', {}⟩ ⟨0, none⟩).1 =
            .ok ⟨node, .fresh (ts.continuedAt error.position ext).size⟩) := by
  have hfails := accounted ts 0 error (verdict_of_malformed hfault)
  have hle := hfails.position_le_size (Nat.zero_le _)
  refine ⟨hle, ?_⟩
  obtain ⟨ext, hcompletes⟩ := hfails.exists_completes
  obtain ⟨node, hreads⟩ := hcompletes.reads (ts.continuedAt error.position ext)
    (TokenStream.agreeBelow_continuedAt hle ext) (TokenStream.holds_continuedAt hle ext)
    (TokenStream.stopsAt_continuedAt hle ext)
  rw [← TokenStream.size_continuedAt hle ext] at hreads
  have hverdict := (agrees _ 0).verdict_eq hreads
  refine ⟨ext, node, fun limit' => ⟨?_, fun hlimit => ?_⟩⟩
  · have htrimmed := parse_trimmedTo_verdict (ts.continuedAt error.position ext) limit' ⟨0, none⟩
    rwa [hverdict] at htrimmed
  · rw [parse_of_two_levels_a_token hlimit, hverdict]
    rfl

/-- A semicolon among arguments comes too early for any call, and what is before it does not. -/
theorem Session.viable_before_fault_semicolon :
    let ts : TokenStream := #[.text "f", .symbol .openParen, .text "a", .symbol .semiColon]
    (Session.parse ⟨ts, 8, {}⟩ ⟨0, none⟩).1 =
        .error (.malformed ⟨.expectedSeparator ", or )" (some ";"), 3⟩) ∧
      ∃ ext node, ∀ limit', 2 * (ts.continuedAt 3 ext).size ≤ limit' →
        (Session.parse ⟨ts.continuedAt 3 ext, limit', {}⟩ ⟨0, none⟩).1 =
          .ok ⟨node, .fresh (ts.continuedAt 3 ext).size⟩ := by
  intro ts
  have hfault : (Session.parse ⟨ts, 8, {}⟩ ⟨0, none⟩).1 =
      .error (.malformed ⟨.expectedSeparator ", or )" (some ";"), 3⟩) := by cbv
  obtain ⟨-, ext, node, hcompleted⟩ := viable_before_fault hfault
  exact ⟨hfault, ext, node, fun limit' => (hcompleted limit').2⟩

end CurlyScript
