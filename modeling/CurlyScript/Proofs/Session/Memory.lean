import CurlyScript.Proofs.Session.Recorder
import CurlyScript.Proofs.Session.Sharing

namespace CurlyScript

/-- A journal holds verdicts of the grammar and, with each of them, those that it was found by. -/
structure Journal.Sound (ts : TokenStream) (journal : Journal) : Prop where
  verdicts : ∀ request found, journal.lookup request = some found → found = verdict ts request
  closed : journal.Knows.Closed ts

/-- What working an inquiry out that asks some questions does to what is known. -/
structure Known.GrownBy (ts : TokenStream) (known : Known) (questions : List Request)
    (known' : Known) : Prop where
  keeps : ∀ r, known r → known' r
  asked : ∀ r ∈ questions, known' r
  called : ∀ r, known' r → known r ∨ ∃ other ∈ questions, ∃ level, Request.Calls ts other level r

section

variable {ts : TokenStream} {limit levels : Nat} {known next : Known} {journal : Journal}
  {request : Request}

theorem Known.GrownBy.refl (known : Known) : known.GrownBy ts [] known where
  keeps _ hr := hr
  asked := by simp
  called _ hr := .inl hr

theorem Known.GrownBy.cons {questions : List Request} {last : Known}
    (hfirst : known.Grown ts request next) (hrest : next.GrownBy ts questions last) :
    known.GrownBy ts (request :: questions) last where
  keeps r hr := hrest.keeps r (hfirst.keeps r hr)
  asked := by
    rw [List.forall_mem_cons]
    exact ⟨hrest.keeps request hfirst.self, hrest.asked⟩
  called r hr := by
    obtain hnext | ⟨other, hother, hcalls⟩ := hrest.called r hr
    · obtain hknown | hcalls := hfirst.called r hnext
      · exact .inl hknown
      · exact .inr ⟨request, List.mem_cons_self .., hcalls⟩
    · exact .inr ⟨other, List.mem_cons_of_mem _ hother, hcalls⟩

/-- Looking up a verdict teaches nothing. -/
theorem Known.Grown.of_known (hknown : known request) (hclosed : known.Closed ts) :
    known.Grown ts request known where
  keeps _ hr := hr
  self := hknown
  called _ hr := .inl hr
  again _ _ hr := hr
  moved hshallow parsed hparsed :=
    hshallow.mono (verdict_advances ts request parsed hparsed).1
  closed := hclosed

theorem Journal.knows_remember (found : Verdict) (r : Request) :
    (journal.remember request found).Knows r ↔ r = request ∨ journal.Knows r := by
  rw [Knows, lookup_remember]
  split
  · next heq => simp [heq]
  · next hne => simp [hne, Knows]

/-- Remembering a verdict is sound once all the answers that it was found by are remembered. -/
theorem Journal.Sound.remember (hsound : journal.Sound ts)
    (hasked : ∀ other ∈ (request.inquiry ts).asks (verdict ts), journal.Knows other) :
    (journal.remember request (verdict ts request)).Sound ts where
  verdicts r found hfound := by
    rw [lookup_remember] at hfound
    split at hfound
    · next heq =>
      rw [heq]
      exact (Option.some.inj hfound).symm
    · exact hsound.verdicts r found hfound
  closed r hr other hother := by
    rw [knows_remember] at hr ⊢
    obtain rfl | hknown := hr
    · exact .inr (hasked other hother)
    · exact .inr (hsound.closed r hknown other hother)

/-- A request starts before the node that it reads, or else it asks nothing. -/
theorem Known.ShallowFrom.remember (found : Verdict) {parsed : Parsed}
    (hparsed : verdict ts request = .ok parsed)
    (hshallow : journal.Knows.ShallowFrom ts parsed.cursor.token) :
    (journal.remember request found).Knows.ShallowFrom ts parsed.cursor.token := by
  intro r hr hle
  rw [Journal.knows_remember] at hr
  obtain rfl | hknown := hr
  · by_cases hlt : r.start < ts.size
    · have hmoved := (verdict_advances ts r parsed hparsed).2 hlt
      omega
    · exact asks_inquiry_of_ge _ (Nat.le_of_not_lt hlt)
  · exact hshallow r hknown hle

/-- A verdict that is found and remembered was not known before, so that it counts as new. -/
theorem Known.Grown.remember {last : Journal} (hnew : ¬ journal.Knows request)
    (hgrown : journal.Knows.GrownBy ts ((request.inquiry ts).asks (verdict ts)) last.Knows)
    (hsound : last.Sound ts)
    (hmoved : journal.Knows.ShallowFrom ts request.start → ∀ parsed,
      verdict ts request = .ok parsed → last.Knows.ShallowFrom ts parsed.cursor.token) :
    journal.Knows.Grown ts request (last.remember request (verdict ts request)).Knows where
  keeps r hr := (Journal.knows_remember _ r).mpr (.inr (hgrown.keeps r hr))
  self := (Journal.knows_remember _ request).mpr (.inl rfl)
  called r hr := by
    rw [Journal.knows_remember] at hr
    obtain rfl | hknown := hr
    · exact .inr ⟨0, .self r⟩
    · obtain hbefore | ⟨other, hask, level, hcalls⟩ := hgrown.called r hknown
      · exact .inl hbefore
      · exact .inr ⟨level + 1, .ask other hask hcalls⟩
  again hknown := absurd hknown hnew
  moved hshallow parsed hparsed := (hmoved hshallow parsed hparsed).remember _ hparsed
  closed := (hsound.remember hgrown.asked).closed

end

/-- With the journal a request gets the answer that it gets without it, at the level at which it is
    asked. Nothing is promised about the journal after giving up. -/
def Transparent (ts : TokenStream) (limit levels : Nat) : Prop :=
  ∀ request journal, journal.Sound ts → (sharing ts levels).allows journal.Knows request →
    ∃ next, (answer ts limit levels request).runFrom journal =
        (answerAfresh ts limit levels request, next) ∧
      (request.Fits ts levels → next.Sound ts ∧ journal.Knows.Grown ts request next.Knows)

section

variable {ts : TokenStream} {limit levels : Nat}

/-- An inquiry that asks only what may be asked is worked out with the journal as without it. -/
theorem Inquiry.run_transparent {α : Type} (htransparent : Transparent ts limit levels)
    (event : Step → Event) {post : α → Known → Prop} {inquiry : Inquiry α} {journal : Journal}
    (hsound : journal.Sound ts)
    (hkeeps : inquiry.Keeps (sharing ts levels) post journal.Knows) :
    ∃ next, (inquiry.run (answer ts limit levels) fun step =>
          modify (·.log (event step))).runFrom journal =
        (inquiry.run (answerAfresh ts limit levels) (fun _ => pure ()), next) ∧
      ∀ a, inquiry.run (answerAfresh ts limit levels) (fun _ => pure ()) = .ok a →
        next.Sound ts ∧ post a next.Knows ∧
          journal.Knows.GrownBy ts (inquiry.asks (verdict ts)) next.Knows := by
  induction inquiry generalizing journal with
  | done result =>
    refine ⟨journal, rfl, fun a ha => ?_⟩
    obtain rfl := Except.ok.inj ha
    exact ⟨hsound, hkeeps, .refl _⟩
  | ask request resume ih =>
    obtain ⟨hallows, hresume⟩ := hkeeps
    obtain ⟨next, hanswer, hnext⟩ := htransparent request journal hsound hallows
    rw [run, run, Recorder.runFrom_bind, hanswer]
    cases hafresh : answerAfresh ts limit levels request with
    | error stop =>
      refine ⟨next, rfl, fun a ha => ?_⟩
      cases ha
    | ok found =>
      obtain ⟨hfits, rfl⟩ := answerAfresh_eq_ok_iff.mp hafresh
      obtain ⟨hsound', hgrown⟩ := hnext hfits
      obtain ⟨last, hrun, hlast⟩ :=
        ih (verdict ts request) hsound' (hresume _ _ ⟨rfl, hfits, hgrown⟩)
      refine ⟨last, hrun, fun a ha => ?_⟩
      obtain ⟨hsound'', hpost, hrest⟩ := hlast a ha
      exact ⟨hsound'', hpost, .cons hgrown hrest⟩
  | note step rest ih =>
    rw [run, Recorder.runFrom_bind, Recorder.runFrom_modify]
    exact ih ⟨hsound.verdicts, hsound.closed⟩ hkeeps

/-- A verdict that may be asked for and is known already is one that would be found again. -/
theorem fits_of_allows {known : Known} {request : Request}
    (hallows : (sharing ts levels).allows known request) (hknown : known request)
    (hlevels : 0 < levels) : request.Fits ts levels := by
  obtain _ | levels := levels
  · omega
  · obtain hshallow | hfrom | ⟨-, hfits⟩ := hallows
    · exact hshallow.fits levels
    · exact (hfrom request hknown (Nat.le_refl _)).fits levels
    · exact hfits

/-- A request that may be asked and is not known yet is worked out like any other. -/
theorem Request.inquiry_shares_of_allows {known : Known} {request : Request}
    (hclosed : known.Closed ts) (hallows : (sharing ts (levels + 1)).allows known request)
    (hnew : ¬ known request) :
    (request.inquiry ts).Keeps (sharing ts levels)
      (fun found known' => known.ShallowFrom ts request.start → ∀ parsed, found = .ok parsed →
        known'.ShallowFrom ts parsed.cursor.token) known := by
  obtain hshallow | hfrom | ⟨hknown, -⟩ := hallows
  · refine Inquiry.keeps_of_asks_eq_nil hshallow fun hfrom parsed hparsed => ?_
    rw [← verdict_eq] at hparsed
    exact hfrom.mono (verdict_advances ts request parsed hparsed).1
  · exact Inquiry.Keeps.mono (fun _ _ hpost _ => hpost) (inquiry_shares hclosed hfrom)
  · exact absurd hknown hnew

theorem transparent (ts : TokenStream) (limit levels : Nat) : Transparent ts limit levels := by
  induction levels with
  | zero => exact fun request journal _ _ => ⟨journal, rfl, False.elim⟩
  | succ levels ih =>
    intro request journal hsound hallows
    rw [answer_succ]
    cases hlookup : journal.lookup request with
    | some found =>
      -- The journal does not say how many levels a verdict took, but there are as many here.
      have hknown : journal.Knows request := by
        rw [Journal.Knows, hlookup]
        rfl
      have hfits := fits_of_allows hallows hknown (Nat.succ_pos levels)
      refine ⟨journal, ?_, fun _ => ⟨hsound, .of_known hknown hsound.closed⟩⟩
      rw [answerAfresh_eq_ok_iff.mpr ⟨hfits, hsound.verdicts request found hlookup⟩]
    | none =>
      have hnew : ¬ journal.Knows request := by
        rw [Journal.Knows, hlookup]
        exact Bool.false_ne_true
      have hkeeps := Request.inquiry_shares_of_allows hsound.closed hallows hnew
      obtain ⟨last, hrun, hlast⟩ :=
        Inquiry.run_transparent ih (.step (limit - levels)) hsound hkeeps
      dsimp only
      rw [hrun]
      cases hafresh : answerAfresh ts limit (levels + 1) request with
      | error stop =>
        refine ⟨last, ?_, fun hfits => ?_⟩
        · rw [answerAfresh] at hafresh
          rw [hafresh]
        · rw [answerAfresh_eq_ok_iff.mpr ⟨hfits, rfl⟩] at hafresh
          cases hafresh
      | ok found =>
        obtain rfl := eq_verdict_of_answerAfresh hafresh
        rw [answerAfresh] at hafresh
        obtain ⟨hsound', hmoved, hgrown⟩ := hlast _ hafresh
        rw [hafresh]
        refine ⟨_, rfl, fun _ => ⟨hsound'.remember hgrown.asked, ?_⟩⟩
        exact .remember hnew hgrown hsound' hmoved

end

theorem Journal.not_knows_empty (request : Request) : ¬ Journal.Knows {} request := by
  rw [Knows, lookup_empty]
  exact Bool.false_ne_true

theorem Journal.sound_empty (ts : TokenStream) : Journal.Sound ts {} where
  verdicts r found hfound := by
    rw [lookup_empty] at hfound
    cases hfound
  closed r hr := absurd hr (not_knows_empty r)

/-- With an empty journal a request is answered as without one, at any level. -/
theorem answer_empty (ts : TokenStream) (limit levels : Nat) (request : Request) :
    ((answer ts limit levels request).runFrom {}).1 = answerAfresh ts limit levels request := by
  have hallows : (sharing ts levels).allows (Journal.Knows {}) request :=
    .inr (.inl fun r hr => absurd hr (Journal.not_knows_empty r))
  obtain ⟨next, hanswer, -⟩ :=
    transparent ts limit levels request {} (Journal.sound_empty ts) hallows
  rw [hanswer]

theorem Session.parse_empty (ts : TokenStream) (limit : Nat) (request : Request) :
    (Session.parse ⟨ts, limit, {}⟩ request).1 =
      outcome (answerAfresh ts limit (limit + 1) request) := by
  rw [← answer_empty]
  rfl

/-- The first parse of a session comes out as it would without a journal, be it a node, a fault or
    the place at which it was given up. -/
theorem parse_eq_parseAfresh (ts : TokenStream) (limit : Nat) (request : Request) :
    (Session.parse ⟨ts, limit, {}⟩ request).1 = parseAfresh ts limit request := by
  rw [Session.parse_fst]
  exact congrArg outcome (answer_empty ts limit (limit + 1) request)

end CurlyScript
