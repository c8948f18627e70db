import CurlyScript.Proofs.Session.Need

namespace CurlyScript

/-- What the grammar says about a place, apart from limits and journals. The second case never
    arises, since a request is answered with as many levels as it needs. -/
def verdict (ts : TokenStream) (request : Request) : Verdict :=
  match answerAfresh ts 0 (request.need ts) request with
  | .ok found => found
  | .error stop => .error ⟨.unexpected none, stop.position⟩

section

variable {ts : TokenStream} {limit levels : Nat} {request : Request}

theorem answerAfresh_of_need_le (limit : Nat) (hlevels : request.need ts ≤ levels) :
    answerAfresh ts limit levels request = .ok (verdict ts request) := by
  obtain ⟨found, hfound, -⟩ := exists_answerAfresh ts 0 (Nat.le_refl (request.need ts))
  rw [verdict, hfound]
  exact answerAfresh_mono limit hlevels hfound

theorem eq_verdict_of_answerAfresh {found : Verdict}
    (hanswer : answerAfresh ts limit levels request = .ok found) : found = verdict ts request := by
  have hmore := answerAfresh_mono limit (Nat.le_max_left levels (request.need ts)) hanswer
  rw [answerAfresh_of_need_le limit (Nat.le_max_right ..)] at hmore
  exact (Except.ok.inj hmore).symm

theorem verdict_advances (ts : TokenStream) (request : Request) :
    request.AdvancedBy ts (verdict ts request) := by
  obtain ⟨found, hfound, hadvanced⟩ := exists_answerAfresh ts 0 (Nat.le_refl (request.need ts))
  rwa [eq_verdict_of_answerAfresh hfound] at hadvanced

theorem need_lt_of_mem_asks {other : Request}
    (hmem : other ∈ (request.inquiry ts).asks (verdict ts)) : other.need ts < request.need ts := by
  have hpositive := request.need_pos ts
  have hkeeps : (request.inquiry ts).Keeps (within ts (request.need ts - 1)) _ () :=
    request.inquiry_keeps (by omega)
  obtain ⟨_, hallows⟩ := hkeeps.allows_of_mem_asks
    (fun _ r _ => ⟨(), verdict_advances ts r⟩) other hmem
  have hle : other.need ts ≤ request.need ts - 1 := hallows
  omega

theorem answerAfresh_succ_eq_ok_iff {found : Verdict} :
    answerAfresh ts limit (levels + 1) request = .ok found ↔
      (∀ other ∈ (request.inquiry ts).asks (verdict ts),
        answerAfresh ts limit levels other = .ok (verdict ts other)) ∧
      found = (request.inquiry ts).eval (verdict ts) :=
  Inquiry.run_eq_ok_iff (fun _ _ h => eq_verdict_of_answerAfresh h) _ _

/-- So many levels suffice for a request: one for itself, and the rest for all that it asks. -/
def Request.Fits (ts : TokenStream) : Nat → Request → Prop
  | 0, _ => False
  | levels + 1, request =>
    ∀ other ∈ (request.inquiry ts).asks (verdict ts), Fits ts levels other

/-- The levels decide whether there is an answer and the grammar decides which. -/
theorem answerAfresh_eq_ok_iff {found : Verdict} :
    answerAfresh ts limit levels request = .ok found ↔
      request.Fits ts levels ∧ found = verdict ts request := by
  suffices hfits : answerAfresh ts limit levels request = .ok (verdict ts request) ↔
      request.Fits ts levels by
    constructor
    · intro hanswer
      obtain rfl := eq_verdict_of_answerAfresh hanswer
      exact ⟨hfits.mp hanswer, rfl⟩
    · rintro ⟨h, rfl⟩
      exact hfits.mpr h
  induction levels generalizing request with
  | zero =>
    constructor
    · intro h
      cases h
    · exact False.elim
  | succ levels ih =>
    constructor
    · exact fun h other hother => ih.mp ((answerAfresh_succ_eq_ok_iff.mp h).1 other hother)
    · intro hfits
      have hanswer := answerAfresh_succ_eq_ok_iff.mpr
        ⟨fun other hother => ih.mpr (hfits other hother), rfl⟩
      rwa [eq_verdict_of_answerAfresh hanswer] at hanswer

/-- A verdict is what its inquiry makes of the verdicts on other places. -/
theorem verdict_eq (ts : TokenStream) (request : Request) :
    verdict ts request = (request.inquiry ts).eval (verdict ts) := by
  have hanswer := answerAfresh_of_need_le 0 (Nat.le_succ (request.need ts))
  exact (answerAfresh_succ_eq_ok_iff.mp hanswer).2

theorem Request.Fits.mono {levels' : Nat} (hfits : request.Fits ts levels)
    (hle : levels ≤ levels') : request.Fits ts levels' := by
  have hanswer : answerAfresh ts 0 levels request = .ok (verdict ts request) :=
    answerAfresh_eq_ok_iff.mpr ⟨hfits, rfl⟩
  exact (answerAfresh_eq_ok_iff.mp (answerAfresh_mono 0 hle hanswer)).1

end

end CurlyScript
