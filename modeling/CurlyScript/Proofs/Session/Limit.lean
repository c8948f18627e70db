import CurlyScript.Proofs.Session.Memory

namespace CurlyScript

/-- What becomes of an outcome where less nesting is allowed: it stays as it is or is given up. -/
def TrimmedTo {α : Type} (limit : Nat) (trimmed outcome : Except ParseError α) : Prop :=
  trimmed = outcome ∨ ∃ position, trimmed = .error (.tooDeep ⟨limit, position⟩)

/-- Something that comes up while a request is worked out lies deeper than the limit. -/
def Request.NestsBeyond (ts : TokenStream) (limit : Nat) (request : Request) : Prop :=
  ∃ level called, request.Calls ts level called ∧ limit < level

section

variable {ts : TokenStream} {limit : Nat} {request : Request}

theorem Request.fits_iff_not_nestsBeyond :
    request.Fits ts (limit + 1) ↔ ¬ request.NestsBeyond ts limit := by
  rw [fits_iff_calls]
  constructor
  · rintro hfits ⟨level, called, hcalls, hdeep⟩
    have hlevel := hfits level called hcalls
    omega
  · intro h level called hcalls
    by_cases hdeep : limit < level
    · exact absurd ⟨level, called, hcalls, hdeep⟩ h
    · omega

/-- With as much room as a request takes, a parse comes to the verdict of the grammar. -/
theorem Session.parse_of_need_le (hneed : request.need ts ≤ limit + 1) :
    (Session.parse ⟨ts, limit, {}⟩ request).1 = outcome (.ok (verdict ts request)) := by
  rw [Session.parse_empty]
  exact congrArg outcome (answerAfresh_of_need_le limit hneed)

/-- Within the limit a parse comes to the verdict of the grammar. -/
theorem Session.parse_of_not_nestsBeyond (h : ¬ request.NestsBeyond ts limit) :
    (Session.parse ⟨ts, limit, {}⟩ request).1 = outcome (.ok (verdict ts request)) := by
  rw [Session.parse_empty]
  exact congrArg outcome (answerAfresh_eq_ok_iff.mpr ⟨Request.fits_iff_not_nestsBeyond.mpr h, rfl⟩)

/-- Beyond the limit a parse is given up, whichever rule it was that went there. -/
theorem Session.parse_of_nestsBeyond (h : request.NestsBeyond ts limit) :
    ∃ position,
      (Session.parse ⟨ts, limit, {}⟩ request).1 = .error (.tooDeep ⟨limit, position⟩) := by
  rw [Session.parse_empty]
  cases hanswer : answerAfresh ts limit (limit + 1) request with
  | ok found =>
    have hfits := (answerAfresh_eq_ok_iff.mp hanswer).1
    exact absurd h (Request.fits_iff_not_nestsBeyond.mp hfits)
  | error stop =>
    obtain rfl := answerAfresh_error hanswer
    exact ⟨stop.position, rfl⟩

/-- A parse comes to the verdict of the grammar or is given up. -/
theorem Session.parse_trimmedTo_verdict (ts : TokenStream) (limit : Nat) (request : Request) :
    TrimmedTo limit (Session.parse ⟨ts, limit, {}⟩ request).1
      (outcome (.ok (verdict ts request))) := by
  by_cases h : request.NestsBeyond ts limit
  · exact .inr (parse_of_nestsBeyond h)
  · exact .inl (parse_of_not_nestsBeyond h)

/-- A parse reads what is there for the grammar if its limit suffices. -/
theorem Session.parse_eq_ok_iff {parsed : Parsed} :
    (Session.parse ⟨ts, limit, {}⟩ request).1 = .ok parsed ↔
      request.Fits ts (limit + 1) ∧ verdict ts request = .ok parsed := by
  rw [Session.parse_empty, outcome_eq_ok, answerAfresh_eq_ok_iff, eq_comm]

/-- What a parse reads is there for the grammar. -/
theorem Session.verdict_of_ok {parsed : Parsed}
    (hparsed : (Session.parse ⟨ts, limit, {}⟩ request).1 = .ok parsed) :
    verdict ts request = .ok parsed :=
  (parse_eq_ok_iff.mp hparsed).2

/-- What a parse finds at fault is so for the grammar. -/
theorem Session.verdict_of_malformed {error : SyntaxError}
    (hfault : (Session.parse ⟨ts, limit, {}⟩ request).1 = .error (.malformed error)) :
    verdict ts request = .error error := by
  obtain hsame | ⟨position, hdeep⟩ := parse_trimmedTo_verdict ts limit request
  · rw [hfault] at hsame
    exact Except.ok.inj (outcome_eq_malformed.mp hsame.symm)
  · rw [hfault] at hdeep
    cases hdeep

theorem outcome_verdict_ne_tooDeep (found : Verdict) (stop : TooDeep) :
    outcome (.ok found) ≠ .error (.tooDeep stop) :=
  fun h => nomatch outcome_eq_tooDeep.mp h

theorem Session.parse_eq_tooDeep_iff :
    (∃ position,
        (Session.parse ⟨ts, limit, {}⟩ request).1 = .error (.tooDeep ⟨limit, position⟩)) ↔
      request.NestsBeyond ts limit := by
  constructor
  · rintro ⟨position, hdeep⟩
    by_cases h : request.NestsBeyond ts limit
    · exact h
    · rw [parse_of_not_nestsBeyond h] at hdeep
      exact absurd hdeep (outcome_verdict_ne_tooDeep _ _)
  · exact parse_of_nestsBeyond

theorem Request.NestsBeyond.anti {low high : Nat} (hle : low ≤ high)
    (h : request.NestsBeyond ts high) : request.NestsBeyond ts low := by
  obtain ⟨level, called, hcalls, hdeep⟩ := h
  exact ⟨level, called, hcalls, Nat.lt_of_le_of_lt hle hdeep⟩

theorem Session.parse_trimmedTo {low high : Nat} (hle : low ≤ high) :
    TrimmedTo low (Session.parse ⟨ts, low, {}⟩ request).1
      (Session.parse ⟨ts, high, {}⟩ request).1 := by
  by_cases h : request.NestsBeyond ts low
  · exact .inr (parse_of_nestsBeyond h)
  · have hhigh : ¬ request.NestsBeyond ts high := fun hbeyond => h (hbeyond.anti hle)
    rw [parse_of_not_nestsBeyond h, parse_of_not_nestsBeyond hhigh]
    exact .inl rfl

end

/-- Whatever is made of the node of an outcome, trimming the outcome trims what is made of it. -/
theorem TrimmedTo.bind {α β : Type} {limit : Nat} {trimmed outcome : Except ParseError α}
    (h : TrimmedTo limit trimmed outcome) (f : α → Except ParseError β) :
    TrimmedTo limit (trimmed.bind f) (outcome.bind f) := by
  obtain rfl | ⟨position, rfl⟩ := h
  · exact .inl rfl
  · exact .inr ⟨position, rfl⟩

end CurlyScript
