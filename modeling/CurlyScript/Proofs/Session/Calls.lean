import CurlyScript.Proofs.Session.Verdict

namespace CurlyScript

/-- The requests that come up while a request is worked out without a limit and without a journal,
    each with the number of levels at which it lies below the first. -/
inductive Request.Calls (ts : TokenStream) : Request → Nat → Request → Prop
  | self (request : Request) : Calls ts request 0 request
  | ask {request called : Request} {level : Nat} (other : Request)
      (hask : other ∈ (request.inquiry ts).asks (verdict ts))
      (hcalls : Calls ts other level called) : Calls ts request (level + 1) called

/-- A request asks for nothing else. -/
def Request.Shallow (ts : TokenStream) (request : Request) : Prop :=
  (request.inquiry ts).asks (verdict ts) = []

variable {ts : TokenStream} {levels : Nat} {request : Request}

/-- Levels suffice for a request exactly if all that it calls lies within them. -/
theorem Request.fits_iff_calls :
    request.Fits ts levels ↔ ∀ level called, request.Calls ts level called → level < levels := by
  induction levels generalizing request with
  | zero => exact ⟨False.elim, fun h => Nat.not_lt_zero 0 (h 0 request (.self request))⟩
  | succ levels ih =>
    constructor
    · intro hfits level called hcalls
      cases hcalls with
      | self => exact Nat.succ_pos levels
      | ask other hask hcalls => exact Nat.succ_lt_succ (ih.mp (hfits _ hask) _ _ hcalls)
    · intro h other hask
      exact ih.mpr fun level called hcalls =>
        Nat.lt_of_succ_lt_succ (h (level + 1) called (.ask other hask hcalls))

theorem Request.Shallow.fits (hshallow : request.Shallow ts) (levels : Nat) :
    request.Fits ts (levels + 1) := by
  intro other hother
  rw [hshallow] at hother
  cases hother

theorem Request.Shallow.eq_of_calls (hshallow : request.Shallow ts) {level : Nat}
    {called : Request} (hcalls : request.Calls ts level called) : called = request := by
  cases hcalls with
  | self => rfl
  | ask other hask =>
    rw [hshallow] at hask
    cases hask

end CurlyScript
