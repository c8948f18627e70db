import CurlyScript.Proofs.Grammar.Callee
import CurlyScript.Proofs.Session.Calls

namespace CurlyScript

/-- The requests that a journal has verdicts on. -/
abbrev Known := Request → Prop

def Journal.Knows (journal : Journal) : Known :=
  fun request => (journal.lookup request).isSome

namespace Known

/-- From an index on, only verdicts that need no others are known. Those may be looked up at any
    level, since they would be found again at any level. -/
def ShallowFrom (ts : TokenStream) (known : Known) (i : Nat) : Prop :=
  ∀ request, known request → i ≤ request.start → request.Shallow ts

/-- A verdict is only remembered once all that led to it is. -/
def Closed (ts : TokenStream) (known : Known) : Prop :=
  ∀ request, known request → ∀ other ∈ (request.inquiry ts).asks (verdict ts), known other

/-- What answering a request does to what is known. -/
structure Grown (ts : TokenStream) (known : Known) (request : Request) (known' : Known) : Prop where
  keeps : ∀ r, known r → known' r
  self : known' request
  called : ∀ r, known' r → known r ∨ ∃ level, request.Calls ts level r
  again : known request → ∀ r, known' r → known r
  moved : known.ShallowFrom ts request.start → ∀ parsed, verdict ts request = .ok parsed →
    known'.ShallowFrom ts parsed.cursor.token
  closed : known'.Closed ts

variable {ts : TokenStream} {known known' : Known} {request : Request}

theorem ShallowFrom.mono {i j : Nat} (hshallow : known.ShallowFrom ts i) (hle : i ≤ j) :
    known.ShallowFrom ts j :=
  fun r hr hj => hshallow r hr (Nat.le_trans hle hj)

/-- Answering a request that asks nothing adds at most that request. -/
theorem Grown.shallowFrom (hgrown : known.Grown ts request known') (hrequest : request.Shallow ts)
    {i : Nat} (hshallow : known.ShallowFrom ts i) : known'.ShallowFrom ts i := by
  intro r hr hle
  obtain hknown | ⟨level, hcalls⟩ := hgrown.called r hr
  · exact hshallow r hknown hle
  · rw [hrequest.eq_of_calls hcalls]
    exact hrequest

end Known

/-- The contract between a rule and those who remember what they answered. A question may be asked
    if it leads to no others, if it is asked for the first time and so is all that it may lead to,
    or if it has been answered before and the levels left would suffice to answer it again. -/
def sharing (ts : TokenStream) (levels : Nat) : Contract Known where
  allows known request := request.Shallow ts ∨ known.ShallowFrom ts request.start ∨
    (known request ∧ request.Fits ts levels)
  answers known request found known' :=
    found = verdict ts request ∧ request.Fits ts levels ∧ known.Grown ts request known'

end CurlyScript
