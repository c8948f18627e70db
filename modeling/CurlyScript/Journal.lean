import CurlyScript.Event
import Std.Data.TreeMap

namespace CurlyScript

/-- What a parse leaves behind: the verdicts found so far, by place and filter, and a log of its
    steps. -/
structure Journal where
  verdicts : Std.TreeMap Nat (List (Option NodeFilter × Verdict)) := ∅
  events : Array Event := #[]

namespace Journal

def log (journal : Journal) (event : Event) : Journal :=
  { journal with events := journal.events.push event }

/-- The verdicts found at one place, the latest first. -/
def verdictsAt (journal : Journal) (start : Nat) : List (Option NodeFilter × Verdict) :=
  journal.verdicts.getD start []

/-- The verdict on a request, if it has been found before. Two requests are the same if their
    filters list the same kinds in the same order, however they were made. -/
def lookup (journal : Journal) (request : Request) : Option Verdict :=
  (journal.verdictsAt request.start).lookup request.filter

def remember (journal : Journal) (request : Request) (verdict : Verdict) : Journal :=
  { journal with
    verdicts := journal.verdicts.insert request.start
      ((request.filter, verdict) :: journal.verdictsAt request.start) }

theorem lookup_log (journal : Journal) (event : Event) (request : Request) :
    (journal.log event).lookup request = journal.lookup request :=
  rfl

theorem lookup_empty (events : Array Event) (request : Request) :
    lookup { events } request = none := by
  simp [lookup, verdictsAt]

/-- Remembering a verdict changes what is found for its own request and nothing else. -/
theorem lookup_remember (journal : Journal) (request other : Request) (verdict : Verdict) :
    (journal.remember request verdict).lookup other =
      if other = request then some verdict else journal.lookup other := by
  obtain ⟨start, filter⟩ := request
  obtain ⟨otherStart, otherFilter⟩ := other
  by_cases hstart : start = otherStart
  · subst hstart
    by_cases hfilter : otherFilter = filter
    · simp [lookup, remember, verdictsAt, hfilter]
    · have hbeq : (otherFilter == filter) = false := beq_false_of_ne hfilter
      simp [lookup, remember, verdictsAt, List.lookup_cons, hbeq, hfilter]
  · have hne : ¬ otherStart = start := fun h => hstart h.symm
    simp [lookup, remember, verdictsAt, Std.TreeMap.getD_insert, hstart, hne]

end Journal

end CurlyScript
