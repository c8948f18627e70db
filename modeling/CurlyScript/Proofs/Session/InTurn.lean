import CurlyScript.Proofs.Session.Marks

namespace CurlyScript

namespace Event

/-- Whether an event shows that nothing more is to come of the work at a level: that other work
    begins at that level or further up, that a rule was tried further up, or that all is over. -/
def closes (level : Nat) : Event → Bool
  | .step other (.entered _) => other ≤ level
  | .step other _ => other < level
  | .finished _ _ => true

/-- The outcome of a rule that was tried at a level, if an event tells one. -/
def outcomeAt? (level : Nat) : Event → Option Step
  | .step _ (.entered _) => none
  | .step other outcome => if other = level then some outcome else none
  | .finished _ _ => none

/-- An event that belongs to work at a level or further down, and tells nothing of work further
    up. -/
def Below (level : Nat) (event : Event) : Prop :=
  ∀ outer < level, event.closes outer = false ∧ event.outcomeAt? outer = none

end Event

/-- The outcomes of the rules that are tried at a level, up to the event that closes the work. -/
def outcomesAt (level : Nat) (events : List Event) : List Step :=
  (events.takeWhile fun event => !event.closes level).filterMap (·.outcomeAt? level)

/-- Rules are declined in turn, and the one after those may match. -/
def TriedInTurn (rules : List Rule) (outcomes : List Step) : Prop :=
  ∃ declined rest, rules = declined ++ rest ∧
    (outcomes = declined.map .declined ∨
      ∃ rule later stop, rest = rule :: later ∧
        outcomes = declined.map .declined ++ [.matched rule stop])

/-- Events that come after the work at a level, so that the first of them closes it. -/
def ClosedBy (level : Nat) (events : List Event) : Prop :=
  ∀ event ∈ events.head?, event.closes level = true

/-- Wherever work on a request begins, the outcomes after that are those of its rules in turn. -/
def RulesInTurn : List Event → Prop
  | [] => True
  | event :: rest =>
    (∀ level request, event = .step level (.entered request) →
      TriedInTurn (Rule.candidates request.filter) (outcomesAt level rest)) ∧ RulesInTurn rest

section

variable {level outer : Nat} {rule : Rule} {rules : List Rule} {marks : List Mark}
  {events rest : List Event} {outcomes : List Step}

theorem triedInTurn_nil (rules : List Rule) : TriedInTurn rules [] :=
  ⟨[], rules, rfl, .inl rfl⟩

theorem triedInTurn_matched (rule : Rule) (rules : List Rule) (stop : Nat) :
    TriedInTurn (rule :: rules) [.matched rule stop] :=
  ⟨[], rule :: rules, rfl, .inr ⟨rule, rules, stop, rfl, rfl⟩⟩

theorem TriedInTurn.cons (htried : TriedInTurn rules outcomes) (rule : Rule) :
    TriedInTurn (rule :: rules) (.declined rule :: outcomes) := by
  obtain ⟨declined, rest, rfl, rfl | ⟨next, later, stop, rfl, rfl⟩⟩ := htried
  · exact ⟨rule :: declined, rest, rfl, .inl rfl⟩
  · exact ⟨rule :: declined, next :: later, rfl, .inr ⟨next, later, stop, rfl, rfl⟩⟩

theorem Event.Below.mono {event : Event} (hbelow : event.Below level) (hle : outer ≤ level) :
    event.Below outer :=
  fun other hother => hbelow other (hother.trans_le hle)

theorem Event.below_step (level : Nat) (step : Step) : (Event.step level step).Below level := by
  intro outer houter
  cases step with
  | entered request => exact ⟨decide_eq_false houter.not_ge, rfl⟩
  | declined rule => exact ⟨decide_eq_false houter.not_gt, if_neg houter.ne'⟩
  | matched rule stop => exact ⟨decide_eq_false houter.not_gt, if_neg houter.ne'⟩

theorem Event.closes_mono {event : Event} (hle : level ≤ outer)
    (hcloses : event.closes level = true) : event.closes outer = true := by
  obtain ⟨other, _ | _ | _⟩ | _ := event
  · exact decide_eq_true ((of_decide_eq_true hcloses).trans hle)
  · exact decide_eq_true ((of_decide_eq_true hcloses).trans_le hle)
  · exact decide_eq_true ((of_decide_eq_true hcloses).trans_le hle)
  · rfl

/-- What happens further down does not count. -/
theorem outcomesAt_append_of_below (hbelow : ∀ event ∈ events, event.Below level)
    (houter : outer < level) : outcomesAt outer (events ++ rest) = outcomesAt outer rest := by
  have hopen : ∀ event ∈ events, (!event.closes outer) = true := by
    intro event hevent
    rw [(hbelow event hevent outer houter).1]
    rfl
  have hnone : events.filterMap (·.outcomeAt? outer) = [] :=
    List.filterMap_eq_nil_iff.mpr fun event hevent => (hbelow event hevent outer houter).2
  rw [outcomesAt, List.takeWhile_append_of_pos hopen, List.filterMap_append, hnone, List.nil_append]
  rfl

theorem outcomesAt_of_closedBy (hclosed : ClosedBy level rest) : outcomesAt level rest = [] := by
  cases rest with
  | nil => rfl
  | cons event rest =>
    rw [outcomesAt, List.takeWhile_cons, hclosed event rfl]
    rfl

theorem outcomesAt_step_cons (level : Nat) (outcome : Step)
    (houtcome : ∀ request, outcome ≠ .entered request) (rest : List Event) :
    outcomesAt level (.step level outcome :: rest) = outcome :: outcomesAt level rest := by
  cases outcome with
  | entered request => exact absurd rfl (houtcome request)
  | declined rule => simp [outcomesAt, Event.closes, Event.outcomeAt?]
  | matched rule stop => simp [outcomesAt, Event.closes, Event.outcomeAt?]

theorem ClosedBy.mono (hclosed : ClosedBy level rest) (hle : level ≤ outer) : ClosedBy outer rest :=
  fun event hevent => Event.closes_mono hle (hclosed event hevent)

theorem logOf_workMarks (level : Nat) (request : Request) (own : List Mark) :
    logOf (workMarks level request own) = .step level (.entered request) :: logOf own := by
  rw [workMarks, logOf_logged_cons, logOf_append]
  exact congrArg _ (List.append_nil _)

theorem below_workMarks (request : Request) {own : List Mark}
    (hown : ∀ event ∈ logOf own, event.Below level) :
    ∀ event ∈ logOf (workMarks level request own), event.Below level := by
  rw [logOf_workMarks, List.forall_mem_cons]
  exact ⟨Event.below_step level _, hown⟩

namespace Course

/-- Work at a level logs nothing further up. -/
theorem below_log (hcourse : Course level rules marks) :
    ∀ event ∈ logOf marks, event.Below level := by
  induction hcourse with
  | ended level rules => exact List.forall_mem_nil _
  | @asked level _ request _ _ hown hrest ihown ihrest =>
    have hbelow := below_workMarks request ihown
    rw [logOf_append, List.forall_mem_append]
    exact ⟨fun event hevent => (hbelow event hevent).mono (Nat.le_succ level), ihrest⟩
  | declined hrest ih =>
    rw [logOf_logged_cons, List.forall_mem_cons]
    exact ⟨Event.below_step _ _, ih⟩
  | matched level rule rules stop =>
    rw [logOf_logged_cons, List.forall_mem_cons]
    exact ⟨Event.below_step level _, List.forall_mem_nil _⟩

/-- Work one level down is closed by whatever its asker does next. -/
theorem closedBy (hcourse : Course level rules marks) (hclosed : ClosedBy level rest) :
    ClosedBy (level + 1) (logOf marks ++ rest) := by
  cases hcourse with
  | ended => exact hclosed.mono (Nat.le_succ level)
  | asked hown hrest =>
    rintro event ⟨⟩
    exact decide_eq_true (Nat.le_refl _)
  | declined hrest =>
    rintro event ⟨⟩
    exact decide_eq_true (Nat.lt_succ_self level)
  | matched =>
    rintro event ⟨⟩
    exact decide_eq_true (Nat.lt_succ_self level)

theorem triedInTurn (hcourse : Course level rules marks) (hclosed : ClosedBy level rest) :
    TriedInTurn rules (outcomesAt level (logOf marks ++ rest)) := by
  induction hcourse with
  | ended level rules =>
    rw [logOf, List.filterMap_nil, List.nil_append, outcomesAt_of_closedBy hclosed]
    exact triedInTurn_nil rules
  | @asked level _ request _ _ hown hrest ihown ihrest =>
    -- What the asked request does is told one level down, and so has no outcome for this one.
    have hbelow := below_workMarks request hown.below_log
    rw [logOf_append, List.append_assoc,
      outcomesAt_append_of_below hbelow (Nat.lt_succ_self level)]
    exact ihrest hclosed
  | @declined level rule _ _ hrest ih =>
    rw [logOf_logged_cons, List.cons_append, outcomesAt_step_cons level (.declined rule) nofun]
    exact (ih hclosed).cons rule
  | matched level rule rules stop =>
    rw [logOf_logged_cons, List.cons_append, logOf, List.filterMap_nil, List.nil_append,
      outcomesAt_step_cons level (.matched rule stop) nofun, outcomesAt_of_closedBy hclosed]
    exact triedInTurn_matched rule rules stop

/-- The rules of whatever is asked meanwhile are tried in turn too. -/
theorem rulesInTurn (hcourse : Course level rules marks) (hclosed : ClosedBy level rest)
    (hrest : RulesInTurn rest) : RulesInTurn (logOf marks ++ rest) := by
  induction hcourse generalizing rest with
  | ended level rules => exact hrest
  | asked hown hlater ihown ihlater =>
    -- The asked request may be left without a match. It is what comes later that closes its work.
    have hlaterClosed := hlater.closedBy hclosed
    rw [logOf_append, logOf_workMarks, List.append_assoc, List.cons_append]
    refine ⟨?_, ihown hlaterClosed (ihlater hclosed hrest)⟩
    rintro level request ⟨⟩
    exact hown.triedInTurn hlaterClosed
  | declined hlater ih => exact ⟨nofun, ih hclosed hrest⟩
  | matched level rule rules stop => exact ⟨nofun, hrest⟩

end Course

theorem RulesInTurn.triedInTurn {before after : List Event} {request : Request}
    (hturn : RulesInTurn (before ++ .step level (.entered request) :: after)) :
    TriedInTurn (Rule.candidates request.filter) (outcomesAt level after) := by
  induction before with
  | nil => exact hturn.1 level request rfl
  | cons event before ih => exact ih hturn.2

/-- What a session logs shows all its rules in turn, whatever is logged after the session. -/
theorem Session.rulesInTurn_marks (session : Session) (request : Request)
    (hclosed : ClosedBy 0 rest) (hrest : RulesInTurn rest) :
    RulesInTurn (logOf (session.marks request) ++ rest) := by
  obtain hnone | ⟨own, hown, hcourse⟩ := session.isVisit_marks request
  · rw [hnone]
    exact hrest
  · rw [hown, logOf_workMarks, List.cons_append]
    refine ⟨?_, hcourse.rulesInTurn hclosed hrest⟩
    rintro level request ⟨⟩
    exact hcourse.triedInTurn hclosed

end

end CurlyScript
