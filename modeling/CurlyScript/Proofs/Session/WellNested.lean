import CurlyScript.Proofs.Session.Marks

namespace CurlyScript

/-- The levels of the requests that are being worked on once a mark is made, the innermost first. -/
def Mark.follow (running : List Nat) : Mark → List Nat
  | .logged (.step level (.entered _)) => level :: running
  | .logged _ => running
  | .left => running.tail

def runningAfter (running : List Nat) (marks : List Mark) : List Nat :=
  marks.foldl Mark.follow running

/-- A request is entered one level below the innermost one that is being worked on, and at level 0
    if there is none. The outcome of a rule stands at the level of the innermost request, and only a
    request that is being worked on is left. -/
def Mark.Nested (running : List Nat) : Mark → Prop
  | .logged (.step level (.entered _)) => level = match running with
    | [] => 0
    | inner :: _ => inner + 1
  | .logged (.step level _) => ∃ outer, running = level :: outer
  | .logged (.finished _ _) => False
  | .left => running ≠ []

/-- Each mark is nested in what is being worked on when it is made. -/
def WellNested : (running : List Nat) → List Mark → Prop
  | _, [] => True
  | running, mark :: rest => mark.Nested running ∧ WellNested (mark.follow running) rest

section

variable {running : List Nat} {marks rest : List Mark} {level : Nat} {rules : List Rule}

theorem runningAfter_append :
    runningAfter running (marks ++ rest) = runningAfter (runningAfter running marks) rest :=
  List.foldl_append ..

theorem wellNested_append :
    WellNested running (marks ++ rest) ↔
      WellNested running marks ∧ WellNested (runningAfter running marks) rest := by
  induction marks generalizing running with
  | nil => exact (and_iff_right trivial).symm
  | cons mark marks ih =>
    rw [List.cons_append, WellNested, WellNested, ih, and_assoc]
    rfl

theorem WellNested.nested {before after : List Mark} {mark : Mark}
    (hnested : WellNested running (before ++ mark :: after)) :
    mark.Nested (runningAfter running before) :=
  (wellNested_append.mp hnested).2.1

/-- Work that is nested in itself is nested where it may begin, and nothing of it runs on. -/
theorem wellNested_workMarks {request : Request} {own : List Mark}
    (hlevel : (Mark.logged (.step level (.entered request))).Nested running)
    (hown : WellNested (level :: running) own)
    (hback : runningAfter (level :: running) own = level :: running) :
    WellNested running (workMarks level request own) ∧
      runningAfter running (workMarks level request own) = running := by
  have hafter : runningAfter (level :: running) (own ++ [.left]) = running := by
    rw [runningAfter_append, hback]
    rfl
  refine ⟨⟨hlevel, wellNested_append.mpr ⟨hown, ?_, trivial⟩⟩, hafter⟩
  change runningAfter (level :: running) own ≠ []
  rw [hback]
  exact List.cons_ne_nil _ _

theorem Course.wellNested (hcourse : Course level rules marks) :
    WellNested (level :: running) marks ∧
      runningAfter (level :: running) marks = level :: running := by
  induction hcourse generalizing running with
  | ended level rules => exact ⟨trivial, rfl⟩
  | @asked level _ request _ _ hown hrest ihown ihrest =>
    have hbegin : (Mark.logged (.step (level + 1) (.entered request))).Nested (level :: running) :=
      rfl
    obtain ⟨hnested, hback⟩ := wellNested_workMarks hbegin ihown.1 ihown.2
    rw [wellNested_append, runningAfter_append, hback]
    exact ⟨⟨hnested, ihrest.1⟩, ihrest.2⟩
  | declined hrest ih => exact ⟨⟨⟨running, rfl⟩, ih.1⟩, ih.2⟩
  | matched level rule rules stop => exact ⟨⟨⟨running, rfl⟩, trivial⟩, rfl⟩

/-- All that a session begins it leaves, whether it comes to a verdict or gives up. -/
theorem Session.wellNested_marks (session : Session) (request : Request) :
    WellNested [] (session.marks request) ∧ runningAfter [] (session.marks request) = [] := by
  obtain hnone | ⟨own, hown, hcourse⟩ := session.isVisit_marks request
  · rw [hnone]
    exact ⟨trivial, rfl⟩
  · rw [hown]
    exact wellNested_workMarks rfl hcourse.wellNested.1 hcourse.wellNested.2

end

end CurlyScript
