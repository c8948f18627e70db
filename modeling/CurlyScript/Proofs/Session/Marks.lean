import CurlyScript.Proofs.Inquiry.Conduct
import CurlyScript.Proofs.Session.Recorder

namespace CurlyScript

/-- What happens along a run: its events, and between them that the work on a request ends, be it
    with a verdict or by giving up. A log does not tell the latter. -/
inductive Mark where
  | logged (event : Event)
  | left
  deriving DecidableEq, Repr

/-- The event that a log has in the place of a mark. -/
def Mark.event? : Mark → Option Event
  | .logged event => some event
  | .left => none

/-- What a log tells of some marks. -/
def logOf (marks : List Mark) : List Event :=
  marks.filterMap Mark.event?

/-- The marks, in order, of an inquiry that is run from a journal. Each question takes the marks
    that `marks` tells, and those after it depend on how it was answered. -/
def Inquiry.marksFrom {α : Type} (answer : Request → Recorder Verdict)
    (marks : Request → Journal → List Mark) (event : Step → Event) :
    Inquiry α → Journal → List Mark
  | .done _, _ => []
  | .ask request resume, journal =>
    marks request journal ++ match (answer request).runFrom journal with
      | (.ok found, next) => (resume found).marksFrom answer marks event next
      | (.error _, _) => []
  | .note step next, journal =>
    .logged (event step) :: next.marksFrom answer marks event (journal.log (event step))

/-- The marks, in order, of answering a request. What the journal knows or what lies too deep is not
    worked on, and past the end of the tokens nothing is entered, so that nothing is left either. -/
def answerMarks (ts : TokenStream) (limit : Nat) : (levels : Nat) → Request → Journal → List Mark
  | 0, _, _ => []
  | levels + 1, request, journal =>
    match journal.lookup request with
    | some _ => []
    | none => (request.inquiry ts).marksFrom (answer ts limit levels) (answerMarks ts limit levels)
        (.step (limit - levels)) journal ++ if request.start < ts.size then [.left] else []

/-- The marks of a session that parses a request. -/
def Session.marks (session : Session) (request : Request) : List Mark :=
  answerMarks session.tokens session.limit (session.limit + 1) request session.journal

/-- The marks of the work on a request, with those in between. -/
def workMarks (level : Nat) (request : Request) (own : List Mark) : List Mark :=
  .logged (.step level (.entered request)) :: (own ++ [.left])

/-- The course of work at a level with some rules to go. The first of them may ask for other places,
    which are worked on one level below, before it declines or matches. A match ends the work, and
    so does a failure at any time, which leaves no mark. -/
inductive Course : (level : Nat) → List Rule → List Mark → Prop
  | ended (level : Nat) (rules : List Rule) : Course level rules []
  | asked {level : Nat} {rules : List Rule} {request : Request} {own rest : List Mark}
      (hown : Course (level + 1) (Rule.candidates request.filter) own)
      (hrest : Course level rules rest) :
      Course level rules (workMarks (level + 1) request own ++ rest)
  | declined {level : Nat} {rule : Rule} {rules : List Rule} {rest : List Mark}
      (hrest : Course level rules rest) :
      Course level (rule :: rules) (.logged (.step level (.declined rule)) :: rest)
  | matched (level : Nat) (rule : Rule) (rules : List Rule) (stop : Nat) :
      Course level (rule :: rules) [.logged (.step level (.matched rule stop))]

/-- Marks of a request that is worked on at a level or answered at once. -/
def IsVisit (level : Nat) (request : Request) (marks : List Mark) : Prop :=
  marks = [] ∨ ∃ own, marks = workMarks level request own ∧
    Course level (Rule.candidates request.filter) own

theorem logOf_append (marks rest : List Mark) : logOf (marks ++ rest) = logOf marks ++ logOf rest :=
  List.filterMap_append ..

theorem logOf_logged_cons (event : Event) (rest : List Mark) :
    logOf (.logged event :: rest) = event :: logOf rest :=
  rfl

theorem Journal.toList_events_log (journal : Journal) (event : Event) :
    (journal.log event).events.toList = journal.events.toList ++ [event] :=
  Array.toList_push ..

section

variable {α β : Type} {answer : Request → Recorder Verdict}
  {marks : Request → Journal → List Mark}

/-- If answers log what their marks tell, then so does an inquiry that is run on them. -/
theorem Inquiry.events_run (event : Step → Event)
    (hanswer : ∀ request journal, ((answer request).runFrom journal).2.events.toList =
      journal.events.toList ++ logOf (marks request journal))
    (inquiry : Inquiry α) (journal : Journal) :
    ((inquiry.run answer fun step => modify (·.log (event step))).runFrom
        journal).2.events.toList =
      journal.events.toList ++ logOf (inquiry.marksFrom answer marks event journal) := by
  induction inquiry generalizing journal with
  | done result => exact (List.append_nil _).symm
  | ask request resume ih =>
    have hfirst := hanswer request journal
    rw [run, marksFrom, Recorder.runFrom_bind, logOf_append]
    rcases hrun : (answer request).runFrom journal with ⟨stop | found, next⟩
    · rw [hrun] at hfirst
      rw [hfirst]
      exact (List.append_nil _).symm.trans (List.append_assoc ..)
    · rw [hrun] at hfirst
      rw [ih found next, hfirst, List.append_assoc]
  | note step rest ih =>
    rw [run, marksFrom, Recorder.runFrom_bind, Recorder.runFrom_modify, logOf_logged_cons]
    dsimp only
    rw [ih, Journal.toList_events_log, List.append_assoc]
    rfl

theorem Inquiry.marksFrom_bind (event : Step → Event) (inquiry : Inquiry α) (f : α → Inquiry β)
    (journal : Journal) :
    (inquiry >>= f).marksFrom answer marks event journal =
      inquiry.marksFrom answer marks event journal ++
        match (inquiry.run answer fun step => modify (·.log (event step))).runFrom journal with
        | (.ok a, next) => (f a).marksFrom answer marks event next
        | (.error _, _) => [] := by
  change (inquiry.bind f).marksFrom answer marks event journal = _
  induction inquiry generalizing journal with
  | done result => rfl
  | ask request resume ih =>
    rw [Inquiry.bind, marksFrom, marksFrom, run, Recorder.runFrom_bind, List.append_assoc]
    congr 1
    rcases (answer request).runFrom journal with ⟨stop | found, next⟩
    · rfl
    · exact ih found next
  | note step rest ih =>
    rw [Inquiry.bind, marksFrom, marksFrom, run, Recorder.runFrom_bind, Recorder.runFrom_modify,
      List.cons_append, ih]

variable {level : Nat} {rules : List Rule}

/-- A rule notes nothing itself. What it asks comes before whatever is done after it. -/
theorem Inquiry.course_append {asks : Request → Prop} {post : α → Prop} {inquiry : Inquiry α}
    (hbehaves : inquiry.Behaves asks (fun _ => False) post) (event : Step → Event)
    (hmarks : ∀ request journal, IsVisit (level + 1) request (marks request journal))
    (journal : Journal) {rest : List Mark} (hrest : Course level rules rest) :
    Course level rules (inquiry.marksFrom answer marks event journal ++ rest) := by
  induction inquiry generalizing journal with
  | done result => exact hrest
  | ask request resume ih =>
    have hlater : Course level rules ((match (answer request).runFrom journal with
        | (.ok found, next) => (resume found).marksFrom answer marks event next
        | (.error _, _) => []) ++ rest) := by
      rcases (answer request).runFrom journal with ⟨stop | found, next⟩
      · exact hrest
      · exact ih found (hbehaves.2 found) next
    rw [marksFrom, List.append_assoc]
    obtain hnone | ⟨own, hown, hcourse⟩ := hmarks request journal
    · rw [hnone]
      exact hlater
    · rw [hown]
      exact .asked hcourse hlater
  | note step rest ih => exact hbehaves.1.elim

/-- Rules are tried in turn until one matches or fails. -/
theorem course_tryRules
    (hmarks : ∀ request journal, IsVisit (level + 1) request (marks request journal))
    (ts : TokenStream) (start : Nat) (cursor : Cursor) (rules : List Rule) (journal : Journal) :
    Course level rules
      ((tryRules ts start cursor rules).marksFrom answer marks (.step level) journal) := by
  induction rules generalizing journal with
  | nil => exact .ended level []
  | cons rule rules ih =>
    rw [tryRules, Inquiry.marksFrom_bind]
    refine Inquiry.course_append (Rule.attempt_behaves rule) _ hmarks journal ?_
    split
    · next result next hresult =>
      obtain (_ | error) | parsed := result
      · exact .declined (ih _)
      · exact .ended level _
      · exact .matched level rule rules parsed.cursor.token
    · exact .ended level _

end

/-- The marks of answering a request are what is logged meanwhile, but for the ends of work. -/
theorem events_answer (ts : TokenStream) (limit levels : Nat) (request : Request)
    (journal : Journal) :
    ((answer ts limit levels request).runFrom journal).2.events.toList =
      journal.events.toList ++ logOf (answerMarks ts limit levels request journal) := by
  induction levels generalizing request journal with
  | zero => exact (List.append_nil _).symm
  | succ levels ih =>
    rw [answer_succ, answerMarks]
    cases hlookup : journal.lookup request with
    | some found => exact (List.append_nil _).symm
    | none =>
      have hrun := Inquiry.events_run (.step (limit - levels)) ih (request.inquiry ts) journal
      have hleft : logOf (if request.start < ts.size then [.left] else []) = [] := by
        split <;> rfl
      dsimp only
      rw [logOf_append, hleft, List.append_nil, ← hrun]
      split
      · next hstop => rw [hstop]
      · next hfound => rw [hfound]; rfl

/-- A request is worked on at the level that its levels to go leave, if it is worked on at all. -/
theorem isVisit_answerMarks (ts : TokenStream) {limit levels : Nat} (hlevels : levels ≤ limit + 1)
    (request : Request) (journal : Journal) :
    IsVisit (limit + 1 - levels) request (answerMarks ts limit levels request journal) := by
  induction levels generalizing request journal with
  | zero => exact .inl rfl
  | succ levels ih =>
    rw [answerMarks]
    cases hlookup : journal.lookup request with
    | some found => exact .inl rfl
    | none =>
      have hlevel : limit + 1 - (levels + 1) = limit - levels := by omega
      have hbelow : limit + 1 - levels = limit - levels + 1 := by omega
      have hmarks := ih (by omega)
      rw [hbelow] at hmarks
      rw [hlevel]
      dsimp only
      unfold Request.inquiry
      split
      · exact .inr ⟨_, rfl, course_tryRules hmarks ..⟩
      · cases request.filter <;> exact .inl rfl

namespace Session

theorem isVisit_marks (session : Session) (request : Request) :
    IsVisit 0 request (session.marks request) := by
  have hvisit : IsVisit (session.limit + 1 - (session.limit + 1)) request
      (session.marks request) :=
    isVisit_answerMarks _ (Nat.le_refl _) request session.journal
  rwa [Nat.sub_self] at hvisit

/-- A session logs what its marks tell, behind what it has logged before. -/
theorem events_parse (session : Session) (request : Request) :
    (session.parse request).2.journal.events.toList =
      session.journal.events.toList ++ logOf (session.marks request) :=
  events_answer session.tokens session.limit (session.limit + 1) request session.journal

end Session

end CurlyScript
