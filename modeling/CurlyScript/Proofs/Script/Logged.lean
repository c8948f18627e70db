import CurlyScript.Proofs.Grammar.Levels
import CurlyScript.Proofs.Layout.Lexing
import CurlyScript.Proofs.Script.Outcome
import CurlyScript.Proofs.Session.Filtered
import CurlyScript.Proofs.Session.History
import CurlyScript.Proofs.Session.InTurn
import CurlyScript.Proofs.Session.WellNested

namespace CurlyScript

section

variable {ts : TokenStream} {limit levels start : Nat} {parsed : Parsed} {rule : Rule}
  {before after : List Rule} {journal : Journal} {filter : Option NodeFilter}

/-- An attempt comes to its end if the levels suffice for it. -/
theorem Attempt.exists_run_of_within {α : Type} {attempt : Attempt α}
    (hwithin : attempt.Within ts levels) (event : Step → Event) (hfaithful : journal.Faithful ts) :
    ∃ next, (Inquiry.run (answer ts limit levels) (fun step => modify (·.log (event step)))
        attempt.run).runFrom journal = (.ok (attempt.eval (verdict ts)), next) ∧
      next.Faithful ts := by
  obtain ⟨hcontinues, hsettles⟩ := Inquiry.run_reliable (answer_reliable ts limit levels) event
    attempt.run journal hfaithful
  rcases hrun : (Inquiry.run (answer ts limit levels) (fun step => modify (·.log (event step)))
    attempt.run).runFrom journal with ⟨stop | result, next⟩
  · rw [hrun] at hsettles
    exact absurd hwithin hsettles.2
  · rw [hrun] at hcontinues hsettles
    obtain rfl : result = attempt.eval (verdict ts) := hsettles
    exact ⟨next, hrun, hcontinues.faithful⟩

/-- Where a rule matches, its match is the last mark. -/
theorem marksFrom_tryRules_of_matches (marks : Request → Journal → List Mark) (level : Nat)
    (after : List Rule) (hpassed : ∀ other ∈ before, other.PassedAt ts levels start)
    (hmatches : rule.MatchesAt ts levels start parsed) (hfaithful : journal.Faithful ts) :
    ∃ asked, (tryRules ts start (.fresh (ts.skipBlanks start)) (before ++ rule :: after)).marksFrom
        (answer ts limit levels) marks (.step level) journal =
      asked ++ [.logged (.step level (.matched rule parsed.cursor.token))] := by
  induction before generalizing journal with
  | nil =>
    obtain ⟨hmatched, hwithin⟩ := hmatches
    obtain ⟨next, hrun, -⟩ := Attempt.exists_run_of_within hwithin (.step level) hfaithful
    rw [hmatched] at hrun
    rw [List.nil_append, tryRules, Inquiry.marksFrom_bind, hrun]
    exact ⟨_, rfl⟩
  | cons other before ih =>
    obtain ⟨⟨hdeclined, hwithin⟩, hbefore⟩ := List.forall_mem_cons.mp hpassed
    obtain ⟨next, hrun, hnext⟩ := Attempt.exists_run_of_within hwithin (.step level) hfaithful
    rw [hdeclined] at hrun
    have hlater : (next.log (.step level (.declined other))).Faithful ts := hnext
    obtain ⟨asked, hasked⟩ := ih hbefore hlater
    rw [List.cons_append, tryRules, Inquiry.marksFrom_bind, hrun]
    dsimp only [Inquiry.marksFrom]
    rw [hasked, ← List.cons_append, ← List.append_assoc]
    exact ⟨_, rfl⟩

/-- A new session works on what begins at a token. -/
theorem Session.marks_of_lt (limit : Nat) {request : Request} (hlt : request.start < ts.size) :
    Session.marks ⟨ts, limit, {}⟩ request = workMarks 0 request
      ((tryRules ts request.start (.fresh (ts.skipBlanks request.start))
        (Rule.candidates request.filter)).marksFrom (answer ts limit limit)
          (answerMarks ts limit limit) (.step 0)
          (({} : Journal).log (.step 0 (.entered request)))) := by
  rw [Session.marks, answerMarks, Nat.sub_self, Request.inquiry, if_pos hlt, if_pos hlt]
  rfl

/-- What is accepted is matched last, and by the rule before which all others are passed over. -/
theorem Session.exists_marks_of_parse_eq_ok (hlt : start < ts.size)
    (hparse : (Session.parse ⟨ts, limit, {}⟩ ⟨start, filter⟩).1 = .ok parsed) :
    ∃ before rule after asked, Rule.candidates filter = before ++ rule :: after ∧
      (∀ other ∈ before, other.PassedAt ts limit start) ∧
        Session.marks ⟨ts, limit, {}⟩ ⟨start, filter⟩ = workMarks 0 ⟨start, filter⟩
          (asked ++ [.logged (.step 0 (.matched rule parsed.cursor.token))]) := by
  obtain ⟨before, rule, after, hrules, hpassed, hmatches⟩ :=
    (Session.parse_eq_ok_iff_matches hlt).mp hparse
  have hbegun : (({} : Journal).log (.step 0 (.entered ⟨start, filter⟩))).Faithful ts :=
    Journal.faithful_empty ts
  obtain ⟨asked, hasked⟩ := marksFrom_tryRules_of_matches (answerMarks ts limit limit) 0 after
    hpassed hmatches hbegun
  rw [Session.marks_of_lt limit hlt, hrules, hasked]
  exact ⟨before, rule, after, asked, rfl, hpassed, rfl⟩

/-- A block is matched by the first rule, which never declines a curly bracket. -/
theorem Session.exists_marks_of_block (hcurly : ts.sees (ts.skipBlanks 0) .openCurly = true)
    (hparse : (Session.parse ⟨ts, limit, {}⟩ ⟨0, none⟩).1 = .ok parsed) :
    ∃ asked, Session.marks ⟨ts, limit, {}⟩ ⟨0, none⟩ = workMarks 0 ⟨0, none⟩
      (asked ++ [.logged (.step 0 (.matched .block parsed.cursor.token))]) := by
  have hlt : 0 < ts.size := Nat.zero_lt_of_lt (TokenStream.lt_size_of_sees hcurly)
  obtain ⟨before, rule, after, asked, hrules, hpassed, hmarks⟩ :=
    Session.exists_marks_of_parse_eq_ok hlt hparse
  have horder : Rule.block :: Rule.order.tail = before ++ rule :: after := hrules
  cases before with
  | nil =>
    obtain ⟨rfl, -⟩ := List.cons.inj horder
    exact ⟨asked, hmarks⟩
  | cons other before =>
    obtain ⟨rfl, -⟩ := List.cons.inj horder
    have hdeclined := (hpassed .block List.mem_cons_self).1
    exact absurd hdeclined (Rule.eval_blockAt_ne_declined hcurly)

end

namespace Script

/-- The marks of parsing a source. An empty source is not worked on. -/
def marks (limit : Nat) (source : String) : List Mark :=
  if (tokenize source).isEmpty then []
  else Session.marks ⟨enclose (tokenize source), limit, {}⟩ ⟨0, none⟩

/-- What is logged of an outcome, when all work is over. -/
def ending : Except ParseError Script → List Event
  | .ok script => [.finished script.tokens.size script.root.children.length]
  | .error _ => []

variable {limit : Nat} {source : String}

theorem marks_of_empty (hempty : tokenize source = []) (limit : Nat) : marks limit source = [] := by
  rw [marks, hempty]
  rfl

theorem marks_of_nonempty (hne : tokenize source ≠ []) (limit : Nat) :
    marks limit source = Session.marks ⟨enclose (tokenize source), limit, {}⟩ ⟨0, none⟩ := by
  rw [marks, if_neg]
  rwa [List.isEmpty_iff]

/-- The log tells the marks and then of the outcome. -/
theorem toList_parseLogged (limit : Nat) (source : String) :
    (parseLogged limit source).2.toList =
      logOf (marks limit source) ++ ending (Script.parse limit source) := by
  by_cases hempty : tokenize source = []
  · rw [marks_of_empty hempty, Script.parse, parseLogged, hempty]
    rfl
  · have hisEmpty : (tokenize source).isEmpty = false := by
      rwa [List.isEmpty_eq_false_iff]
    have hlog : (rootOf limit (enclose (tokenize source))).2.events.toList =
        logOf (marks limit source) := by
      rw [marks_of_nonempty hempty]
      exact Session.events_parse ⟨enclose (tokenize source), limit, {}⟩ ⟨0, none⟩
    rw [← hlog]
    simp only [Script.parse, parseLogged, hisEmpty, Bool.false_eq_true, if_false]
    cases (rootOf limit (enclose (tokenize source))).1 with
    | error error => exact (List.append_nil _).symm
    | ok root => exact Journal.toList_events_log ..

theorem closedBy_ending (level : Nat) (outcome : Except ParseError Script) :
    ClosedBy level (ending outcome) := by
  cases outcome with
  | error error => nofun
  | ok script =>
    rintro event ⟨⟩
    rfl

theorem rulesInTurn_ending (outcome : Except ParseError Script) : RulesInTurn (ending outcome) := by
  cases outcome with
  | error error => trivial
  | ok script => exact ⟨nofun, trivial⟩

theorem wellNested_marks (limit : Nat) (source : String) :
    WellNested [] (marks limit source) ∧ runningAfter [] (marks limit source) = [] := by
  by_cases hempty : tokenize source = []
  · rw [marks_of_empty hempty]
    exact ⟨trivial, rfl⟩
  · rw [marks_of_nonempty hempty]
    exact Session.wellNested_marks _ _

theorem rulesInTurn_parseLogged (limit : Nat) (source : String) :
    RulesInTurn (parseLogged limit source).2.toList := by
  have hending := rulesInTurn_ending (Script.parse limit source)
  rw [toList_parseLogged]
  by_cases hempty : tokenize source = []
  · rw [marks_of_empty hempty]
    exact hending
  · rw [marks_of_nonempty hempty]
    exact Session.rulesInTurn_marks _ _ (closedBy_ending 0 _) hending

/-- Work on a script begins with its outermost block. -/
theorem head?_parseLogged (hne : tokenize source ≠ []) (limit : Nat) :
    (parseLogged limit source).2.toList.head? = some (.step 0 (.entered ⟨0, none⟩)) := by
  have hlt : 0 < (enclose (tokenize source)).size := by
    rw [size_enclose]
    exact Nat.succ_pos _
  rw [toList_parseLogged, marks_of_nonempty hne, Session.marks_of_lt limit hlt, logOf_workMarks]
  rfl

/-- The marks of an accepted source end with the match of its outermost block, which takes up all
    its tokens. -/
theorem exists_marks_of_parse_ok {script : Script} (hne : tokenize source ≠ [])
    (hok : Script.parse limit source = .ok script) :
    ∃ asked, marks limit source = workMarks 0 ⟨0, none⟩
      (asked ++ [.logged (.step 0 (.matched .block script.tokens.size))]) := by
  obtain ⟨root, hparsed, rfl, -⟩ := exists_root_of_parse_ok hne hok
  rw [marks_of_nonempty hne]
  exact Session.exists_marks_of_block (sees_openCurly_enclose _) hparsed

/-- An accepted source is told of twice at the end of the log: by the rule and by the outcome. -/
theorem exists_log_of_parse_ok {script : Script} (hne : tokenize source ≠ [])
    (hok : Script.parse limit source = .ok script) :
    ∃ before, (parseLogged limit source).2.toList = before ++
      [.step 0 (.matched .block script.tokens.size),
        .finished script.tokens.size script.root.children.length] := by
  obtain ⟨asked, hmarks⟩ := exists_marks_of_parse_ok hne hok
  rw [toList_parseLogged, hmarks, hok, logOf_workMarks, logOf_append, List.cons_append,
    List.append_assoc, ← List.cons_append]
  exact ⟨_, rfl⟩

end Script

/-- The log of a parse is well nested and replays in what order the rules were tried. It tells what
    the marks of the parse tell, in which each request that is worked on begins one level below the
    one that needs it and is left before that one goes on. Between the beginning of a request and
    the event that closes its work, its rules are declined in turn until one matches. If the source
    is accepted, then it is the outermost block that is matched last, with all tokens. -/
theorem parseLogged_replays_rules (limit : Nat) (source : String) :
    (Script.parseLogged limit source).2.toList =
        logOf (Script.marks limit source) ++ Script.ending (Script.parse limit source) ∧
      runningAfter [] (Script.marks limit source) = [] ∧
      (∀ before mark after, Script.marks limit source = before ++ mark :: after →
        mark.Nested (runningAfter [] before)) ∧
      (∀ before level request after, (Script.parseLogged limit source).2.toList =
          before ++ .step level (.entered request) :: after →
        TriedInTurn (Rule.candidates request.filter) (outcomesAt level after)) ∧
      (source ≠ "" →
        (Script.parseLogged limit source).2.toList.head? = some (.step 0 (.entered ⟨0, none⟩)) ∧
        ∀ script, Script.parse limit source = .ok script →
          ∃ before, (Script.parseLogged limit source).2.toList = before ++
            [.step 0 (.matched .block script.tokens.size),
              .finished script.tokens.size script.root.children.length]) := by
  obtain ⟨hnested, hback⟩ := Script.wellNested_marks limit source
  refine ⟨Script.toList_parseLogged limit source, hback, ?_, ?_, fun hsource => ?_⟩
  · intro before mark after hmarks
    rw [hmarks] at hnested
    exact hnested.nested
  · intro before level request after hlog
    have hturn := Script.rulesInTurn_parseLogged limit source
    rw [hlog] at hturn
    exact hturn.triedInTurn
  · have hne := mt tokenize_eq_nil_iff.mp hsource
    exact ⟨Script.head?_parseLogged hne limit,
      fun script hok => Script.exists_log_of_parse_ok hne hok⟩

/-- A name alone is matched by the last rule, since neither a function nor a call begins with it.
    The first request to be left is that for a type, while two others are still worked on. -/
theorem parseLogged_replays_rules_name :
    (∃ before after, Script.marks 2 "a" = before ++ .left :: after ∧
      runningAfter [] before = [2, 1, 0] ∧ Mark.left.Nested [2, 1, 0]) ∧
    (∃ before after, (Script.parseLogged 2 "a").2.toList =
        before ++ .step 1 (.entered ⟨1, none⟩) :: after ∧
      outcomesAt 1 after = [.declined .block, .declined .string, .declined .namedFunction,
        .declined .inlineFunction, .declined .execution, .declined .grouping,
        .matched .identifier 2] ∧
      TriedInTurn (Rule.candidates none) (outcomesAt 1 after)) ∧
    "a" ≠ "" ∧ (Script.parseLogged 2 "a").2.toList.head? = some (.step 0 (.entered ⟨0, none⟩)) ∧
    ∃ script, Script.parse 2 "a" = .ok script ∧ ∃ before, (Script.parseLogged 2 "a").2.toList =
      before ++ [.step 0 (.matched .block script.tokens.size),
        .finished script.tokens.size script.root.children.length] := by
  have hmarks : Script.marks 2 "a" =
      (Script.marks 2 "a").take 6 ++ .left :: (Script.marks 2 "a").drop 7 := by cbv
  have hrunning : runningAfter [] ((Script.marks 2 "a").take 6) = [2, 1, 0] := by cbv
  have hlog : (Script.parseLogged 2 "a").2.toList = (Script.parseLogged 2 "a").2.toList.take 1 ++
      .step 1 (.entered ⟨1, none⟩) :: (Script.parseLogged 2 "a").2.toList.drop 2 := by cbv
  have houtcomes : outcomesAt 1 ((Script.parseLogged 2 "a").2.toList.drop 2) =
      [.declined .block, .declined .string, .declined .namedFunction, .declined .inlineFunction,
        .declined .execution, .declined .grouping, .matched .identifier 2] := by cbv
  have hok : Script.parse 2 "a" = .ok ⟨#[.symbol .openCurly, .text "a", .symbol .closeCurly],
      .block ⟨0, 3⟩ [.identifier ⟨1, 2⟩ "a"]⟩ := by cbv
  have hne : "a" ≠ "" := by decide
  obtain ⟨-, -, hnested, hturn, hsource⟩ := parseLogged_replays_rules 2 "a"
  have hleft := hnested _ _ _ hmarks
  rw [hrunning] at hleft
  obtain ⟨hfirst, hlast⟩ := hsource hne
  exact ⟨⟨_, _, hmarks, hrunning, hleft⟩, ⟨_, _, hlog, houtcomes, hturn _ _ _ _ hlog⟩, hne, hfirst,
    _, hok, hlast _ hok⟩

end CurlyScript
