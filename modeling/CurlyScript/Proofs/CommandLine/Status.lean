import CurlyScript.Proofs.CommandLine.Files

namespace CurlyScript.CommandLine

/-- A file has no text, or its text is to be parsed and cannot be. -/
inductive Fails (job : Job) (read : String → Except ReadError String) (path : String) : Prop where
  | unreadable {error : ReadError} (hread : read path = .error error)
  | rejected {content : String} {error : ParseError} (hread : read path = .ok content)
      (hcommand : job.command = "parse" ∨ job.command = "check")
      (hparse : Script.parse job.limit content = .error error)

/-- Words that tell nothing to do, or whose command does not exist, whatever becomes of the
    files. -/
inductive UsageError : List String → Prop where
  | misused {words : List String} (hmisused : Misused words) : UsageError words
  | unknownCommand {command : String} {words : List String} (hunknown : command ∉ commands) :
      UsageError (command :: words)

/-- A command that does not exist goes unnoticed, because none of its files has a text that it could
    be applied to. -/
def Unnoticed (words : List String) (read : String → Except ReadError String) : Prop :=
  ∃ job, Asks words job ∧ job.command ∉ commands ∧
    ∀ path ∈ job.files, ∃ error, read path = .error error

section

variable {words : List String} {job other : Job} {read : String → Except ReadError String}
  {path command : String} {files : List String} {limit : Nat}

theorem Asks.unique (h : Asks words job) (hother : Asks words other) : job = other :=
  Except.ok.inj (h.job?_eq.symm.trans hother.job?_eq)

theorem Misused.not_asks (h : Misused words) : ¬ Asks words job := by
  intro hasks
  obtain ⟨message, hjob⟩ := h.exists_job?_eq
  rw [hasks.job?_eq] at hjob
  cases hjob

theorem Asks.files_ne_nil (h : Asks words job) : job.files ≠ [] := by
  cases h with
  | intro _ _ _ hfiles => exact hfiles

theorem Asks.usageError_iff (h : Asks words job) : UsageError words ↔ job.command ∉ commands := by
  constructor
  · intro herror
    cases herror with
    | misused hmisused => exact absurd h hmisused.not_asks
    | unknownCommand hunknown =>
      cases h with
      | intro => exact hunknown
  · intro hunknown
    cases h with
    | intro => exact .unknownCommand hunknown

theorem Action.ne_tokens_iff {action : Action} (hknown : Action.ofName? command = some action) :
    action ≠ .tokens ↔ command = "parse" ∨ command = "check" := by
  unfold Action.ofName? at hknown
  split at hknown <;> cases hknown <;> simp

theorem Action.status_perform_eq_one_iff (action : Action) (limit : Nat) (path content : String) :
    (action.perform limit path content).status = 1 ↔
      action ≠ .tokens ∧ ∃ error, Script.parse limit content = .error error := by
  cases action with
  | tokens => simp [perform]
  | parse | check =>
    cases hparse : Script.parse limit content <;> simp [perform, hparse, complaint, Output.failure]

theorem status_outputOf_eq_one_iff {action : Action}
    (hknown : Action.ofName? job.command = some action) :
    (outputOf action job.limit read path).status = 1 ↔ Fails job read path := by
  cases hread : read path with
  | error error => simpa [outputOf, hread, Output.failure] using Fails.unreadable hread
  | ok content =>
    have houtput : outputOf action job.limit read path = action.perform job.limit path content := by
      rw [outputOf, hread]
    rw [houtput, action.status_perform_eq_one_iff, Action.ne_tokens_iff hknown]
    constructor
    · rintro ⟨hcommand, error, hparse⟩
      exact .rejected hread hcommand hparse
    · intro hfails
      cases hfails with
      | unreadable herror =>
        rw [hread] at herror
        cases herror
      | rejected hread' hcommand hparse =>
        obtain rfl := Except.ok.inj (hread.symm.trans hread')
        exact ⟨hcommand, _, hparse⟩

theorem status_runFiles_cons_of_error {error : ReadError} (hread : read path = .error error)
    (command : String) (limit : Nat) (files : List String) :
    (runFiles command limit read (path :: files)).status =
      max 1 (runFiles command limit read files).status := by
  rw [runFiles, hread]
  rfl

/-- Files that cannot be read make a run fail, whatever the command. -/
theorem status_runFiles_of_unreadable (command : String) (limit : Nat)
    (hunreadable : ∀ path ∈ files, ∃ error, read path = .error error) :
    (runFiles command limit read files).status = min 1 files.length := by
  induction files with
  | nil => rfl
  | cons path files ih =>
    rw [List.forall_mem_cons] at hunreadable
    obtain ⟨⟨error, hread⟩, hrest⟩ := hunreadable
    rw [status_runFiles_cons_of_error hread, ih hrest, List.length_cons]
    omega

/-- A command that does not exist is noticed as soon as a file can be read. -/
theorem status_runFiles_of_unknown (hunknown : Action.ofName? command = none) (limit : Nat)
    {content : String} (hpath : path ∈ files) (hread : read path = .ok content) :
    (runFiles command limit read files).status = 2 := by
  induction files with
  | nil => cases hpath
  | cons first files ih =>
    cases hfirst : read first with
    | ok content =>
      rw [runFiles, hfirst]
      simp only [hunknown]
      rfl
    | error error =>
      have hrest : path ∈ files := by
        obtain rfl | hrest := List.mem_cons.mp hpath
        · rw [hread] at hfirst
          cases hfirst
        · exact hrest
      rw [status_runFiles_cons_of_error hfirst, ih hrest]
      rfl

/-- A run of a command that exists fails exactly if one of its files is not as it should be. -/
theorem Asks.status_of_known (hasks : Asks words job) (hknown : job.command ∈ commands)
    (read : String → Except ReadError String) :
    (run words read).status ≤ 1 ∧
      ((run words read).status = 1 ↔ ∃ path ∈ job.files, Fails job read path) := by
  obtain ⟨action, haction⟩ := Option.isSome_iff_exists.mp (isSome_ofName?_iff.mpr hknown)
  have hle : ∀ output ∈ job.files.map (outputOf action job.limit read), output.status ≤ 1 :=
    List.forall_mem_map.mpr fun path _ => status_outputOf_le action job.limit read path
  rw [hasks.run_eq_inTurn haction]
  refine ⟨Output.status_inTurn_le_iff.mpr hle, ?_⟩
  rw [Output.status_inTurn_eq_one_iff hle]
  simp only [List.mem_map, exists_exists_and_eq_and, status_outputOf_eq_one_iff haction]

/-- A command that does not exist is a misuse, unless there is no text that it could be applied
    to. -/
theorem Asks.status_of_unknown (hasks : Asks words job) (hunknown : job.command ∉ commands)
    (read : String → Except ReadError String) :
    ((run words read).status = 1 ∨ (run words read).status = 2) ∧
      ((run words read).status = 1 ↔ ∀ path ∈ job.files, ∃ error, read path = .error error) := by
  have hname : Action.ofName? job.command = none := by
    rw [← Option.not_isSome_iff_eq_none, isSome_ofName?_iff]
    exact hunknown
  rw [run_of_asks hasks]
  by_cases hreadable : ∃ path ∈ job.files, ∃ content, read path = .ok content
  · obtain ⟨path, hpath, content, hread⟩ := hreadable
    rw [status_runFiles_of_unknown hname job.limit hpath hread]
    refine ⟨.inr rfl, fun htwo => absurd htwo (by decide), fun hall => ?_⟩
    obtain ⟨error, herror⟩ := hall path hpath
    rw [hread] at herror
    cases herror
  · have hunreadable : ∀ path ∈ job.files, ∃ error, read path = .error error :=
      fun path hpath => match hread : read path with
        | .error error => ⟨error, rfl⟩
        | .ok content => absurd ⟨path, hpath, content, hread⟩ hreadable
    rw [status_runFiles_of_unreadable job.command job.limit hunreadable,
      Nat.min_eq_left (List.length_pos_iff.mpr hasks.files_ne_nil)]
    exact ⟨.inl rfl, fun _ => hunreadable, fun _ => rfl⟩

/-- The status of a run tells what became of it: it is 2 for words that tell nothing that can be
    done, and otherwise 1 or 0 as some file is not as it should be or all are. But a command that
    does not exist is a failure to read its files if none of them can be read. -/
theorem status_classifies (words : List String) (read : String → Except ReadError String) :
    ((run words read).status = 2 ↔ UsageError words ∧ ¬ Unnoticed words read) ∧
    ((run words read).status = 1 ↔ Unnoticed words read ∨
      ¬ UsageError words ∧ ∃ job, Asks words job ∧ ∃ path ∈ job.files, Fails job read path) ∧
    ((run words read).status = 0 ↔
      ¬ UsageError words ∧ ∃ job, Asks words job ∧ ∀ path ∈ job.files, ¬ Fails job read path) := by
  obtain ⟨job, hasks⟩ | hmisused := asks_or_misused words
  · have hexists {P : Job → Prop} : (∃ job, Asks words job ∧ P job) ↔ P job := by
      constructor
      · rintro ⟨other, hother, hP⟩
        rwa [hasks.unique hother]
      · exact fun hP => ⟨job, hasks, hP⟩
    rw [hasks.usageError_iff, Unnoticed, hexists, hexists, hexists]
    by_cases hcommand : job.command ∈ commands
    · obtain ⟨hle, hone⟩ := hasks.status_of_known hcommand read
      have hzero : (∀ path ∈ job.files, ¬ Fails job read path) ↔ (run words read).status = 0 := by
        have hnone : (∀ path ∈ job.files, ¬ Fails job read path) ↔
            ¬ ∃ path ∈ job.files, Fails job read path := by simp only [not_exists, not_and]
        rw [hnone, ← hone]
        omega
      have htwo : (run words read).status ≠ 2 := by omega
      simp [hcommand, hone, hzero, htwo]
    · obtain ⟨hor, hone⟩ := hasks.status_of_unknown hcommand read
      rw [← hone]
      obtain hstatus | hstatus := hor <;> simp [hcommand, hstatus]
  · obtain ⟨message, hrun⟩ := hmisused.exists_run_eq
    have hnone {P : Job → Prop} : ¬ ∃ job, Asks words job ∧ P job :=
      fun ⟨_, hasks, _⟩ => hmisused.not_asks hasks
    simp [hrun, Output.misuse, UsageError.misused hmisused, Unnoticed, hnone]

/-- A command that does not exist is not always a usage error: a file that is missing hides it. -/
theorem missing_file_hides_unknown_command :
    ¬ ∀ (words : List String) (read : String → Except ReadError String),
      (run words read).status = 2 ↔ UsageError words := by
  intro hall
  have herror : UsageError ["lint", "missing"] := .unknownCommand (by decide)
  have hstatus : (run ["lint", "missing"] fun _ => .error .missing).status = 1 := by decide
  have htwo := (hall ["lint", "missing"] fun _ => .error .missing).mpr herror
  rw [hstatus] at htwo
  exact absurd htwo (by decide)

end

end CurlyScript.CommandLine
