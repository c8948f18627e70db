import CurlyScript.CommandLine

namespace CurlyScript.CommandLine

/-- What can stand behind a command: the path of a file, or a nesting limit as it is written. -/
inductive Argument where
  | file (path : String)
  | limit (value : String)
  deriving DecidableEq, Repr

namespace Argument

/-- An argument as it is given. Only a limit needs a name before it. -/
def words : Argument → List String
  | .file path => [path]
  | .limit value => ["--max-nesting", value]

/-- A path is not taken for the name of the limit, and a limit is a number. -/
def Valid : Argument → Prop
  | .file path => path ≠ "--max-nesting"
  | .limit value => (number? value).isSome = true

instance : DecidablePred Valid
  | .file path => inferInstanceAs (Decidable (path ≠ "--max-nesting"))
  | .limit value => inferInstanceAs (Decidable ((number? value).isSome = true))

def path? : Argument → Option String
  | .file path => some path
  | .limit _ => none

def value? : Argument → Option String
  | .file _ => none
  | .limit value => some value

end Argument

/-- The files that are named, in order and with repeats. -/
def filesOf (given : List Argument) : List String :=
  given.filterMap Argument.path?

/-- The last limit that is given, wherever it stands, and otherwise a limit that holds by itself. -/
def lastLimit (byItself : String) (given : List Argument) : String :=
  (given.filterMap Argument.value?).getLast?.getD byItself

/-- The limit under which files are read, as it is written. -/
def limitOf (given : List Argument) : String :=
  lastLimit "256" given

/-- Words behind a command that begin with the name of a limit and go on with no number. -/
def LacksNumber (words : List String) : Prop :=
  ∃ rest, words = "--max-nesting" :: rest ∧ rest.head?.bind number? = none

/-- Words that tell what to do with which files. -/
inductive Asks : List String → Job → Prop where
  | intro {command : String} {given : List Argument} {limit : Nat}
      (hhelp : command ≠ "--help" ∧ command ≠ "-h")
      (hvalid : ∀ argument ∈ given, argument.Valid)
      (hlimit : number? (limitOf given) = some limit) (hfiles : filesOf given ≠ []) :
      Asks (command :: given.flatMap Argument.words) ⟨command, limit, filesOf given⟩

/-- Words that tell nothing to do: there is no command, help is asked for, a limit is no number, or
    there are no files. -/
inductive Misused : List String → Prop where
  | noCommand : Misused []
  | help {command : String} {words : List String} (hhelp : command = "--help" ∨ command = "-h") :
      Misused (command :: words)
  | badLimit {command : String} {given : List Argument} {words : List String}
      (hvalid : ∀ argument ∈ given, argument.Valid) (hwords : LacksNumber words) :
      Misused (command :: (given.flatMap Argument.words ++ words))
  | noFiles {command : String} {given : List Argument}
      (hvalid : ∀ argument ∈ given, argument.Valid) (hfiles : filesOf given = []) :
      Misused (command :: given.flatMap Argument.words)

section

variable {byItself path value command : String} {given : List Argument} {words : List String}
  {start : Nat} {job : Job}

/-- A limit holds for all that follows until another one is given. -/
theorem lastLimit_limit : lastLimit byItself (.limit value :: given) = lastLimit value given := by
  simp [lastLimit, Argument.value?, List.getLast?_cons]

theorem limitAndFiles?_file (hpath : path ≠ "--max-nesting") (start : Nat) (words : List String) :
    limitAndFiles? start (path :: words) =
      (limitAndFiles? start words).map fun (limit, files) => (limit, path :: files) := by
  rw [limitAndFiles?.eq_def]
  exact if_neg hpath

theorem limitAndFiles?_limit {limit : Nat} (hvalue : number? value = some limit) (start : Nat)
    (words : List String) :
    limitAndFiles? start ("--max-nesting" :: value :: words) = limitAndFiles? limit words := by
  rw [limitAndFiles?, if_pos rfl, hvalue]
  rfl

theorem LacksNumber.limitAndFiles?_eq_none (hwords : LacksNumber words) (start : Nat) :
    limitAndFiles? start words = none := by
  obtain ⟨rest, rfl, hrest⟩ := hwords
  cases rest with
  | nil => rfl
  | cons value rest =>
    have hvalue : number? value = none := hrest
    rw [limitAndFiles?, if_pos rfl, hvalue]
    rfl

/-- Valid arguments are read one by one, and the last limit of them is the one that holds when the
    words behind them are read. -/
theorem exists_limitAndFiles?_append (hvalid : ∀ argument ∈ given, argument.Valid)
    (hstart : number? byItself = some start) :
    ∃ limit, number? (lastLimit byItself given) = some limit ∧
      ∀ words, limitAndFiles? start (given.flatMap Argument.words ++ words) =
        (limitAndFiles? limit words).map fun read => (read.1, filesOf given ++ read.2) := by
  -- A limit takes the place of the one before it, so what holds by itself changes on the way.
  induction given generalizing byItself start with
  | nil => exact ⟨start, hstart, fun words => Option.map_id'.symm⟩
  | cons argument given ih =>
    rw [List.forall_mem_cons] at hvalid
    obtain ⟨hfirst, hrest⟩ := hvalid
    cases argument with
    | file path =>
      obtain ⟨limit, hlimit, hread⟩ := ih hrest hstart
      refine ⟨limit, hlimit, fun words => ?_⟩
      rw [List.flatMap_cons, Argument.words, List.singleton_append, List.cons_append,
        limitAndFiles?_file hfirst, hread, Option.map_map]
      rfl
    | limit value =>
      have hsome : (number? value).isSome = true := hfirst
      obtain ⟨number, hnumber⟩ := Option.isSome_iff_exists.mp hsome
      obtain ⟨limit, hlimit, hread⟩ := ih hrest hnumber
      refine ⟨limit, by rwa [lastLimit_limit], fun words => ?_⟩
      rw [List.flatMap_cons, Argument.words, List.cons_append, List.singleton_append,
        List.cons_append, List.cons_append, limitAndFiles?_limit hnumber, hread]
      rfl

/-- All words are arguments, or all up to a limit that is no number. -/
theorem exists_arguments : ∀ words : List String, ∃ (given : List Argument) (more : List String),
    (∀ argument ∈ given, argument.Valid) ∧ (more = [] ∨ LacksNumber more) ∧
      words = given.flatMap Argument.words ++ more
  | [] => ⟨[], [], List.forall_mem_nil _, .inl rfl, rfl⟩
  | word :: words => by
    by_cases hword : word = "--max-nesting"
    · subst hword
      match words with
      | [] => exact ⟨[], _, List.forall_mem_nil _, .inr ⟨[], rfl, rfl⟩, rfl⟩
      | value :: words =>
        cases hvalue : number? value with
        | none => exact ⟨[], _, List.forall_mem_nil _, .inr ⟨value :: words, rfl, hvalue⟩, rfl⟩
        | some limit =>
          obtain ⟨given, more, hvalid, hmore, hwords⟩ := exists_arguments words
          have hfirst : (number? value).isSome = true := by rw [hvalue, Option.isSome_some]
          exact ⟨.limit value :: given, more, List.forall_mem_cons.mpr ⟨hfirst, hvalid⟩, hmore,
            congrArg (["--max-nesting", value] ++ ·) hwords⟩
    · obtain ⟨given, more, hvalid, hmore, hwords⟩ := exists_arguments words
      exact ⟨.file word :: given, more, List.forall_mem_cons.mpr ⟨hword, hvalid⟩, hmore,
        congrArg (word :: ·) hwords⟩

theorem number?_default : number? "256" = some defaultNesting := by
  decide

/-- Valid arguments name a limit, be it the default one, and files. -/
theorem exists_limitOf (hvalid : ∀ argument ∈ given, argument.Valid) :
    ∃ limit, number? (limitOf given) = some limit ∧
      limitAndFiles? defaultNesting (given.flatMap Argument.words) =
        some (limit, filesOf given) := by
  obtain ⟨limit, hlimit, hread⟩ := exists_limitAndFiles?_append hvalid number?_default
  have hall := hread []
  rw [List.append_nil] at hall
  refine ⟨limit, hlimit, hall.trans ?_⟩
  rw [limitAndFiles?, Option.map_some, List.append_nil]

theorem LacksNumber.limitAndFiles?_append_eq_none (hwords : LacksNumber words)
    (hvalid : ∀ argument ∈ given, argument.Valid) :
    limitAndFiles? defaultNesting (given.flatMap Argument.words ++ words) = none := by
  obtain ⟨limit, -, hread⟩ := exists_limitAndFiles?_append hvalid number?_default
  rw [hread, hwords.limitAndFiles?_eq_none, Option.map_none]

theorem Asks.job?_eq (h : Asks words job) : job? words = .ok job := by
  obtain @⟨command, given, limit, hhelp, hvalid, hlimit, hfiles⟩ := h
  obtain ⟨limit', hlimit', hread⟩ := exists_limitOf hvalid
  obtain rfl : limit' = limit := Option.some.inj (hlimit'.symm.trans hlimit)
  obtain ⟨path, paths, hpaths⟩ := List.exists_cons_of_ne_nil hfiles
  simp [job?, hhelp.1, hhelp.2, hread, hpaths]

theorem Misused.exists_job?_eq (h : Misused words) : ∃ message, job? words = .error message := by
  cases h with
  | noCommand => exact ⟨usage, rfl⟩
  | @help command words hhelp =>
    refine ⟨usage, ?_⟩
    obtain rfl | rfl := hhelp <;> rfl
  | @badLimit command given words hvalid hwords =>
    have hread := hwords.limitAndFiles?_append_eq_none hvalid
    by_cases hhelp : command = "--help" ∨ command = "-h" <;> simp [job?, hhelp, hread]
  | @noFiles command given hvalid hfiles =>
    obtain ⟨limit, -, hread⟩ := exists_limitOf hvalid
    rw [hfiles] at hread
    by_cases hhelp : command = "--help" ∨ command = "-h" <;> simp [job?, hhelp, hread]

/-- All words tell what to do or tell nothing to do. -/
theorem asks_or_misused (words : List String) : (∃ job, Asks words job) ∨ Misused words := by
  cases words with
  | nil => exact .inr .noCommand
  | cons command words =>
    by_cases hhelp : command = "--help" ∨ command = "-h"
    · exact .inr (.help hhelp)
    · obtain ⟨given, more, hvalid, rfl | hmore, rfl⟩ := exists_arguments words
      · rw [List.append_nil]
        by_cases hfiles : filesOf given = []
        · exact .inr (.noFiles hvalid hfiles)
        · obtain ⟨limit, hlimit, -⟩ := exists_limitOf hvalid
          exact .inl ⟨_, .intro (not_or.mp hhelp) hvalid hlimit hfiles⟩
      · exact .inr (.badLimit hvalid hmore)

theorem run_of_asks {read : String → Except ReadError String} (h : Asks words job) :
    run words read = runFiles job.command job.limit read job.files := by
  rw [run, h.job?_eq]

theorem Misused.exists_run_eq (h : Misused words) :
    ∃ message, ∀ read, run words read = .misuse message := by
  obtain ⟨message, hjob⟩ := h.exists_job?_eq
  exact ⟨message, fun read => by rw [run, hjob]⟩

end

end CurlyScript.CommandLine
