import CurlyScript.Proofs.CommandLine.Arguments
import Mathlib

namespace CurlyScript.CommandLine

/-- The commands there are. -/
def commands : List String :=
  ["tokens", "parse", "check"]

namespace Output

/-- Outputs one after another. -/
def inTurn (outputs : List Output) : Output :=
  outputs.foldr followedBy {}

variable {outputs : List Output}

theorem inTurn_singleton (output : Output) : inTurn [output] = output := by
  simp [inTurn, followedBy]

theorem out_inTurn (outputs : List Output) :
    (inTurn outputs).out = String.join (outputs.map out) := by
  induction outputs with
  | nil => rfl
  | cons output outputs ih =>
    rw [List.map_cons, String.join_cons, ← ih]
    rfl

theorem err_inTurn (outputs : List Output) :
    (inTurn outputs).err = String.join (outputs.map err) := by
  induction outputs with
  | nil => rfl
  | cons output outputs ih =>
    rw [List.map_cons, String.join_cons, ← ih]
    rfl

/-- A bound on the status of each output is one on all of them in turn, and the other way round. -/
theorem status_inTurn_le_iff {bound : Nat} :
    (inTurn outputs).status ≤ bound ↔ ∀ output ∈ outputs, output.status ≤ bound := by
  induction outputs with
  | nil => simp [inTurn]
  | cons output outputs ih =>
    rw [List.forall_mem_cons, ← ih]
    exact Nat.max_le

theorem status_inTurn_eq_one_iff (hle : ∀ output ∈ outputs, output.status ≤ 1) :
    (inTurn outputs).status = 1 ↔ ∃ output ∈ outputs, output.status = 1 := by
  constructor
  · intro hone
    have hpos : ¬ (inTurn outputs).status ≤ 0 := by omega
    rw [status_inTurn_le_iff, Classical.not_forall] at hpos
    obtain ⟨output, hpos⟩ := hpos
    obtain ⟨houtput, hpos⟩ := Classical.not_imp.mp hpos
    exact ⟨output, houtput, Nat.le_antisymm (hle output houtput) (Nat.lt_of_not_le hpos)⟩
  · rintro ⟨output, houtput, hstatus⟩
    have hbound := status_inTurn_le_iff.mpr hle
    have hpos : ¬ (inTurn outputs).status ≤ 0 := fun hzero => by
      have hnone := status_inTurn_le_iff.mp hzero output houtput
      omega
    omega

/-- The status of outputs in turn tells whether one of them failed. -/
theorem status_inTurn_eq (hle : ∀ output ∈ outputs, output.status ≤ 1) :
    (inTurn outputs).status = if ∃ output ∈ outputs, output.status = 1 then 1 else 0 := by
  have hone := status_inTurn_eq_one_iff hle
  have hbound := status_inTurn_le_iff.mpr hle
  split
  · next hfailed => exact hone.mpr hfailed
  · next hnone =>
    have hne := mt hone.mp hnone
    omega

end Output

/-- What is printed for one file, and whether it is as it should be. -/
def outputOf (action : Action) (limit : Nat) (read : String → Except ReadError String)
    (path : String) : Output :=
  match read path with
  | .error error => .failure (path ++ ": " ++ error.message)
  | .ok content => action.perform limit path content

section

variable {command : String} {action : Action} {limit : Nat}
  {read : String → Except ReadError String} {path : String} {files : List String}

theorem isSome_ofName?_iff : (Action.ofName? command).isSome = true ↔ command ∈ commands := by
  simp only [commands, List.mem_cons, List.not_mem_nil, or_false]
  unfold Action.ofName?
  split <;> simp_all

/-- A command that exists is applied to one file after another, whatever comes of each. -/
theorem runFiles_eq_inTurn (hknown : Action.ofName? command = some action) (limit : Nat)
    (read : String → Except ReadError String) (files : List String) :
    runFiles command limit read files = .inTurn (files.map (outputOf action limit read)) := by
  induction files with
  | nil => rfl
  | cons path files ih =>
    rw [runFiles, List.map_cons, Output.inTurn, List.foldr_cons, ← Output.inTurn, ← ih, outputOf]
    cases read path with
    | error error => rfl
    | ok content => simp only [hknown]

theorem status_outputOf_le (action : Action) (limit : Nat)
    (read : String → Except ReadError String) (path : String) :
    (outputOf action limit read path).status ≤ 1 := by
  unfold outputOf
  split
  · exact Nat.le_refl 1
  · next content _ =>
    cases action with
    | tokens => exact Nat.zero_le 1
    | parse | check =>
      simp only [Action.perform]
      split
      · exact Nat.zero_le 1
      · exact Nat.le_refl 1

theorem ne_help_of_ofName? (hknown : Action.ofName? command = some action) :
    command ≠ "--help" ∧ command ≠ "-h" := by
  constructor <;> (rintro rfl; cases hknown)

theorem Asks.run_eq_inTurn {words : List String} {job : Job} (h : Asks words job)
    (hknown : Action.ofName? job.command = some action)
    (read : String → Except ReadError String) :
    run words read = .inTurn (job.files.map (outputOf action job.limit read)) := by
  rw [run_of_asks h, runFiles_eq_inTurn hknown]

/-- What is printed for a file alone under a limit. -/
theorem run_alone (hknown : Action.ofName? command = some action) {value : String}
    (hlimit : number? value = some limit) (hpath : path ≠ "--max-nesting")
    (read : String → Except ReadError String) :
    run [command, "--max-nesting", value, path] read = outputOf action limit read path := by
  have hsome : (number? value).isSome = true := by rw [hlimit, Option.isSome_some]
  have hvalid : ∀ argument ∈ [Argument.limit value, .file path], argument.Valid :=
    List.forall_mem_cons.mpr ⟨hsome, List.forall_mem_singleton.mpr hpath⟩
  have hasks : Asks [command, "--max-nesting", value, path] ⟨command, limit, [path]⟩ :=
    .intro (ne_help_of_ofName? hknown) hvalid hlimit (List.cons_ne_nil path [])
  rw [hasks.run_eq_inTurn hknown, List.map_singleton, Output.inTurn_singleton]

theorem ne_of_mem_filesOf {given : List Argument} (hvalid : ∀ argument ∈ given, argument.Valid)
    (hpath : path ∈ filesOf given) : path ≠ "--max-nesting" := by
  obtain ⟨argument, hargument, hsome⟩ := List.mem_filterMap.mp hpath
  cases argument with
  | file path' =>
    obtain rfl := Option.some.inj hsome
    exact hvalid _ hargument
  | limit value => cases hsome

/-- A command that exists does with each file what it does with that file alone under the last
    limit, wherever the limit stands, and the run fails if it fails for one of the files. Wherever a
    limit is no number, nothing is done. -/
theorem files_are_independent (hknown : command ∈ commands) {given : List Argument}
    (hvalid : ∀ argument ∈ given, argument.Valid) (read : String → Except ReadError String) :
    (filesOf given ≠ [] →
      let together := run (command :: given.flatMap Argument.words) read
      let alone path := run [command, "--max-nesting", limitOf given, path] read
      together.out = String.join ((filesOf given).map fun path => (alone path).out) ∧
      together.err = String.join ((filesOf given).map fun path => (alone path).err) ∧
      together.status = if ∃ path ∈ filesOf given, (alone path).status = 1 then 1 else 0) ∧
    ∀ words, LacksNumber words →
      (run (command :: (given.flatMap Argument.words ++ words)) read).out = "" ∧
      (run (command :: (given.flatMap Argument.words ++ words)) read).status = 2 := by
  obtain ⟨action, haction⟩ := Option.isSome_iff_exists.mp (isSome_ofName?_iff.mpr hknown)
  constructor
  · intro hfiles together alone
    obtain ⟨limit, hlimit, -⟩ := exists_limitOf hvalid
    have hasks := Asks.intro (ne_help_of_ofName? haction) hvalid hlimit hfiles
    -- A file alone is read under the same limit, since it is given the last one as its only one.
    have halone : (filesOf given).map (outputOf action limit read) = (filesOf given).map alone :=
      List.map_congr_left fun path hpath =>
        (run_alone haction hlimit (ne_of_mem_filesOf hvalid hpath) read).symm
    have htogether : together = .inTurn ((filesOf given).map alone) :=
      (hasks.run_eq_inTurn haction read).trans (congrArg Output.inTurn halone)
    have hle : ∀ output ∈ (filesOf given).map alone, output.status ≤ 1 := by
      rw [← halone, List.forall_mem_map]
      exact fun path _ => status_outputOf_le action limit read path
    rw [htogether, Output.out_inTurn, Output.err_inTurn, Output.status_inTurn_eq hle, List.map_map,
      List.map_map]
    refine ⟨rfl, rfl, ?_⟩
    simp only [List.mem_map, exists_exists_and_eq_and]
  · intro words hwords
    have hmisused : Misused (command :: (given.flatMap Argument.words ++ words)) :=
      .badLimit hvalid hwords
    obtain ⟨message, hrun⟩ := hmisused.exists_run_eq
    rw [hrun]
    exact ⟨rfl, rfl⟩

end

/-- The last limit counts for the file before it too: that file is not as it should be under it,
    although by itself it is. -/
theorem files_are_independent_late_limit :
    let read path : Except ReadError String := if path = "a" then .ok "x" else .error .missing
    let given : List Argument := [.file "a", .limit "7", .file "gone", .file "a", .limit "+1"]
    let together := run ("check" :: given.flatMap Argument.words) read
    let alone path := run ["check", "--max-nesting", "+1", path] read
    "check" ∈ commands ∧ (∀ argument ∈ given, argument.Valid) ∧ filesOf given ≠ [] ∧
      together.err = String.join (["a", "gone", "a"].map fun path => (alone path).err) ∧
      (alone "a").status = 1 ∧ (run ["check", "a"] read).status = 0 ∧ together.status = 1 ∧
      LacksNumber ["--max-nesting", "1x", "a"] ∧
      (run ("check" :: (given.flatMap Argument.words ++ ["--max-nesting", "1x", "a"])) read).status
        = 2 := by
  intro read given together alone
  have hknown : "check" ∈ commands := by decide
  have hvalid : ∀ argument ∈ given, argument.Valid := by decide
  have hfiles : filesOf given ≠ [] := by decide
  have hlacks : LacksNumber ["--max-nesting", "1x", "a"] := ⟨["1x", "a"], rfl, by decide⟩
  have hparse : Script.parse 1 "x" = .error (.tooDeep ⟨1, 1⟩) := by cbv
  have hdeep : (alone "a").status = 1 := by
    rw [show alone "a" = outputOf .check 1 read "a" from
      run_alone rfl (by decide) (by decide) read]
    simp only [outputOf, read, if_true, Action.perform, hparse]
    rfl
  have hfine : (run ["check", "a"] read).status = 0 := by cbv
  obtain ⟨heach, hbad⟩ := files_are_independent hknown hvalid read
  obtain ⟨-, herr, hstatus⟩ := heach hfiles
  exact ⟨hknown, hvalid, hfiles, herr, hdeep, hfine,
    hstatus.trans (if_pos ⟨"a", List.mem_cons_self .., hdeep⟩), hlacks, (hbad _ hlacks).2⟩

end CurlyScript.CommandLine
