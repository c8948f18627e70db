import CurlyScript.Directory
import CurlyScript.Node.Dump
import CurlyScript.Script

namespace CurlyScript.CommandLine

/-- What can be done with a file. -/
inductive Action where
  | tokens
  | parse
  | check
  deriving DecidableEq, Repr

def Action.ofName? : String → Option Action
  | "tokens" => some .tokens
  | "parse" => some .parse
  | "check" => some .check
  | _ => none

/-- What a run prints and the status it ends with: 0 if all is well, 1 if a file was not, and 2 if
    the command line was not. -/
structure Output where
  out : String := ""
  err : String := ""
  status : Nat := 0
  deriving DecidableEq, Repr

namespace Output

/-- One output after another. A status hides the smaller ones. -/
def followedBy (first second : Output) : Output :=
  ⟨first.out ++ second.out, first.err ++ second.err, max first.status second.status⟩

/-- A message about a file that is not as it should be. -/
def failure (message : String) : Output :=
  { err := message ++ "\n", status := 1 }

/-- A message about a command line that is not as it should be. -/
def misuse (message : String) : Output :=
  { err := message ++ "\n", status := 2 }

end Output

def usage : String :=
  "\n".intercalate [
    "Usage: fcl <command> [--max-nesting N] [files...]",
    "",
    "Commands:",
    "  tokens  Print the token stream of each file",
    "  parse   Print the syntax tree of each file",
    "  check   Check if file(s) parse",
    "",
    "Set RUST_LOG=fcl_syntax=trace to follow the parser."]

/-- A number in decimal digits, with or without a plus sign, that a 64-bit word can hold. -/
def number? (text : String) : Option Nat :=
  let digits := match text.toList with
    | '+' :: rest => rest
    | chars => chars
  if digits.isEmpty || !digits.all Char.isDigit then none
  else
    let n := digits.foldl (fun n c => 10 * n + (c.toNat - '0'.toNat)) 0
    if n < UInt64.size then some n else none

/-- The nesting limit and the files given by the arguments after the command. The last limit counts,
    and it counts for all files. Nothing is given if some limit is not a number. -/
def limitAndFiles? (limit : Nat) : List String → Option (Nat × List String)
  | [] => some (limit, [])
  | argument :: rest =>
    if argument = "--max-nesting" then
      match rest with
      | [] => none
      | value :: rest => (number? value).bind fun limit => limitAndFiles? limit rest
    else
      (limitAndFiles? limit rest).map fun (limit, files) => (limit, argument :: files)

/-- A message about a file that does not parse. Errors count the opening bracket that encloses a
    script and is not in the file. -/
def complaint (path content : String) (error : ParseError) : Output :=
  let place := locate (tokenize content) (error.position - 1)
  let label := if error.isSyntaxError then "syntax error" else "input too deeply nested"
  .failure (path ++ ": " ++ label ++ ": " ++ error.message ++ " (line " ++ toString place.line ++
    ", column " ++ toString place.column ++ ")")

/-- Does one thing with the text of one file. -/
def Action.perform (action : Action) (limit : Nat) (path content : String) : Output :=
  match action with
  | .tokens => { out := String.join ((tokenize content).map fun token => token.listing ++ "\n") }
  | .parse => match Script.parse limit content with
    | .ok script => { out := script.root.dump }
    | .error error => complaint path content error
  | .check => match Script.parse limit content with
    | .ok script =>
      { err := path ++ ": valid (" ++ toString script.root.children.length ++ " statement(s))\n" }
    | .error error => complaint path content error

/-- What a run has been asked to do. The command may be one that does not exist. -/
structure Job where
  command : String
  limit : Nat
  files : List String
  deriving DecidableEq, Repr

/-- The job given by the arguments, or what the user is told if they give none. -/
def job? : List String → Except String Job
  | [] => .error usage
  | command :: rest =>
    if command = "--help" || command = "-h" then .error usage
    else
      match limitAndFiles? defaultNesting rest with
      | none => .error "Error: --max-nesting expects a number"
      | some (_, []) => .error "Error: no files specified"
      | some (limit, files) => .ok ⟨command, limit, files⟩

/-- Goes through files in turn. A file that cannot be read is passed over. The command is looked at
    only when there is a text to apply it to, and a command that does not exist ends the run. -/
def runFiles (command : String) (limit : Nat) (read : String → Except ReadError String) :
    List String → Output
  | [] => {}
  | path :: rest =>
    match read path with
    | .error error =>
      (Output.failure (path ++ ": " ++ error.message)).followedBy (runFiles command limit read rest)
    | .ok content =>
      match Action.ofName? command with
      | none => .misuse ("Unknown command: " ++ command)
      | some action =>
        (action.perform limit path content).followedBy (runFiles command limit read rest)

/-- Runs the program on its arguments where `read` gives the text of a file. -/
def run (arguments : List String) (read : String → Except ReadError String) : Output :=
  match job? arguments with
  | .error message => .misuse message
  | .ok job => runFiles job.command job.limit read job.files

end CurlyScript.CommandLine
