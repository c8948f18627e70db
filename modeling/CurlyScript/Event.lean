import CurlyScript.Grammar.Inquiry

namespace CurlyScript

/-- A line of a parse log: a step at a nesting level, or the end of a whole parse. -/
inductive Event where
  | step (level : Nat) (step : Step)
  | finished (tokens statements : Nat)
  deriving DecidableEq, Repr

namespace Event

def message : Event → String
  | .step _ (.entered _) => "parse node"
  | .step _ (.matched _ _) => "rule matched"
  | .step _ (.declined _) => "rule declined"
  | .finished _ _ => "parsed source"

end Event

/-- How a log shows the filter of a request. -/
def Request.shownFilter (request : Request) : String :=
  match request.filter with
  | none => "None"
  | some filter => "Some(" ++ filter.shown ++ ")"

end CurlyScript
