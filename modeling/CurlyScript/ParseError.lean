import CurlyScript.Token

namespace CurlyScript

/-- What is wrong with a script. A token is named as it is described; none stands for the end of
    the input. -/
inductive Fault where
  /-- No construct starts here. -/
  | unexpected (found : Option String)
  /-- A list went on with neither its separator nor its end. -/
  | expectedSeparator (expected : String) (found : Option String)
  /-- A type and a space are followed by text that is no name. -/
  | invalidFunctionName (found : Option String)
  /-- The input ended inside a string. -/
  | unterminatedString (quote : Quote)
  deriving DecidableEq, Repr

/-- A fault and the index of the token at which it shows. -/
structure SyntaxError where
  fault : Fault
  position : Nat
  deriving DecidableEq, Repr

/-- A parse that was given up at a place because it nests too deeply. This tells nothing about
    whether the input is well formed. -/
structure TooDeep where
  limit : Nat
  position : Nat
  deriving DecidableEq, Repr

/-- Why a parse gave no tree. -/
inductive ParseError where
  | malformed (error : SyntaxError)
  | tooDeep (stop : TooDeep)
  deriving DecidableEq, Repr

namespace Fault

/-- How a message names what was found. -/
def foundText (found : Option String) : String :=
  found.getD "end of input"

def detail : Fault → String
  | .unexpected found => "unexpected " ++ foundText found
  | .expectedSeparator expected found => "expected " ++ expected ++ ", got " ++ foundText found
  | .invalidFunctionName found => "invalid function name " ++ foundText found
  | .unterminatedString quote => "unterminated string, expected " ++ quote.char.toString

end Fault

namespace ParseError

def position : ParseError → Nat
  | .malformed error => error.position
  | .tooDeep stop => stop.position

def isSyntaxError : ParseError → Bool
  | .malformed _ => true
  | .tooDeep _ => false

/-- The message without the place. -/
def detail : ParseError → String
  | .malformed error => error.fault.detail
  | .tooDeep stop => "input nests deeper than " ++ toString stop.limit ++ " levels"

def message (error : ParseError) : String :=
  error.detail ++ " at token " ++ toString error.position

end ParseError

end CurlyScript
