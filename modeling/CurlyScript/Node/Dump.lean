import CurlyScript.Node
import CurlyScript.Text.Quoted

namespace CurlyScript.Node

/-- What a dump says about a node besides its place. -/
def headline : Node → String
  | .empty _ => "Empty"
  | .block _ statements => "Block (" ++ toString statements.length ++ ")"
  | .string _ tokens => "String " ++ quoted (textOf tokens)
  | .identifier _ name => "Identifier " ++ name
  | .execution _ _ arguments => "Execution (" ++ toString arguments.length ++ " args)"
  | .namedFunction _ name _ => "NamedFunctionDefinition " ++ name
  | .inlineFunction _ _ => "InlineFunctionDefinition"

/-- One line of a dump. A level of depth indents by two spaces. -/
def dumpLine (depth : Nat) (node : Node) : String :=
  String.ofList (List.replicate (2 * depth) ' ') ++ node.headline ++
    " [" ++ toString node.span.start ++ ".." ++ toString node.span.stop ++ "]\n"

/-- A node and all that is below it, one line each. -/
def dump (node : Node) : String :=
  String.join ((node.outline 0).map fun (depth, part) => part.dumpLine depth)

end CurlyScript.Node
