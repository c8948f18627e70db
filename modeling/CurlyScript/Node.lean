import CurlyScript.Token

namespace CurlyScript

/-- The part of a token stream that a construct was read from: the tokens from `start` up to, but
    not including, `stop`. -/
structure Span where
  start : Nat
  stop : Nat
  deriving DecidableEq, Repr

/-- The number of tokens in a span; none if it ends before it starts. -/
def Span.length (span : Span) : Nat :=
  span.stop - span.start

def Span.isEmpty (span : Span) : Bool :=
  span.length == 0

/-- The kinds of constructs that a filter can ask for. The two forms of function definition are
    one kind. -/
inductive NodeKind where
  | empty
  | block
  | string
  | execution
  | identifier
  | functionDefinition
  deriving DecidableEq, Repr

/-- The name that listings give to a kind. -/
def NodeKind.name : NodeKind → String
  | .empty => "Empty"
  | .block => "Block"
  | .string => "String"
  | .execution => "Execution"
  | .identifier => "Identifier"
  | .functionDefinition => "FunctionDefinition"

/-- A construct of a script with the span it was read from. The type word of a function
    definition leaves no trace, and neither do parentheses that only group. -/
inductive Node where
  | empty (span : Span)
  /-- Statements between curly brackets. -/
  | block (span : Span) (statements : List Node)
  /-- Quoted text, kept as the tokens between its quotes. -/
  | string (span : Span) (tokens : List Token)
  | identifier (span : Span) (name : String)
  /-- A call of `callee`. -/
  | execution (span : Span) (callee : Node) (arguments : List Node)
  | namedFunction (span : Span) (name : String) (body : Node)
  | inlineFunction (span : Span) (body : Node)
  deriving Repr

namespace Node

def span : Node → Span
  | .empty span => span
  | .block span _ => span
  | .string span _ => span
  | .identifier span _ => span
  | .execution span _ _ => span
  | .namedFunction span _ _ => span
  | .inlineFunction span _ => span

def kind : Node → NodeKind
  | .empty _ => .empty
  | .block _ _ => .block
  | .string _ _ => .string
  | .identifier _ _ => .identifier
  | .execution _ _ _ => .execution
  | .namedFunction _ _ _ => .functionDefinition
  | .inlineFunction _ _ => .functionDefinition

/-- The name that listings give to a construct. Unlike a kind it tells the two forms of function
    definition apart. -/
def label : Node → String
  | .empty _ => "Empty"
  | .block _ _ => "Block"
  | .string _ _ => "String"
  | .identifier _ _ => "Identifier"
  | .execution _ _ _ => "Execution"
  | .namedFunction _ _ _ => "NamedFunctionDefinition"
  | .inlineFunction _ _ => "InlineFunctionDefinition"

/-- Strings and function definitions stand for themselves. -/
def isLiteral : Node → Bool
  | .string _ _ => true
  | .namedFunction _ _ _ => true
  | .inlineFunction _ _ => true
  | _ => false

/-- The body of a function definition. -/
def body? : Node → Option Node
  | .namedFunction _ _ body => some body
  | .inlineFunction _ body => some body
  | _ => none

/-- The name of an identifier. A named function definition is not one. -/
def identifier? : Node → Option String
  | .identifier _ name => some name
  | _ => none

/-- The direct parts of a construct in the order of the source. -/
def children : Node → List Node
  | .block _ statements => statements
  | .execution _ callee arguments => callee :: arguments
  | .namedFunction _ _ body => [body]
  | .inlineFunction _ body => [body]
  | _ => []

/-- The text of a string node's tokens, as it stood in the source. -/
def textOf (tokens : List Token) : String :=
  String.join (tokens.map Token.raw)

mutual

/-- A node and all that is below it, each with its depth, every node before its parts. -/
def outline (depth : Nat) : Node → List (Nat × Node)
  | .empty span => [(depth, .empty span)]
  | .block span statements =>
    (depth, .block span statements) :: outlineAll (depth + 1) statements
  | .string span tokens => [(depth, .string span tokens)]
  | .identifier span name => [(depth, .identifier span name)]
  | .execution span callee arguments =>
    (depth, .execution span callee arguments) ::
      (outline (depth + 1) callee ++ outlineAll (depth + 1) arguments)
  | .namedFunction span name body =>
    (depth, .namedFunction span name body) :: outline (depth + 1) body
  | .inlineFunction span body => (depth, .inlineFunction span body) :: outline (depth + 1) body

/-- The outlines of several nodes at one depth, one after the other. -/
def outlineAll (depth : Nat) : List Node → List (Nat × Node)
  | [] => []
  | node :: rest => outline depth node ++ outlineAll depth rest

end

theorem outlineAll_eq_flatMap (depth : Nat) (nodes : List Node) :
    outlineAll depth nodes = nodes.flatMap (outline depth) := by
  induction nodes with
  | nil => rw [outlineAll, List.flatMap_nil]
  | cons node rest ih => rw [outlineAll, ih, List.flatMap_cons]

/-- An outline is the node itself and then the outlines of its parts, one level down. -/
theorem outline_eq_cons (depth : Nat) (node : Node) :
    node.outline depth = (depth, node) :: node.children.flatMap (outline (depth + 1)) := by
  cases node <;> simp [outline, children, outlineAll_eq_flatMap]

end Node

end CurlyScript
