import CurlyScript.NodeFilter

namespace CurlyScript

/-- The ways in which a construct can be read. -/
inductive Rule where
  | block
  | string
  | namedFunction
  | inlineFunction
  | execution
  | grouping
  | identifier
  deriving DecidableEq, Repr

namespace Rule

/-- The order in which the rules are tried. A definition and a call begin with what is an
    identifier on its own, so the identifier comes last. -/
def order : List Rule :=
  [.block, .string, .namedFunction, .inlineFunction, .execution, .grouping, .identifier]

/-- The kind of construct that a rule yields. A grouping yields whatever stands between its
    parentheses. -/
def kind? : Rule → Option NodeKind
  | .block => some .block
  | .string => some .string
  | .namedFunction => some .functionDefinition
  | .inlineFunction => some .functionDefinition
  | .execution => some .execution
  | .grouping => none
  | .identifier => some .identifier

/-- The name that a log gives to a rule. -/
def name : Rule → String
  | .block => "block"
  | .string => "string"
  | .namedFunction => "named function"
  | .inlineFunction => "inline function"
  | .execution => "execution"
  | .grouping => "grouping"
  | .identifier => "identifier"

/-- The rules to try under a filter: those of each kind in turn, as often as the kind is listed,
    and the grouping at the end if the filter falls back on it. -/
def candidates : Option NodeFilter → List Rule
  | none => order
  | some filter =>
    filter.kinds.flatMap (fun kind => order.filter (·.kind? == some kind)) ++
      if filter.fallback then [.grouping] else []

end Rule

end CurlyScript
