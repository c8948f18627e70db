import CurlyScript.Node

namespace CurlyScript

/-- Which constructs may be read at a place, in the order in which they are tried. With `fallback`
    a parenthesised construct of any kind may stand there too. -/
structure NodeFilter where
  kinds : List NodeKind
  fallback : Bool
  deriving DecidableEq, Repr

namespace NodeFilter

/-- Constructs of one kind. -/
def only (kind : NodeKind) : NodeFilter :=
  ⟨[kind], false⟩

/-- What can name a type. -/
def types : NodeFilter :=
  only .identifier

/-- What can be called. -/
def callables : NodeFilter :=
  ⟨[.identifier, .functionDefinition], true⟩

def allows (filter : NodeFilter) (kind : NodeKind) : Bool :=
  filter.kinds.contains kind

/-- How a log shows a filter. -/
def shown (filter : NodeFilter) : String :=
  "NodeFilter \x7b kinds: [" ++ ", ".intercalate (filter.kinds.map NodeKind.name) ++
    "], fallback: " ++ (if filter.fallback then "true" else "false") ++ " \x7d"

end NodeFilter

end CurlyScript
