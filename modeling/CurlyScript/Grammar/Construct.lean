import CurlyScript.Grammar.Delimited

namespace CurlyScript

open Attempt

/-- A name: one or more of the letters and digits of ASCII and the underscore. -/
def isWord (content : String) : Bool :=
  !content.isEmpty && content.toList.all fun c => c.isAlphanum || c == '_'

namespace Rule

/-- Statements between curly brackets. Like every rule this one reads from `cursor`, where no
    whitespace stands, and the span of what it yields begins at `start`, before the whitespace that
    was skipped to get there. -/
def blockAt (ts : TokenStream) (start : Nat) (cursor : Cursor) : Attempt Parsed := do
  if ts.sees cursor.token .openCurly then
    let (statements, cursor) ← Delimiters.statements.read ts cursor.skip
    return ⟨.block ⟨start, cursor.token⟩ statements, cursor⟩
  else
    decline

/-- The tokens of an open string up to its closing quote, and the cursor after that. Only a quote
    of the kind that opened the string ends it. -/
def restOfString (ts : TokenStream) (quote : Quote) (cursor : Cursor) (captured : List Token) :
    Except SyntaxError (List Token × Cursor) :=
  if h : cursor.token < ts.size then
    let token := ts[cursor.token]
    let next := cursor.advance token
    if next.insideQuote then restOfString ts quote next (token :: captured)
    else .ok (captured.reverse, next)
  else .error ⟨.unterminatedString quote, cursor.token⟩
termination_by ts.size - cursor.token
decreasing_by
  have hnext := cursor.advance_token ts[cursor.token]
  omega

/-- Any tokens between two quotes of one kind. -/
def stringAt (ts : TokenStream) (start : Nat) (cursor : Cursor) : Attempt Parsed := do
  match ts[cursor.token]? with
  | none => decline
  | some token => match token.quote? with
    | none => decline
    | some quote => match restOfString ts quote (cursor.advance token) [] with
      | .ok (tokens, cursor) => return ⟨.string ⟨start, cursor.token⟩ tokens, cursor⟩
      | .error error => throw (.rejected error)

/-- The two parentheses of a function definition, with nothing between them. -/
def parameterList (ts : TokenStream) (cursor : Cursor) : Attempt Cursor := do
  let cursor ← eat ts .openParen cursor
  eat ts .closeParen cursor

/-- The name after a type and a space. A word that is followed by a space and no text is no type
    but ends a statement. Text that is no name is an error, since what stands before it can only
    begin a definition. -/
def nameAfterType (ts : TokenStream) (cursor : Cursor) : Attempt (String × Cursor) := do
  match ts[cursor.token]? with
  | some (.text _) =>
    let invalid := Attempt.reject (.invalidFunctionName (ts.describe? cursor.token)) cursor.token
    match ← verdictOn ⟨cursor.token, some (.only .identifier)⟩ with
    | .error _ => invalid
    | .ok parsed => match parsed.node.identifier? with
      | none => invalid
      | some name => return (name, cursor.moveTo parsed.cursor.token)
  | _ => decline

/-- Reads the body of a named function from its first token on. -/
def namedBody (start : Nat) (name : String) (cursor : Cursor) :
    Attempt Parsed := do
  let body ← require ⟨cursor.token, none⟩
  let cursor := cursor.moveTo body.cursor.token
  return ⟨.namedFunction ⟨start, cursor.token⟩ name body.node, cursor⟩

/-- A type, one space, a name, the parameters and any body; or a name, the parameters and a block.
    Without a type, anything but a block makes this a call. -/
def namedFunctionAt (ts : TokenStream) (start : Nat) (cursor : Cursor) : Attempt Parsed := do
  let first ← probe ⟨cursor.token, some .types⟩
  let cursor := cursor.moveTo first.cursor.token
  if ts.sees cursor.token .space then
    let (name, cursor) ← nameAfterType ts (cursor.advance (.symbol .space))
    let cursor ← parameterList ts cursor
    namedBody start name (cursor.skipBlanks ts)
  else
    match first.node.identifier? with
    | none => decline
    | some name =>
      let cursor ← parameterList ts cursor
      let cursor := cursor.skipBlanks ts
      if ts.sees cursor.token .openCurly then namedBody start name cursor else decline

/-- A type, the parameters, an arrow and a body. -/
def inlineFunctionAt (ts : TokenStream) (start : Nat) (cursor : Cursor) : Attempt Parsed := do
  let type ← probe ⟨cursor.token, some .types⟩
  let cursor ← parameterList ts (cursor.moveTo type.cursor.token)
  let cursor ← eat ts .equal (cursor.skipBlanks ts)
  let cursor ← eat ts .rightChevron cursor
  let cursor := cursor.skipBlanks ts
  let body ← require ⟨cursor.token, none⟩
  let cursor := cursor.moveTo body.cursor.token
  return ⟨.inlineFunction ⟨start, cursor.token⟩ body.node, cursor⟩

/-- Something that can be called and its arguments in parentheses. -/
def executionAt (ts : TokenStream) (start : Nat) (cursor : Cursor) : Attempt Parsed := do
  let callee ← probe ⟨cursor.token, some .callables⟩
  let cursor := (cursor.moveTo callee.cursor.token).skipBlanks ts
  if ts.sees cursor.token .openParen then
    let (arguments, cursor) ← Delimiters.arguments.read ts cursor.skip
    return ⟨.execution ⟨start, cursor.token⟩ callee.node arguments, cursor⟩
  else
    decline

/-- A construct in parentheses. The parentheses are consumed but leave no node, and the node keeps
    the span it has without them. -/
def groupingAt (ts : TokenStream) (cursor : Cursor) : Attempt Parsed := do
  let cursor ← eat ts .openParen cursor
  let inner ← require ⟨cursor.token, none⟩
  let cursor ← eat ts .closeParen ((cursor.moveTo inner.cursor.token).skipBlanks ts)
  return ⟨inner.node, cursor⟩

/-- A name on its own. -/
def identifierAt (ts : TokenStream) (start : Nat) (cursor : Cursor) : Attempt Parsed := do
  match ts[cursor.token]? with
  | some (.text content) =>
    if isWord content then
      let cursor := cursor.advance (.text content)
      return ⟨.identifier ⟨start, cursor.token⟩ content, cursor⟩
    else
      decline
  | _ => decline

/-- Tries a rule. -/
def attempt (ts : TokenStream) (start : Nat) (cursor : Cursor) : Rule → Attempt Parsed
  | .block => blockAt ts start cursor
  | .string => stringAt ts start cursor
  | .namedFunction => namedFunctionAt ts start cursor
  | .inlineFunction => inlineFunctionAt ts start cursor
  | .execution => executionAt ts start cursor
  | .grouping => groupingAt ts cursor
  | .identifier => identifierAt ts start cursor

end Rule

end CurlyScript
