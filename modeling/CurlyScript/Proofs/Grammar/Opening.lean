import CurlyScript.Proofs.Grammar.Word

namespace CurlyScript

/-- What stands at a place, as far as the next few tokens tell. A definition is given with its name
    and with the place of its body, and a call with the place of its arguments. -/
inductive Opening where
  | block
  | string (quote : Quote)
  | named (name : String) (body : Nat)
  /-- A type and a space before text that is no name. -/
  | misnamed
  | inline (body : Nat)
  | call (callee : String) (arguments : Nat)
  | word (name : String)
  | parenthesis
  | nothing
  deriving DecidableEq, Repr

/-- Where the part is that is read next, if the opening tells it. -/
def Opening.place? : Opening → Option Nat
  | .named _ body => some body
  | .inline body => some body
  | .call _ arguments => some arguments
  | _ => none

namespace TokenStream

def quoteAt? (ts : TokenStream) (i : Nat) : Option Quote :=
  ts[i]?.bind Token.quote?

/-- Whether text stands at an index, be it a name or not. -/
def hasText (ts : TokenStream) (i : Nat) : Bool :=
  ts[i]?.any (·.text?.isSome)

/-- Whether two parentheses with nothing between them stand at an index. -/
def hasParameters (ts : TokenStream) (i : Nat) : Bool :=
  ts.sees i .openParen && ts.sees (i + 1) .closeParen

/-- What begins with a name that ends just before an index. -/
def afterWord (ts : TokenStream) (name : String) (i : Nat) : Opening :=
  if ts.sees i .space && ts.hasText (i + 1) then
    match ts.wordAt? (i + 1) with
    | none => .misnamed
    | some defined =>
      if ts.hasParameters (i + 2) then .named defined (ts.skipBlanks (i + 4)) else .word name
  else if ts.hasParameters i && ts.sees (ts.skipBlanks (i + 2)) .openCurly then
    .named name (ts.skipBlanks (i + 2))
  else if ts.hasParameters i && ts.sees (ts.skipBlanks (i + 2)) .equal &&
      ts.sees (ts.skipBlanks (i + 2) + 1) .rightChevron then
    .inline (ts.skipBlanks (ts.skipBlanks (i + 2) + 2))
  else if ts.sees (ts.skipBlanks i) .openParen then
    .call name (ts.skipBlanks i + 1)
  else
    .word name

/-- What stands at an index. The first token decides, and for a name the tokens after it: with one
    space and more text it is a type, and otherwise it depends on the parentheses that follow. -/
def opening (ts : TokenStream) (i : Nat) : Opening :=
  if ts.sees i .openCurly then
    .block
  else match ts.quoteAt? i with
    | some quote => .string quote
    | none => match ts.wordAt? i with
      | some name => ts.afterWord name (i + 1)
      | none => if ts.sees i .openParen then .parenthesis else .nothing

end TokenStream

mutual

/-- The grammar, as far as it has to be looked up where a node ends: a node stands between two
    indices. Nothing is tried here, since the opening leaves no choice. -/
inductive Reads (ts : TokenStream) : Nat → Node → Nat → Prop
  | empty {start : Nat} (hend : ts.size ≤ start) : Reads ts start (.empty ⟨0, ts.size⟩) start
  | block {start stop : Nat} {statements : List Node}
      (hopening : ts.opening (ts.skipBlanks start) = .block)
      (hlist : ReadsList ts .statements (ts.skipBlanks start + 1) statements stop) :
      Reads ts start (.block ⟨start, stop⟩ statements) stop
  | string {start close : Nat} {quote : Quote}
      (hopening : ts.opening (ts.skipBlanks start) = .string quote)
      (hlt : ts.skipBlanks start < close) (hclose : ts.quoteAt? close = some quote)
      (hopen : ∀ i, ts.skipBlanks start < i → i < close → ts.quoteAt? i ≠ some quote) :
      Reads ts start
        (.string ⟨start, close + 1⟩ (ts.extract (ts.skipBlanks start + 1) close).toList) (close + 1)
  | named {start body stop : Nat} {name : String} {node : Node}
      (hopening : ts.opening (ts.skipBlanks start) = .named name body)
      (hbody : Reads ts body node stop) :
      Reads ts start (.namedFunction ⟨start, stop⟩ name node) stop
  | inline {start body stop : Nat} {node : Node}
      (hopening : ts.opening (ts.skipBlanks start) = .inline body)
      (hbody : Reads ts body node stop) : Reads ts start (.inlineFunction ⟨start, stop⟩ node) stop
  | call {start place stop : Nat} {callee : String} {arguments : List Node}
      (hopening : ts.opening (ts.skipBlanks start) = .call callee place)
      (hlist : ReadsList ts .arguments place arguments stop) :
      Reads ts start (.execution ⟨start, stop⟩
        (.identifier ⟨ts.skipBlanks start, ts.skipBlanks start + 1⟩ callee) arguments) stop
  | word {start : Nat} {name : String}
      (hopening : ts.opening (ts.skipBlanks start) = .word name) :
      Reads ts start (.identifier ⟨start, ts.skipBlanks start + 1⟩ name) (ts.skipBlanks start + 1)
  | grouping {start next : Nat} {node : Node}
      (hopening : ts.opening (ts.skipBlanks start) = .parenthesis)
      (hinner : Reads ts (ts.skipBlanks start + 1) node next)
      (hclose : ts.sees (ts.skipBlanks next) .closeParen = true)
      (hcall : ts.sees (ts.skipBlanks (ts.skipBlanks next + 1)) .openParen = false) :
      Reads ts start node (ts.skipBlanks next + 1)
  | groupingCall {start next stop : Nat} {node : Node} {arguments : List Node}
      (hopening : ts.opening (ts.skipBlanks start) = .parenthesis)
      (hinner : Reads ts (ts.skipBlanks start + 1) node next)
      (hclose : ts.sees (ts.skipBlanks next) .closeParen = true)
      (hcall : ts.sees (ts.skipBlanks (ts.skipBlanks next + 1)) .openParen = true)
      (hlist : ReadsList ts .arguments (ts.skipBlanks (ts.skipBlanks next + 1) + 1) arguments
        stop) :
      Reads ts start (.execution ⟨start, stop⟩ node arguments) stop

/-- The items of a list stand from just after its opening bracket through its closing one. -/
inductive ReadsList (ts : TokenStream) : Delimiters → Nat → List Node → Nat → Prop
  | close {delimiters : Delimiters} {i : Nat}
      (hclose : ts.sees (ts.skipBlanks i) delimiters.closer = true) :
      ReadsList ts delimiters i [] (ts.skipBlanks i + 1)
  | separator {delimiters : Delimiters} {i stop : Nat} {nodes : List Node}
      (hseparator : ts.sees (ts.skipBlanks i) delimiters.separator = true)
      (hrest : ReadsList ts delimiters (ts.skipBlanks i + 1) nodes stop) :
      ReadsList ts delimiters i nodes stop
  | item {delimiters : Delimiters} {i next stop : Nat} {node : Node} {nodes : List Node}
      (hstart : delimiters.seenAt ts (ts.skipBlanks i) = false)
      (hnode : Reads ts (ts.skipBlanks i) node next)
      (hend : delimiters.seenAt ts (ts.skipBlanks next) = true)
      (hrest : ReadsList ts delimiters (ts.skipBlanks next) nodes stop) :
      ReadsList ts delimiters i (node :: nodes) stop

end

end CurlyScript
