import CurlyScript.Grammar.Delimited
import CurlyScript.Proofs.Layout.Lexing

namespace CurlyScript

/-- A script as its author thinks of it, with types and without places. -/
inductive Tree where
  | identifier (name : String)
  | string (quote : Quote) (content : String)
  | block (statements : List Tree)
  | call (callee : Tree) (arguments : List Tree)
  | named (type name : String) (body : Tree)
  | inline (type : String) (body : Tree)

mutual

/-- The construct that a tree stands for, at no place in particular. -/
def Tree.node : Tree → Node
  | .identifier name => .identifier ⟨0, 0⟩ name
  | .string _ content => .string ⟨0, 0⟩ (tokenize content)
  | .block statements => .block ⟨0, 0⟩ (nodes statements)
  | .call callee arguments => .execution ⟨0, 0⟩ callee.node (nodes arguments)
  | .named _ name body => .namedFunction ⟨0, 0⟩ name body.node
  | .inline _ body => .inlineFunction ⟨0, 0⟩ body.node

def Tree.nodes : List Tree → List Node
  | [] => []
  | tree :: trees => tree.node :: nodes trees

end

mutual

/-- Forgets where a construct was read. -/
def Node.unplaced : Node → Node
  | .empty _ => .empty ⟨0, 0⟩
  | .block _ statements => .block ⟨0, 0⟩ (allUnplaced statements)
  | .string _ tokens => .string ⟨0, 0⟩ tokens
  | .identifier _ name => .identifier ⟨0, 0⟩ name
  | .execution _ callee arguments => .execution ⟨0, 0⟩ callee.unplaced (allUnplaced arguments)
  | .namedFunction _ name body => .namedFunction ⟨0, 0⟩ name body.unplaced
  | .inlineFunction _ body => .inlineFunction ⟨0, 0⟩ body.unplaced

def Node.allUnplaced : List Node → List Node
  | [] => []
  | node :: nodes => node.unplaced :: allUnplaced nodes

end

mutual

/-- A text is a rendering of a tree. Any tree may be put in parentheses, and a callee other than a
    name has to be. The gaps are wherever blanks make no difference. A definition whose body is a
    block may leave its type out. -/
inductive Renders : Tree → String → Prop
  | identifier {name : String} (hname : isWord name = true) : Renders (.identifier name) name
  | string {quote : Quote} {content : String} (hcontent : quote.char ∉ content.toList) :
      Renders (.string quote content) (quote.char.toString ++ content ++ quote.char.toString)
  | block {statements : List Tree} {text : String}
      (hlist : RendersList .statements statements text) :
      Renders (.block statements) ("\x7b" ++ text ++ "\x7d")
  | call {name gap text : String} {arguments : List Tree} (hname : isWord name = true)
      (hgap : IsBlank gap) (hlist : RendersList .arguments arguments text) :
      Renders (.call (.identifier name) arguments) (name ++ gap ++ "(" ++ text ++ ")")
  | groupedCall {callee : Tree} {before inner after gap text : String} {arguments : List Tree}
      (hbefore : IsBlank before) (hinner : Renders callee inner) (hafter : IsBlank after)
      (hgap : IsBlank gap) (hlist : RendersList .arguments arguments text) :
      Renders (.call callee arguments)
        ("(" ++ before ++ inner ++ after ++ ")" ++ gap ++ "(" ++ text ++ ")")
  | typed {type name gap text : String} {body : Tree} (htype : isWord type = true)
      (hname : isWord name = true) (hgap : IsBlank gap) (hbody : Renders body text) :
      Renders (.named type name body) (type ++ " " ++ name ++ "()" ++ gap ++ text)
  | untyped {type name gap text : String} {statements : List Tree} (hname : isWord name = true)
      (hgap : IsBlank gap) (hlist : RendersList .statements statements text) :
      Renders (.named type name (.block statements))
        (name ++ "()" ++ gap ++ "\x7b" ++ text ++ "\x7d")
  | inline {type before after text : String} {body : Tree} (htype : isWord type = true)
      (hbefore : IsBlank before) (hafter : IsBlank after) (hbody : Renders body text) :
      Renders (.inline type body) (type ++ "()" ++ before ++ "=>" ++ after ++ text)
  | grouped {tree : Tree} {before inner after : String} (hbefore : IsBlank before)
      (hinner : Renders tree inner) (hafter : IsBlank after) :
      Renders tree ("(" ++ before ++ inner ++ after ++ ")")

/-- A text renders the items of a list with what stands around them. Two items have a separator
    between them, and there may be more separators anywhere. -/
inductive RendersList : Delimiters → List Tree → String → Prop
  | blank {delimiters : Delimiters} {gap : String} (hgap : IsBlank gap) :
      RendersList delimiters [] gap
  | separator {delimiters : Delimiters} {trees : List Tree} {gap text : String}
      (hgap : IsBlank gap) (hrest : RendersList delimiters trees text) :
      RendersList delimiters trees (gap ++ delimiters.separator.char.toString ++ text)
  | last {delimiters : Delimiters} {tree : Tree} {before text after : String}
      (hbefore : IsBlank before) (htree : Renders tree text) (hafter : IsBlank after) :
      RendersList delimiters [tree] (before ++ text ++ after)
  | item {delimiters : Delimiters} {tree : Tree} {trees : List Tree}
      {before text after rest : String} (hbefore : IsBlank before) (htree : Renders tree text)
      (hafter : IsBlank after) (hrest : RendersList delimiters trees rest) :
      RendersList delimiters (tree :: trees)
        (before ++ text ++ after ++ delimiters.separator.char.toString ++ rest)

end

end CurlyScript
