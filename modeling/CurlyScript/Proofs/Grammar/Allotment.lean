import CurlyScript.Proofs.Grammar.Duties
import CurlyScript.Proofs.Grammar.Extent

namespace CurlyScript

/-- What stands between the items of the list that a construct has, and what ends it. -/
def Node.delimiters? : Node → Option Delimiters
  | .block _ _ => some .statements
  | .execution _ _ _ => some .arguments
  | _ => none

/-- The place of the name in a definition that was read from an index on: its first token, or the
    third if a type and a space come first. -/
def TokenStream.NamesAt (ts : TokenStream) (start i : Nat) : Prop :=
  i = ts.skipBlanks start ∧ ts.sees (ts.skipBlanks start + 1) .openParen = true ∨
    i = ts.skipBlanks start + 2 ∧ ts.sees (ts.skipBlanks start + 1) .space = true

/-- The token at an index is fit for a duty in a construct. Where the duties that come first in
    their run are done is fixed by the span of the construct. -/
def Duty.Suits (ts : TokenStream) (i : Nat) (owner : Node) : Duty → Prop
  | .opens =>
    (∃ span statements, owner = .block span statements ∧ i = ts.skipBlanks span.start ∧
      ts.sees i .openCurly = true) ∨
    ∃ span callee arguments, owner = .execution span callee arguments ∧
      ts.Unopened callee.span.stop i ∧ ts.sees i .openParen = true
  | .separates =>
    ∃ delimiters, owner.delimiters? = some delimiters ∧ ts.sees i delimiters.separator = true
  | .closes => i + 1 = owner.span.stop ∧
    ∃ delimiters, owner.delimiters? = some delimiters ∧ ts.sees i delimiters.closer = true
  | .openQuote => ∃ span tokens quote, owner = .string span tokens ∧ i = ts.skipBlanks span.start ∧
      ts.quoteAt? i = some quote ∧ ts.quoteAt? (i + tokens.length + 1) = some quote ∧
      ∀ token ∈ tokens, token.quote? ≠ some quote
  | .captured n => ∃ span tokens, owner = .string span tokens ∧ n < tokens.length ∧
      ts[i]? = tokens[n]?
  | .closeQuote => ∃ span tokens quote, owner = .string span tokens ∧ ts.quoteAt? i = some quote
  | .name => ∃ name, ts.wordAt? i = some name ∧
      (owner.identifier? = some name ∧ i + 1 = owner.span.stop ∨
        ∃ span body, owner = .namedFunction span name body ∧ ts.NamesAt span.start i)
  | .resultType => ∃ type span name body, owner = .namedFunction span name body ∧
      ts.wordAt? i = some type
  | .type => ∃ type span body, owner = .inlineFunction span body ∧ i = ts.skipBlanks span.start ∧
      ts.wordAt? i = some type
  | .openParameters => owner.kind = .functionDefinition ∧ ts.sees i .openParen = true
  | .closeParameters => owner.kind = .functionDefinition ∧ ts.sees i .closeParen = true
  | .arrowStem => ∃ span body, owner = .inlineFunction span body ∧
      i = ts.skipBlanks (ts.skipBlanks span.start + 3) ∧ ts.sees i .equal = true
  | .arrowHead => ∃ span body, owner = .inlineFunction span body ∧ ts.sees i .rightChevron = true

/-- The token at an index is fit for a role in a tree. A construct has duties only for the tokens
    in its span. -/
def Role.Suits (root : Node) (ts : TokenStream) (i : Nat) : Role → Prop
  | .blank => ∃ token, ts[i]? = some token ∧ token.isWhitespace = true
  | .openGroup => ts.sees i .openParen = true
  | .closeGroup => ts.sees i .closeParen = true
  | .duty owner task => ∃ part, root.at? owner = some part ∧ part.span.start ≤ i ∧
      i < part.span.stop ∧ task.Suits ts i part

/-- Keeps account of the brackets that are open, the innermost first. A bracket closes the innermost
    one, and a separator stands directly in the brackets of its list. -/
def Role.track (opened : List Role) : Role → Option (List Role)
  | .openGroup => some (.openGroup :: opened)
  | .closeGroup => if opened.head? = some .openGroup then some opened.tail else none
  | .duty owner .opens => some (.duty owner .opens :: opened)
  | .duty owner .separates =>
    if opened.head? = some (.duty owner .opens) then some opened else none
  | .duty owner .closes =>
    if opened.head? = some (.duty owner .opens) then some opened.tail else none
  | _ => some opened

/-- Roles that are given out together to tokens that stand side by side. -/
inductive Piece where
  | blank
  | openGroup
  | closeGroup
  | separator (owner : List Nat)
  | run (owner : List Nat) (run : List Duty)
  /-- The run of a named function with its type, a single space between them. -/
  | typed (owner : List Nat)

namespace Piece

def roles : Piece → List Role
  | .blank => [.blank]
  | .openGroup => [.openGroup]
  | .closeGroup => [.closeGroup]
  | .separator owner => [.duty owner .separates]
  | .run owner duties => duties.map (.duty owner)
  | .typed owner => .duty owner .resultType :: .blank ::
      [Duty.name, .openParameters, .closeParameters].map (.duty owner)

/-- The run that a piece is of. -/
def run? : Piece → Option (List Nat × List Duty)
  | .run owner duties => some (owner, duties)
  | .typed owner => some (owner, [.name, .openParameters, .closeParameters])
  | _ => none

end Piece

/-- Some tokens that stand side by side, from an index on, are fit for some roles. -/
def RolesSuit (root : Node) (ts : TokenStream) : Nat → List Role → Prop
  | _, [] => True
  | i, role :: roles => role.Suits root ts i ∧ RolesSuit root ts (i + 1) roles

/-- The tokens between two indices can be given the roles of some pieces, among them the runs of an
    inventory in their order. Of the brackets, `before` are open there and `after` behind it. -/
structure Allots (root : Node) (ts : TokenStream) (start stop : Nat) (before after : List Role)
    (inventory : List (List Nat × List Duty)) (pieces : List Piece) : Prop where
  stop_eq : start + (pieces.flatMap Piece.roles).length = stop
  suit : RolesSuit root ts start (pieces.flatMap Piece.roles)
  track_eq : (pieces.flatMap Piece.roles).foldlM Role.track before = some after
  inventory_eq : pieces.filterMap Piece.run? = inventory

def Allotted (root : Node) (ts : TokenStream) (start stop : Nat) (before after : List Role)
    (inventory : List (List Nat × List Duty)) : Prop :=
  ∃ pieces, Allots root ts start stop before after inventory pieces

section

variable {root part : Node} {ts : TokenStream} {start next stop i : Nat}
  {before between after opened : List Role} {inventory inventory' : List (List Nat × List Duty)}
  {path : List Nat}

theorem rolesSuit_append {a b : List Role} :
    RolesSuit root ts i (a ++ b) ↔ RolesSuit root ts i a ∧ RolesSuit root ts (i + a.length) b := by
  induction a generalizing i with
  | nil => simp [RolesSuit]
  | cons role a ih =>
    rw [List.cons_append, RolesSuit, RolesSuit, ih, List.length_cons, and_assoc, Nat.add_assoc,
      Nat.add_comm 1]

theorem allotted_nil (root : Node) (ts : TokenStream) (i : Nat) (opened : List Role) :
    Allotted root ts i i opened opened [] :=
  ⟨[], rfl, trivial, rfl, rfl⟩

theorem Allotted.append (hfirst : Allotted root ts start next before between inventory)
    (hrest : Allotted root ts next stop between after inventory') :
    Allotted root ts start stop before after (inventory ++ inventory') := by
  obtain ⟨pieces, rfl, hsuit, htrack, rfl⟩ := hfirst
  obtain ⟨pieces', hstop, hsuit', htrack', rfl⟩ := hrest
  refine ⟨pieces ++ pieces', ?_, ?_, ?_, List.filterMap_append⟩
  · rw [List.flatMap_append, List.length_append, ← Nat.add_assoc, hstop]
  · rw [List.flatMap_append, rolesSuit_append]
    exact ⟨hsuit, hsuit'⟩
  · rw [List.flatMap_append, List.foldlM_append, htrack]
    exact htrack'

theorem allotted_piece (piece : Piece) (hstop : i + piece.roles.length = stop)
    (hsuit : RolesSuit root ts i piece.roles)
    (htrack : piece.roles.foldlM Role.track before = some after) :
    Allotted root ts i stop before after piece.run?.toList := by
  refine ⟨[piece], ?_, ?_, ?_, ?_⟩
  · rwa [List.flatMap_singleton]
  · rwa [List.flatMap_singleton]
  · rwa [List.flatMap_singleton]
  · cases hrun : piece.run? <;> simp [hrun]

/-- Blanks are nobody's. -/
theorem allotted_blanks (root : Node) (ts : TokenStream) (i : Nat) (opened : List Role) :
    Allotted root ts i (ts.skipBlanks i) opened opened [] := by
  fun_induction TokenStream.skipBlanks ts i with
  | case1 i hlt hblank ih =>
    have hsuit : RolesSuit root ts i Piece.blank.roles :=
      ⟨⟨_, Array.getElem?_eq_getElem hlt, hblank⟩, trivial⟩
    exact (allotted_piece .blank rfl hsuit rfl).append ih
  | case2 i hlt hblank => exact allotted_nil ..
  | case3 i hge => exact allotted_nil ..

theorem Role.suits_duty (duty : Duty) (hpart : root.at? path = some part)
    (hstart : part.span.start ≤ i) (hstop : i < part.span.stop) (hsuits : duty.Suits ts i part) :
    (Role.duty path duty).Suits root ts i :=
  ⟨part, hpart, hstart, hstop, hsuits⟩

/-- A run of a single token. -/
theorem allotted_run {duty : Duty} (hsuits : (Role.duty path duty).Suits root ts i)
    (htrack : Role.track before (.duty path duty) = some after) :
    Allotted root ts i (i + 1) before after [(path, [duty])] := by
  refine allotted_piece (.run path [duty]) rfl ⟨hsuits, trivial⟩ ?_
  change (Role.track before (.duty path duty) >>= pure) = some after
  rw [htrack]
  rfl

theorem allotted_closes (hsuits : (Role.duty path .closes).Suits root ts i) :
    Allotted root ts i (i + 1) (.duty path .opens :: opened) opened [(path, [.closes])] :=
  allotted_run hsuits (if_pos rfl)

theorem allotted_separator (hsuits : (Role.duty path .separates).Suits root ts i) :
    Allotted root ts i (i + 1) (.duty path .opens :: opened) (.duty path .opens :: opened) [] := by
  refine allotted_piece (.separator path) rfl ⟨hsuits, trivial⟩ ?_
  have htrack : Role.track (.duty path .opens :: opened) (.duty path .separates) =
      some (.duty path .opens :: opened) := if_pos rfl
  change (Role.track _ _ >>= pure) = _
  rw [htrack]
  rfl

/-- What is in parentheses that only group is given its roles as if they were not there. -/
theorem Allotted.grouped (hopen : ts.sees start .openParen = true)
    (hinner : Allotted root ts (start + 1) next (.openGroup :: opened) (.openGroup :: opened)
      inventory)
    (hclose : ts.sees (ts.skipBlanks next) .closeParen = true) :
    Allotted root ts start (ts.skipBlanks next + 1) opened opened inventory := by
  have hbefore : Allotted root ts start (start + 1) opened (.openGroup :: opened) [] :=
    allotted_piece .openGroup rfl ⟨hopen, trivial⟩ rfl
  have hafter : Allotted root ts (ts.skipBlanks next) (ts.skipBlanks next + 1)
      (.openGroup :: opened) opened [] :=
    allotted_piece .closeGroup rfl ⟨hclose, trivial⟩ rfl
  have hwhole := hbefore.append (hinner.append ((allotted_blanks root ts next _).append hafter))
  rwa [List.nil_append, List.nil_append, List.append_nil] at hwhole

/-- A child is reached by one more step. -/
theorem Node.at?_child {child : Node} {k : Nat} (hpart : root.at? path = some part)
    (hchild : part.children[k]? = some child) : root.at? (path ++ [k]) = some child := by
  rw [at?_concat, hpart]
  exact hchild

theorem length_restOfString (n left : Nat) : (Duty.restOfString n left).length = left + 1 := by
  induction left generalizing n with
  | zero => rfl
  | succ left ih => rw [Duty.restOfString, List.length_cons, ih]

theorem track_restOfString (path : List Nat) (n left : Nat) (opened : List Role) :
    ((Duty.restOfString n left).map (.duty path)).foldlM Role.track opened = some opened := by
  induction left generalizing n with
  | zero => rfl
  | succ left ih => exact ih (n + 1)

/-- The tokens from some place in a string through its closing quote. -/
theorem rolesSuit_restOfString {span : Span} {tokens : List Token} {first : Nat} {quote : Quote}
    (hpart : root.at? path = some (.string span tokens)) (hstart : span.start ≤ first)
    (hstop : first + tokens.length < span.stop)
    (htokens : ∀ m, m < tokens.length → ts[first + m]? = tokens[m]?)
    (hclose : ts.quoteAt? (first + tokens.length) = some quote) {n left : Nat}
    (hleft : n + left = tokens.length) :
    RolesSuit root ts (first + n) ((Duty.restOfString n left).map (.duty path)) := by
  induction left generalizing n with
  | zero =>
    obtain rfl : n = tokens.length := hleft
    exact ⟨Role.suits_duty .closeQuote hpart (Nat.le_add_right_of_le hstart) hstop
      ⟨_, _, _, rfl, hclose⟩, trivial⟩
  | succ left ih =>
    have hlt : n < tokens.length := by omega
    have hn : first + n < span.stop := by omega
    exact ⟨Role.suits_duty (.captured n) hpart (Nat.le_add_right_of_le hstart) hn
      ⟨_, _, rfl, hlt, htokens n hlt⟩, ih (n := n + 1) (by omega)⟩

theorem allotted_string {start close : Nat} {quote : Quote}
    (hpart : root.at? path = some
      (.string ⟨start, close + 1⟩ (ts.extract (i + 1) close).toList)) (hi : i = ts.skipBlanks start)
    (hlt : i < close) (hquote : ts.quoteAt? i = some quote)
    (hclose : ts.quoteAt? close = some quote)
    (hopen : ∀ j, i < j → j < close → ts.quoteAt? j ≠ some quote) (opened : List Role) :
    Allotted root ts i (close + 1) opened opened
      [(path, .openQuote :: Duty.restOfString 0 (ts.extract (i + 1) close).toList.length)] := by
  have hstart : start ≤ i := hi ▸ ts.le_skipBlanks start
  have hsize := TokenStream.lt_size_of_quoteAt? hclose
  have hlength : (ts.extract (i + 1) close).toList.length = close - (i + 1) := by
    rw [Array.length_toList, Array.size_extract]
    omega
  have htokens (m : Nat) (hm : m < (ts.extract (i + 1) close).toList.length) :
      ts[i + 1 + m]? = (ts.extract (i + 1) close).toList[m]? := by
    rw [hlength] at hm
    rw [Array.getElem?_toList, Array.getElem?_extract, if_pos (by omega)]
  have hinside (token : Token) (htoken : token ∈ (ts.extract (i + 1) close).toList) :
      token.quote? ≠ some quote := by
    obtain ⟨m, hm⟩ := List.mem_iff_getElem?.mp htoken
    have hmlt := (List.getElem?_eq_some_iff.mp hm).1
    have hother := hopen (i + 1 + m) (by omega) (by omega)
    rwa [TokenStream.quoteAt?, htokens m hmlt, hm] at hother
  generalize (ts.extract (i + 1) close).toList = tokens at *
  have hend : i + 1 + tokens.length = close := by omega
  have hopens := Role.suits_duty .openQuote hpart hstart (Nat.lt_succ_of_lt hlt)
    ⟨_, _, quote, rfl, hi, hquote, by rwa [Nat.add_right_comm, hend], hinside⟩
  rw [← hend] at hclose
  have hrest := rolesSuit_restOfString hpart (Nat.le_succ_of_le hstart) (by dsimp only; omega)
    htokens hclose (Nat.zero_add _)
  refine allotted_piece (.run path _) ?_ ⟨hopens, hrest⟩ (track_restOfString path 0 _ opened)
  rw [Piece.roles, List.length_map, List.length_cons, length_restOfString]
  omega

/-- The two parentheses of a definition belong to it. -/
theorem rolesSuit_parameters (hpart : root.at? path = some part)
    (hkind : part.kind = .functionDefinition) (hstart : part.span.start ≤ i)
    (hstop : i + 2 ≤ part.span.stop) (hparameters : ts.hasParameters i = true) :
    RolesSuit root ts i [.duty path .openParameters, .duty path .closeParameters] := by
  obtain ⟨hopen, hclose⟩ := Bool.and_eq_true_iff.mp hparameters
  exact ⟨Role.suits_duty .openParameters hpart hstart (Nat.lt_of_succ_lt hstop) ⟨hkind, hopen⟩,
    Role.suits_duty .closeParameters hpart (Nat.le_succ_of_le hstart) hstop ⟨hkind, hclose⟩,
    trivial⟩

/-- A definition is given roles from its type or its name on. -/
theorem Allotted.named {start body : Nat} {name : String} {node : Node}
    (hpart : root.at? path = some (.namedFunction ⟨start, stop⟩ name node))
    (hi : i = ts.skipBlanks start) (hle : body ≤ stop)
    (hshows : (Opening.named name body).Shows ts i)
    (hbody : Allotted root ts body stop opened opened inventory) :
    Allotted root ts i stop opened opened
      ((path, [.name, .openParameters, .closeParameters]) :: inventory) := by
  have hstart : start ≤ i := hi ▸ ts.le_skipBlanks start
  obtain ⟨type, htype, hspace, hname, hparameters, rfl⟩ | ⟨hname, hparameters, rfl, -⟩ := hshows
  · have hnext := ts.le_skipBlanks (i + 5)
    have hresult := Role.suits_duty .resultType hpart hstart (by dsimp only [Node.span]; omega)
      ⟨_, _, _, _, rfl, htype⟩
    have hblank : Role.Suits root ts (i + 1) .blank := ⟨_, TokenStream.sees_iff.mp hspace, rfl⟩
    have hplace : ts.NamesAt start (i + 2) := .inr ⟨by rw [hi], hi ▸ hspace⟩
    have hdefined := Role.suits_duty .name hpart (by dsimp only [Node.span]; omega)
      (by dsimp only [Node.span]; omega) ⟨_, hname, .inr ⟨_, _, rfl, hplace⟩⟩
    have hlist := rolesSuit_parameters hpart rfl (by dsimp only [Node.span]; omega)
      (by dsimp only [Node.span]; omega) hparameters
    have hhead : Allotted root ts i (i + 5) opened opened _ :=
      allotted_piece (.typed path) rfl ⟨hresult, hblank, hdefined, hlist⟩ rfl
    exact hhead.append ((allotted_blanks ..).append hbody)
  · have hnext := ts.le_skipBlanks (i + 3)
    have hplace : ts.NamesAt start i := .inl ⟨hi, hi ▸ (Bool.and_eq_true_iff.mp hparameters).1⟩
    have hdefined := Role.suits_duty .name hpart hstart (by dsimp only [Node.span]; omega)
      ⟨_, hname, .inr ⟨_, _, rfl, hplace⟩⟩
    have hlist := rolesSuit_parameters hpart rfl (Nat.le_succ_of_le hstart)
      (by dsimp only [Node.span]; omega) hparameters
    have hhead : Allotted root ts i (i + 3) opened opened _ :=
      allotted_piece (.run path [.name, .openParameters, .closeParameters]) rfl
        ⟨hdefined, hlist⟩ rfl
    exact hhead.append ((allotted_blanks ..).append hbody)

theorem Allotted.inline {start body : Nat} {node : Node}
    (hpart : root.at? path = some (.inlineFunction ⟨start, stop⟩ node))
    (hi : i = ts.skipBlanks start) (hle : body ≤ stop) (hshows : (Opening.inline body).Shows ts i)
    (hbody : Allotted root ts body stop opened opened inventory) :
    Allotted root ts i stop opened opened
      ((path, [.type, .openParameters, .closeParameters]) ::
        (path, [.arrowStem, .arrowHead]) :: inventory) := by
  have hstart : start ≤ i := hi ▸ ts.le_skipBlanks start
  obtain ⟨type, htype, hparameters, hequal, harrow, rfl⟩ := hshows
  have hnext := ts.le_skipBlanks (i + 3)
  have hnext' := ts.le_skipBlanks (ts.skipBlanks (i + 3) + 2)
  have hdefined := Role.suits_duty .type hpart hstart (by dsimp only [Node.span]; omega)
    ⟨_, _, _, rfl, hi, htype⟩
  have hlist := rolesSuit_parameters hpart rfl (Nat.le_succ_of_le hstart)
    (by dsimp only [Node.span]; omega) hparameters
  have hhead : Allotted root ts i (i + 3) opened opened _ :=
    allotted_piece (.run path [.type, .openParameters, .closeParameters]) rfl ⟨hdefined, hlist⟩ rfl
  have hstem := Role.suits_duty .arrowStem hpart (by dsimp only [Node.span]; omega)
    (by dsimp only [Node.span]; omega) ⟨_, _, rfl, by rw [hi], hequal⟩
  have htip := Role.suits_duty .arrowHead hpart (by dsimp only [Node.span]; omega)
    (by dsimp only [Node.span]; omega) ⟨_, _, rfl, harrow⟩
  have hsign : Allotted root ts (ts.skipBlanks (i + 3)) (ts.skipBlanks (i + 3) + 2) opened opened
      _ := allotted_piece (.run path [.arrowStem, .arrowHead]) rfl ⟨hstem, htip, trivial⟩ rfl
  exact hhead.append ((allotted_blanks ..).append
    (hsign.append ((allotted_blanks ..).append hbody)))

end

mutual

/-- The tokens of a node can be given roles in every tree of which it is a part. -/
theorem Reads.allotted {root : Node} {ts : TokenStream} {start stop : Nat} {node : Node} :
    Reads ts start node stop → ∀ {path : List Nat}, root.at? path = some node →
      ∀ opened, Allotted root ts start stop opened opened (node.inventory path)
  | .empty _, path, hpart, opened => allotted_nil ..
  | .block hopening hlist, path, hpart, opened => by
    have hcurly := TokenStream.shows_of_opening_eq hopening
    have hskip := ts.le_skipBlanks start
    have hlt := hlist.start_lt
    have hopen := Role.suits_duty .opens hpart hskip (Nat.lt_of_succ_lt hlt)
      (.inl ⟨_, _, rfl, rfl, hcurly⟩)
    have hstatements := hlist.allotted hpart rfl (List.drop_zero) (Nat.le_succ_of_le hskip) rfl
      opened
    exact (allotted_blanks ..).append ((allotted_run hopen rfl).append hstatements)
  | .string hopening hlt hclose hopen, path, hpart, opened => by
    have hquote := TokenStream.shows_of_opening_eq hopening
    exact (allotted_blanks ..).append
      (allotted_string hpart rfl hlt hquote hclose hopen opened)
  | .named hopening hbody, path, hpart, opened => by
    have hinner := hbody.allotted (Node.at?_child (k := 0) hpart rfl) opened
    exact (allotted_blanks ..).append (hinner.named hpart rfl hbody.le
      (TokenStream.shows_of_opening_eq hopening))
  | .inline hopening hbody, path, hpart, opened => by
    have hinner := hbody.allotted (Node.at?_child (k := 0) hpart rfl) opened
    exact (allotted_blanks ..).append (hinner.inline hpart rfl hbody.le
      (TokenStream.shows_of_opening_eq hopening))
  | .call hopening hlist, path, hpart, opened => by
    have hskip := ts.le_skipBlanks start
    have hplace := TokenStream.lt_of_opening (congrArg Opening.place? hopening)
    have harguments := hlist.allotted hpart rfl (k := 1) rfl (by dsimp only [Node.span]; omega) rfl
      opened
    have hlt := hlist.start_lt
    obtain ⟨hword, hparen, rfl⟩ := TokenStream.shows_of_opening_eq hopening
    have hcallee := Node.at?_child (k := 0) hpart rfl
    have hname := Role.suits_duty .name hcallee (Nat.le_refl _) (Nat.lt_succ_self _)
      ⟨_, hword, .inl ⟨rfl, rfl⟩⟩
    have hunopened := (TokenStream.Unopened.refl ts (ts.skipBlanks start + 1)).skipBlanks
    have hopen := Role.suits_duty .opens hpart (Nat.le_of_lt_succ (Nat.lt_of_le_of_lt hskip hplace))
      (Nat.lt_of_succ_lt hlt) (.inr ⟨_, _, _, rfl, hunopened, hparen⟩)
    exact (allotted_blanks ..).append ((allotted_run hname rfl).append
      ((allotted_blanks ..).append ((allotted_run hopen rfl).append harguments)))
  | .word hopening, path, hpart, opened => by
    have hword := TokenStream.shows_of_opening_eq hopening
    have hname := Role.suits_duty .name hpart (ts.le_skipBlanks start) (Nat.lt_succ_self _)
      ⟨_, hword, .inl ⟨rfl, rfl⟩⟩
    exact (allotted_blanks ..).append (allotted_run hname rfl)
  | .grouping hopening hinner hclose _, path, hpart, opened => by
    have hparen := TokenStream.shows_of_opening_eq hopening
    exact (allotted_blanks ..).append ((hinner.allotted hpart _).grouped hparen hclose)
  | @Reads.groupingCall _ _ next _ _ _ hopening hinner hclose hcall hlist, path, hpart, opened => by
    have hparen := TokenStream.shows_of_opening_eq hopening
    have hskip := ts.le_skipBlanks start
    have hle := hinner.le_skipBlanks
    have hskip' := ts.le_skipBlanks (ts.skipBlanks next + 1)
    have hlt := hlist.start_lt
    have hunopened := (hinner.unopened.grouped hclose).skipBlanks
    have hcallee := hinner.allotted (Node.at?_child (k := 0) hpart rfl) (.openGroup :: opened)
    have hopen := Role.suits_duty .opens hpart (by dsimp only [Node.span]; omega)
      (Nat.lt_of_succ_lt hlt) (.inr ⟨_, _, _, rfl, hunopened, hcall⟩)
    have harguments := hlist.allotted hpart rfl (k := 1) rfl (by dsimp only [Node.span]; omega) rfl
      opened
    exact (allotted_blanks ..).append ((hcallee.grouped hparen hclose).append
      ((allotted_blanks ..).append ((allotted_run hopen rfl).append harguments)))

theorem ReadsList.allotted {root : Node} {ts : TokenStream} {delimiters : Delimiters}
    {i stop : Nat} {nodes : List Node} :
    ReadsList ts delimiters i nodes stop → ∀ {path : List Nat} {parent : Node} {k : Nat},
      root.at? path = some parent → parent.delimiters? = some delimiters →
      parent.children.drop k = nodes → parent.span.start ≤ i → stop = parent.span.stop →
      ∀ opened, Allotted root ts i stop (.duty path .opens :: opened) opened
        (Node.inventoryFrom path k nodes ++ [(path, [.closes])])
  | .close hclose, path, parent, k, hparent, hdelimiters, hchildren, hstart, hstop, opened => by
    have hskip := Nat.le_trans hstart (ts.le_skipBlanks i)
    have hcloses := Role.suits_duty .closes hparent hskip (Nat.lt_of_succ_le (Nat.le_of_eq hstop))
      ⟨hstop, _, hdelimiters, hclose⟩
    exact (allotted_blanks ..).append (allotted_closes hcloses)
  | .separator hseparator hrest, path, parent, k, hparent, hdelimiters, hchildren, hstart, hstop,
      opened => by
    have hskip := Nat.le_trans hstart (ts.le_skipBlanks i)
    have hlt := hrest.start_lt
    have hseparates := Role.suits_duty .separates hparent hskip (by omega)
      ⟨_, hdelimiters, hseparator⟩
    have hrest := hrest.allotted hparent hdelimiters hchildren (Nat.le_succ_of_le hskip) hstop
      opened
    exact (allotted_blanks ..).append ((allotted_separator hseparates).append hrest)
  | @ReadsList.item _ _ _ _ _ node nodes _ hnode _ hrest, path, parent, k, hparent, hdelimiters,
      hchildren, hstart, hstop, opened => by
    have hle := hnode.le_skipBlanks
    have hskip := ts.le_skipBlanks i
    -- The item is the child at `k`, and the rest of the list has the children behind it.
    have hchild : parent.children[k]? = some node := by
      rw [← List.head?_drop, hchildren]
      rfl
    have hlater : parent.children.drop (k + 1) = nodes := by
      rw [← List.tail_drop, hchildren]
      rfl
    have hitem := hnode.allotted (Node.at?_child hparent hchild) (.duty path .opens :: opened)
    have hrest := hrest.allotted hparent hdelimiters hlater (by omega) hstop opened
    rw [Node.inventoryFrom, List.append_assoc]
    exact (allotted_blanks ..).append (hitem.append ((allotted_blanks ..).append hrest))

end

end CurlyScript
