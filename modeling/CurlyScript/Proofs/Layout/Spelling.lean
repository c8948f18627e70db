import CurlyScript.Proofs.Layout.Placing
import CurlyScript.Proofs.Layout.Rendering

namespace CurlyScript

/-- A node may begin with this token, which is then neither a blank nor an end. -/
def Token.Starts : Token → Prop
  | .text _ => True
  | .symbol s => s = .openCurly ∨ s = .openParen ∨ s.quote?.isSome = true

/-- Wherever these tokens stand and then something ends, the grammar has the construct of the
    tree. -/
structure Spells (tokens : List Token) (tree : Tree) : Prop where
  starts : ∃ token ∈ tokens.head?, token.Starts
  reads : ∀ (ts : TokenStream) (start i stop : Nat), ts.skipBlanks start = i →
    ts.Holds i tokens → i + tokens.length = stop → ts.EndsAt stop →
      ∃ node, Reads ts start node stop ∧ node.unplaced = tree.node

/-- Wherever these tokens stand before the closing symbol of a list, the grammar has the items. -/
def SpellsList (delimiters : Delimiters) (tokens : List Token) (trees : List Tree) : Prop :=
  ∀ (ts : TokenStream) (i stop : Nat), ts.Holds i tokens → i + tokens.length = stop →
    ts.sees stop delimiters.closer = true →
      ∃ nodes, ReadsList ts delimiters i nodes (stop + 1) ∧
        Node.allUnplaced nodes = Tree.nodes trees

section

variable {ts : TokenStream} {i : Nat} {tokens gap : List Token} {tree : Tree}

theorem Token.Starts.isWhitespace {token : Token} (hstarts : token.Starts) :
    token.isWhitespace = false := by
  cases token with
  | text content => rfl
  | symbol s =>
    obtain rfl | rfl | hquote := hstarts
    · rfl
    · rfl
    · cases s <;> first | rfl | cases hquote

theorem Token.Starts.is_eq_false {token : Token} (hstarts : token.Starts) {s : Symbol}
    (hs : s ∈ [Symbol.semiColon, .closeCurly, .comma, .closeParen]) : token.is s = false := by
  rw [Bool.eq_false_iff, Ne, Token.is_iff]
  rintro rfl
  simp only [List.mem_cons, List.not_mem_nil, or_false] at hs
  obtain rfl | rfl | rfl | rfl := hs <;> simp [Token.Starts, Symbol.quote?] at hstarts

theorem Spells.exists_starts (hspells : Spells tokens tree) (hholds : ts.Holds i tokens) :
    ∃ token, ts[i]? = some token ∧ token.Starts := by
  obtain ⟨token, htoken, hstarts⟩ := hspells.starts
  obtain _ | ⟨first, rest⟩ := tokens
  · cases htoken
  · obtain rfl := Option.some.inj htoken
    exact ⟨_, hholds.1, hstarts⟩

theorem Spells.skipBlanks_eq (hspells : Spells tokens tree) (hholds : ts.Holds i tokens) :
    ts.skipBlanks i = i := by
  obtain ⟨token, htoken, hstarts⟩ := hspells.exists_starts hholds
  exact TokenStream.skipBlanks_eq_self htoken hstarts.isWhitespace

/-- Blanks end where something else stands. -/
theorem Blanks.skipBlanks_eq (hblank : Blanks gap) (hgap : ts.Holds i gap)
    (hnext : ts.skipBlanks (i + gap.length) = i + gap.length) :
    ts.skipBlanks i = i + gap.length := by
  rw [TokenStream.skipBlanks_of_holds hgap hblank, hnext]

/-- Behind the blanks stands the symbol, and then the rest. -/
theorem Blanks.sees_and_holds {s : Symbol} {rest : List Token} (hblank : Blanks gap)
    (hs : s.isWhitespace = false) (hholds : ts.Holds i (gap ++ .symbol s :: rest)) :
    ts.skipBlanks i = i + gap.length ∧ ts.sees (ts.skipBlanks i) s = true ∧
      ts.Holds (ts.skipBlanks i + 1) rest := by
  obtain ⟨hgap, hsymbol, hrest⟩ := TokenStream.holds_append.mp hholds
  have hsees := TokenStream.sees_iff.mpr hsymbol
  have hskip := hblank.skipBlanks_eq hgap (TokenStream.skipBlanks_of_sees hsees hs)
  rw [← hskip] at hsees hrest
  exact ⟨hskip, hsees, hrest⟩

theorem spells_identifier {name : String} (hname : isWord name = true) :
    Spells [.text name] (.identifier name) where
  starts := ⟨.text name, rfl, trivial⟩
  reads ts start i stop hstart hholds hstop hends := by
    subst hstart hstop
    have hword := TokenStream.wordAt?_of_holds hname hholds
    have hopening : ts.opening (ts.skipBlanks start) = .word name := by
      rw [TokenStream.opening_of_wordAt? hword]
      exact TokenStream.afterWord_of_stopsAt hends.stopsAt
    exact ⟨_, .word hopening, rfl⟩

/-- What stands in curly brackets is read as a block, whatever comes after it. -/
theorem SpellsList.exists_reads_block {start : Nat} {statements : List Tree}
    (hlist : SpellsList .statements tokens statements)
    (hholds : ts.Holds (ts.skipBlanks start)
      (.symbol .openCurly :: (tokens ++ [.symbol .closeCurly]))) :
    ∃ nodes, Node.allUnplaced nodes = Tree.nodes statements ∧
      Reads ts start (.block ⟨start, ts.skipBlanks start + 1 + tokens.length + 1⟩ nodes)
        (ts.skipBlanks start + 1 + tokens.length + 1) := by
  obtain ⟨hopen, hrest⟩ := hholds
  obtain ⟨htokens, hclose⟩ := TokenStream.holds_append.mp hrest
  have hopening := TokenStream.opening_of_openCurly (TokenStream.sees_iff.mpr hopen)
  obtain ⟨nodes, hnodes, hsame⟩ := hlist ts _ _ htokens rfl (TokenStream.sees_of_holds hclose)
  exact ⟨nodes, hsame, .block hopening hnodes⟩

theorem spells_block {statements : List Tree}
    (hlist : SpellsList .statements tokens statements) :
    Spells (.symbol .openCurly :: (tokens ++ [.symbol .closeCurly])) (.block statements) where
  starts := ⟨_, rfl, .inl rfl⟩
  reads ts start i stop hstart hholds hstop hends := by
    subst hstart
    obtain ⟨nodes, hsame, hreads⟩ := hlist.exists_reads_block hholds
    have hstop' : ts.skipBlanks start + 1 + tokens.length + 1 = stop := by
      simp only [List.length_cons, List.length_append, List.length_nil] at hstop
      omega
    rw [hstop'] at hreads
    refine ⟨_, hreads, ?_⟩
    rw [Node.unplaced, hsame, Tree.node]

/-- What stands in parentheses is read up to the closing one. -/
theorem Spells.exists_reads_grouped {before after rest : List Token} (hinner : Spells tokens tree)
    (hbefore : Blanks before) (hafter : Blanks after)
    (hholds : ts.Holds i (.symbol .openParen ::
      (before ++ (tokens ++ (after ++ .symbol .closeParen :: rest))))) :
    ts.opening i = .parenthesis ∧ ∃ node next, Reads ts (i + 1) node next ∧
      node.unplaced = tree.node ∧ ts.sees (ts.skipBlanks next) .closeParen = true ∧
      ts.skipBlanks next = i + 1 + before.length + tokens.length + after.length ∧
      ts.Holds (ts.skipBlanks next + 1) rest := by
  obtain ⟨hopen, hholds⟩ := hholds
  obtain ⟨hbeforeAt, hholds⟩ := TokenStream.holds_append.mp hholds
  obtain ⟨htokens, hholds⟩ := TokenStream.holds_append.mp hholds
  obtain ⟨hafterAt, hclose, hrest⟩ := TokenStream.holds_append.mp hholds
  have hsees := TokenStream.sees_iff.mpr hclose
  have hstart := hbefore.skipBlanks_eq hbeforeAt (hinner.skipBlanks_eq htokens)
  have hnext := hafter.skipBlanks_eq hafterAt (TokenStream.skipBlanks_of_sees hsees rfl)
  rw [← hnext] at hsees hrest
  refine ⟨TokenStream.opening_of_openParen (TokenStream.sees_iff.mpr hopen), ?_⟩
  obtain ⟨node, hreads, hsame⟩ :=
    hinner.reads ts _ _ _ hstart htokens rfl (.of_sees hsees (by decide))
  exact ⟨node, _, hreads, hsame, hsees, hnext, hrest⟩

theorem spells_grouped {before after : List Token} (hinner : Spells tokens tree)
    (hbefore : Blanks before) (hafter : Blanks after) :
    Spells (.symbol .openParen :: (before ++ (tokens ++ (after ++ [.symbol .closeParen]))))
      tree where
  starts := ⟨_, rfl, .inr (.inl rfl)⟩
  reads ts start i stop hstart hholds hstop hends := by
    subst hstart
    obtain ⟨hopening, node, next, hreads, hsame, hclose, hnext, -⟩ :=
      hinner.exists_reads_grouped hbefore hafter hholds
    have hstop' : ts.skipBlanks next + 1 = stop := by
      simp only [List.length_cons, List.length_append, List.length_nil] at hstop
      omega
    have hcall : ts.sees (ts.skipBlanks (ts.skipBlanks next + 1)) .openParen = false := by
      rw [hstop']
      exact hends.stopsAt.sees_eq_false (by decide)
    rw [← hstop']
    exact ⟨node, .grouping hopening hreads hclose hcall, hsame⟩

theorem spells_string {quote : Quote} {content : String}
    (hcontent : quote.char ∉ content.toList) :
    Spells (.symbol quote.symbol :: (tokenize content ++ [.symbol quote.symbol]))
      (.string quote content) where
  starts := ⟨_, rfl, .inr (.inr (by rw [quote.quote?_symbol]; rfl))⟩
  reads ts start i stop hstart hholds hstop hends := by
    subst hstart
    obtain ⟨hopen, hrest⟩ := hholds
    obtain ⟨htokens, hclose⟩ := TokenStream.holds_append.mp hrest
    have hquote := TokenStream.quoteAt?_eq_some_iff.mpr hopen
    have hinside (j : Nat) (hlow : ts.skipBlanks start < j)
        (hhigh : j < ts.skipBlanks start + 1 + (tokenize content).length) :
        ts.quoteAt? j ≠ some quote := by
      obtain ⟨token, htoken, hj⟩ := htokens.exists_mem hlow hhigh
      rw [TokenStream.quoteAt?, hj]
      exact quote?_ne_of_mem_tokenize hcontent token htoken
    have hstop' : ts.skipBlanks start + 1 + (tokenize content).length + 1 = stop := by
      simp only [List.length_cons, List.length_append, List.length_nil] at hstop
      omega
    rw [← hstop']
    refine ⟨_, .string (TokenStream.opening_of_quoteAt? hquote) (by omega)
      (TokenStream.quoteAt?_eq_some_iff.mpr hclose.1) hinside, ?_⟩
    rw [Node.unplaced, htokens.toList_extract, Tree.node]

/-- The arguments of a call stand in parentheses behind the blanks after its callee. -/
theorem SpellsList.exists_reads_arguments {arguments : List Tree} {stop : Nat}
    (hlist : SpellsList .arguments tokens arguments) (hgap : Blanks gap)
    (hholds : ts.Holds i (gap ++ .symbol .openParen :: (tokens ++ [.symbol .closeParen])))
    (hstop : i + gap.length + tokens.length + 2 = stop) :
    ts.sees (ts.skipBlanks i) .openParen = true ∧
      ∃ nodes, ReadsList ts .arguments (ts.skipBlanks i + 1) nodes stop ∧
        Node.allUnplaced nodes = Tree.nodes arguments := by
  obtain ⟨hskip, hopen, hrest⟩ := hgap.sees_and_holds rfl hholds
  obtain ⟨htokens, hclose⟩ := TokenStream.holds_append.mp hrest
  obtain ⟨nodes, hnodes, hsame⟩ := hlist ts _ _ htokens rfl (TokenStream.sees_of_holds hclose)
  have hstop' : ts.skipBlanks i + 1 + tokens.length + 1 = stop := by omega
  rw [hstop'] at hnodes
  exact ⟨hopen, nodes, hnodes, hsame⟩

theorem spells_call {name : String} {arguments : List Tree} (hname : isWord name = true)
    (hgap : Blanks gap) (hlist : SpellsList .arguments tokens arguments) :
    Spells (.text name :: (gap ++ .symbol .openParen :: (tokens ++ [.symbol .closeParen])))
      (.call (.identifier name) arguments) where
  starts := ⟨_, rfl, trivial⟩
  reads ts start i stop hstart hholds hstop hends := by
    subst hstart
    have hopening := TokenStream.opening_of_wordAt? (TokenStream.wordAt?_of_holds hname hholds)
    have hstop' : ts.skipBlanks start + 1 + gap.length + tokens.length + 2 = stop := by
      simp only [List.length_cons, List.length_append, List.length_nil] at hstop
      omega
    obtain ⟨hsees, nodes, hnodes, hsame⟩ := hlist.exists_reads_arguments hgap hholds.2 hstop'
    rw [TokenStream.afterWord_call hsees hnodes fun _ _ => hends.stopsAt.not_bodyAt] at hopening
    refine ⟨_, .call hopening hnodes, ?_⟩
    rw [Node.unplaced, hsame, Node.unplaced, Tree.node, Tree.node]

theorem spells_groupedCall {before inner after : List Token} {callee : Tree}
    {arguments : List Tree} (hinner : Spells inner callee) (hbefore : Blanks before)
    (hafter : Blanks after) (hgap : Blanks gap) (hlist : SpellsList .arguments tokens arguments) :
    Spells (.symbol .openParen :: (before ++ (inner ++ (after ++ .symbol .closeParen ::
      (gap ++ .symbol .openParen :: (tokens ++ [.symbol .closeParen]))))))
      (.call callee arguments) where
  starts := ⟨_, rfl, .inr (.inl rfl)⟩
  reads ts start i stop hstart hholds hstop hends := by
    subst hstart
    obtain ⟨hopening, node, next, hreads, hnode, hclose, hnext, hrest⟩ :=
      hinner.exists_reads_grouped hbefore hafter hholds
    have hstop' : ts.skipBlanks next + 1 + gap.length + tokens.length + 2 = stop := by
      simp only [List.length_cons, List.length_append, List.length_nil] at hstop
      omega
    obtain ⟨hsees, nodes, hnodes, hsame⟩ := hlist.exists_reads_arguments hgap hrest hstop'
    refine ⟨_, .groupingCall hopening hreads hclose hsees hnodes, ?_⟩
    rw [Node.unplaced, hsame, hnode, Tree.node]

/-- A body stands behind the blanks after its head. -/
theorem Spells.exists_reads_body {stop : Nat} (hbody : Spells tokens tree) (hgap : Blanks gap)
    (hholds : ts.Holds i (gap ++ tokens))
    (hstop : i + gap.length + tokens.length = stop) (hends : ts.EndsAt stop) :
    ∃ node, Reads ts (ts.skipBlanks i) node stop ∧ node.unplaced = tree.node := by
  obtain ⟨hgapAt, htokens⟩ := TokenStream.holds_append.mp hholds
  have hskip := hgap.skipBlanks_eq hgapAt (hbody.skipBlanks_eq htokens)
  have hstart : ts.skipBlanks (ts.skipBlanks i) = i + gap.length := by
    rw [ts.skipBlanks_skipBlanks, hskip]
  exact hbody.reads ts _ _ stop hstart htokens hstop hends

theorem spells_typed {type name : String} (htype : isWord type = true) (hname : isWord name = true)
    (hgap : Blanks gap) (hbody : Spells tokens tree) :
    Spells (.text type :: .symbol .space :: .text name :: .symbol .openParen ::
      .symbol .closeParen :: (gap ++ tokens)) (.named type name tree) where
  starts := ⟨_, rfl, trivial⟩
  reads ts start i stop hstart hholds hstop hends := by
    subst hstart
    have hopening := TokenStream.opening_of_wordAt? (TokenStream.wordAt?_of_holds htype hholds)
    rw [TokenStream.afterWord_typed (TokenStream.sees_of_holds hholds.2)
      (TokenStream.wordAt?_of_holds hname hholds.2.2)
      (TokenStream.hasParameters_of_holds hholds.2.2.2)] at hopening
    have hstop' : ts.skipBlanks start + 5 + gap.length + tokens.length = stop := by
      simp only [List.length_cons, List.length_append] at hstop
      omega
    obtain ⟨node, hreads, hsame⟩ :=
      hbody.exists_reads_body hgap hholds.2.2.2.2.2 hstop' hends
    refine ⟨_, .named hopening hreads, ?_⟩
    rw [Node.unplaced, hsame, Tree.node]

theorem spells_untyped {type name : String} {statements : List Tree}
    (hname : isWord name = true) (hgap : Blanks gap)
    (hlist : SpellsList .statements tokens statements) :
    Spells (.text name :: .symbol .openParen :: .symbol .closeParen ::
      (gap ++ .symbol .openCurly :: (tokens ++ [.symbol .closeCurly])))
      (.named type name (.block statements)) where
  starts := ⟨_, rfl, trivial⟩
  reads ts start i stop hstart hholds hstop hends := by
    subst hstart
    have hbody := spells_block hlist
    have hopening := TokenStream.opening_of_wordAt? (TokenStream.wordAt?_of_holds hname hholds)
    obtain ⟨-, hsees, -⟩ := hgap.sees_and_holds rfl hholds.2.2.2
    have hparameters := TokenStream.hasParameters_of_holds hholds.2
    rw [TokenStream.afterWord_untyped hparameters hsees] at hopening
    have hstop' : ts.skipBlanks start + 3 + gap.length +
        (.symbol .openCurly :: (tokens ++ [Token.symbol .closeCurly])).length = stop := by
      simp only [List.length_cons, List.length_append, List.length_nil] at hstop ⊢
      omega
    obtain ⟨node, hreads, hsame⟩ := hbody.exists_reads_body hgap hholds.2.2.2 hstop' hends
    refine ⟨_, .named hopening hreads, ?_⟩
    simp only [Node.unplaced, hsame, Tree.node]

theorem spells_inline {type : String} {before after : List Token} (htype : isWord type = true)
    (hbefore : Blanks before) (hafter : Blanks after) (hbody : Spells tokens tree) :
    Spells (.text type :: .symbol .openParen :: .symbol .closeParen ::
      (before ++ .symbol .equal :: .symbol .rightChevron :: (after ++ tokens)))
      (.inline type tree) where
  starts := ⟨_, rfl, trivial⟩
  reads ts start i stop hstart hholds hstop hends := by
    subst hstart
    have hopening := TokenStream.opening_of_wordAt? (TokenStream.wordAt?_of_holds htype hholds)
    obtain ⟨hskip, hequal, harrow, hrest⟩ := hbefore.sees_and_holds rfl hholds.2.2.2
    rw [TokenStream.afterWord_inline (TokenStream.hasParameters_of_holds hholds.2) hequal
      (TokenStream.sees_iff.mpr harrow)] at hopening
    have hplace : ts.skipBlanks (ts.skipBlanks start + 1 + 2) =
        ts.skipBlanks start + 3 + before.length := hskip
    have hstop' : ts.skipBlanks (ts.skipBlanks start + 1 + 2) + 2 + after.length + tokens.length =
        stop := by
      simp only [List.length_cons, List.length_append] at hstop
      omega
    obtain ⟨node, hreads, hsame⟩ := hbody.exists_reads_body hafter hrest hstop' hends
    refine ⟨_, .inline hopening hreads, ?_⟩
    rw [Node.unplaced, hsame, Tree.node]

variable {delimiters : Delimiters} {trees : List Tree} (husual : delimiters.Usual)

include husual

theorem spellsList_blank (hgap : Blanks gap) : SpellsList delimiters gap [] := by
  intro ts i stop hholds hstop hclose
  subst hstop
  have hskip := hgap.skipBlanks_eq hholds
    (husual.skipBlanks_eq (Delimiters.seenAt_of_closer hclose))
  rw [← hskip] at hclose ⊢
  exact ⟨[], .close hclose, rfl⟩

theorem spellsList_separator (hgap : Blanks gap) (hrest : SpellsList delimiters tokens trees) :
    SpellsList delimiters (gap ++ .symbol delimiters.separator :: tokens) trees := by
  intro ts i stop hholds hstop hclose
  obtain ⟨hskip, hsees, htokens⟩ := hgap.sees_and_holds husual.isWhitespace_separator hholds
  have hstop' : ts.skipBlanks i + 1 + tokens.length = stop := by
    simp only [List.length_cons, List.length_append] at hstop
    omega
  obtain ⟨nodes, hnodes, hsame⟩ := hrest ts _ stop htokens hstop' hclose
  exact ⟨nodes, .separator hsees hnodes, hsame⟩

/-- An item is read up to what comes after it, and from there on the rest of the list is read. -/
theorem Spells.exists_reads_item {before after : List Token}
    (hbefore : Blanks before) (htree : Spells tokens tree) (hafter : Blanks after)
    (hholds : ts.Holds i (before ++ (tokens ++ after)))
    (hend : delimiters.seenAt ts (i + before.length + tokens.length + after.length) = true) :
    ∃ node next, node.unplaced = tree.node ∧
      ts.skipBlanks next = i + before.length + tokens.length + after.length ∧
      ∀ nodes stop, ReadsList ts delimiters (ts.skipBlanks next) nodes stop →
        ReadsList ts delimiters i (node :: nodes) stop := by
  obtain ⟨hbeforeAt, hholds⟩ := TokenStream.holds_append.mp hholds
  obtain ⟨htokens, hafterAt⟩ := TokenStream.holds_append.mp hholds
  have hnext := hafter.skipBlanks_eq hafterAt (husual.skipBlanks_eq hend)
  have hskip := hbefore.skipBlanks_eq hbeforeAt (htree.skipBlanks_eq htokens)
  have hends : ts.EndsAt (i + before.length + tokens.length) := by
    rw [TokenStream.EndsAt, hnext]
    obtain rfl | rfl := husual
    · exact .inl hend
    · exact .inr hend
  have hstart : delimiters.seenAt ts (ts.skipBlanks i) = false := by
    obtain ⟨token, htoken, hstarts⟩ := htree.exists_starts htokens
    have hsees (s : Symbol) : ts.sees (ts.skipBlanks i) s = token.is s := by
      rw [hskip, TokenStream.sees, htoken]
      rfl
    rw [Delimiters.seenAt_eq_false_iff, hsees, hsees]
    exact ⟨hstarts.is_eq_false husual.mem.1, hstarts.is_eq_false husual.mem.2⟩
  obtain ⟨node, hreads, hsame⟩ := htree.reads ts (ts.skipBlanks i) _ _
    (by rw [ts.skipBlanks_skipBlanks, hskip]) htokens rfl hends
  rw [← hnext] at hend
  exact ⟨node, _, hsame, hnext, fun nodes stop hrest => .item hstart hreads hend hrest⟩

theorem spellsList_last {before after : List Token}
    (hbefore : Blanks before) (htree : Spells tokens tree) (hafter : Blanks after) :
    SpellsList delimiters (before ++ (tokens ++ after)) [tree] := by
  intro ts i stop hholds hstop hclose
  have hstop' : i + before.length + tokens.length + after.length = stop := by
    simp only [List.length_append] at hstop
    omega
  rw [← hstop'] at hclose ⊢
  obtain ⟨node, next, hsame, hnext, hitem⟩ := htree.exists_reads_item husual hbefore hafter hholds
    (Delimiters.seenAt_of_closer hclose)
  rw [← hnext] at hclose ⊢
  have hlast : ReadsList ts delimiters next [] (ts.skipBlanks next + 1) := .close hclose
  refine ⟨[node], hitem _ _ (hlast.of_skipBlanks_eq (ts.skipBlanks_skipBlanks next)), ?_⟩
  rw [Node.allUnplaced, hsame]
  rfl

theorem spellsList_item {before after rest : List Token}
    (hbefore : Blanks before) (htree : Spells tokens tree) (hafter : Blanks after)
    (hrest : SpellsList delimiters rest trees) :
    SpellsList delimiters
      (before ++ (tokens ++ (after ++ .symbol delimiters.separator :: rest))) (tree :: trees) := by
  intro ts i stop hholds hstop hclose
  have hsplit : before ++ (tokens ++ (after ++ .symbol delimiters.separator :: rest)) =
      before ++ (tokens ++ after) ++ .symbol delimiters.separator :: rest := by
    simp only [List.append_assoc]
  rw [hsplit] at hholds hstop
  obtain ⟨hitemAt, hseparator, hrestAt⟩ := TokenStream.holds_append.mp hholds
  have hlength : i + (before ++ (tokens ++ after)).length =
      i + before.length + tokens.length + after.length := by
    simp only [List.length_append]
    omega
  rw [hlength] at hseparator hrestAt
  have hsees := TokenStream.sees_iff.mpr hseparator
  obtain ⟨node, next, hsame, hnext, hitem⟩ := htree.exists_reads_item husual hbefore hafter hitemAt
    (Delimiters.seenAt_of_separator hsees)
  rw [← hnext] at hsees hrestAt
  have hstop' : ts.skipBlanks next + 1 + rest.length = stop := by
    rw [List.length_append, List.length_cons] at hstop
    omega
  obtain ⟨nodes, hnodes, hsame'⟩ := hrest ts _ stop hrestAt hstop' hclose
  have hlist : ReadsList ts delimiters next nodes (stop + 1) := .separator hsees hnodes
  refine ⟨node :: nodes, hitem _ _ (hlist.of_skipBlanks_eq (ts.skipBlanks_skipBlanks next)), ?_⟩
  rw [Node.allUnplaced, hsame, hsame']
  rfl

end

end CurlyScript
