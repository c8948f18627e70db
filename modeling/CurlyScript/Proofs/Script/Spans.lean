import CurlyScript.Proofs.Grammar.Parts
import CurlyScript.Proofs.Layout.Lexing
import CurlyScript.Proofs.Script.Outcome

namespace CurlyScript

namespace Node

/-- One construct ends before another begins, with at least a token between them. -/
def Before (node next : Node) : Prop :=
  node.span.stop < next.span.start

/-- The tokens at the two ends of a span are those of the construct. Blanks may come first. The
    ends of a function definition are left to the tokens of its type and to its body. -/
def Marked (ts : TokenStream) : Node → Prop
  | .empty _ => False
  | .block span _ => ts.sees (ts.skipBlanks span.start) .openCurly = true ∧
      ts.sees (span.stop - 1) .closeCurly = true
  | .string span _ => ∃ quote, ts.quoteAt? (ts.skipBlanks span.start) = some quote ∧
      ts.skipBlanks span.start < span.stop - 1 ∧ ts.quoteAt? (span.stop - 1) = some quote
  | .identifier span name => ts.wordAt? (ts.skipBlanks span.start) = some name ∧
      ts.wordAt? (span.stop - 1) = some name
  | .execution span _ _ => ts.sees (span.stop - 1) .closeParen = true
  | .namedFunction _ _ _ => True
  | .inlineFunction _ _ => True

/-- The span of a construct fits the tokens and the spans of its children. Only a callee may begin
    where its call does, and only the body of a function may end where the function does. -/
structure WellSpanned (ts : TokenStream) (node : Node) : Prop where
  start_lt_stop : node.span.start < node.span.stop
  stop_le_size : node.span.stop ≤ ts.size
  starts : ∀ k child, node.children[k]? = some child → node.span.start < child.span.start ∨
    node.kind = .execution ∧ k = 0 ∧ node.span.start ≤ child.span.start
  stops : ∀ child ∈ node.children, child.span.stop ≤ node.span.stop ∧
    (node.kind = .block ∨ node.kind = .execution → child.span.stop < node.span.stop)
  apart : node.children.IsChain Before
  marked : node.Marked ts

/-- Constructs that stand one after the other between two indices. -/
structure InRow (low high : Nat) (nodes : List Node) : Prop where
  low_le : ∀ node ∈ nodes, low ≤ node.span.start
  lt_high : ∀ node ∈ nodes, node.span.stop < high
  apart : nodes.IsChain Before

variable {low low' high : Nat} {node : Node} {nodes : List Node}

theorem InRow.nil (low high : Nat) : InRow low high [] :=
  ⟨List.forall_mem_nil _, List.forall_mem_nil _, .nil⟩

theorem InRow.mono (hrow : InRow low high nodes) (hle : low' ≤ low) : InRow low' high nodes :=
  ⟨fun node hnode => Nat.le_trans hle (hrow.low_le node hnode), hrow.lt_high, hrow.apart⟩

theorem InRow.cons (hrow : InRow low high nodes) (hlow : low' ≤ node.span.start)
    (hbefore : node.span.stop < low) (hle : low' ≤ low) (hhigh : low ≤ high) :
    InRow low' high (node :: nodes) where
  low_le := List.forall_mem_cons.mpr ⟨hlow, (hrow.mono hle).low_le⟩
  lt_high := List.forall_mem_cons.mpr ⟨Nat.lt_of_lt_of_le hbefore hhigh, hrow.lt_high⟩
  apart := hrow.apart.cons fun next hnext =>
    Nat.lt_of_lt_of_le hbefore (hrow.low_le next (List.mem_of_mem_head? hnext))

end Node

variable {ts : TokenStream}

/-- The items of a list stand one after the other, each with a separator between it and the next:
    a list that goes on with a separator has no item there. -/
theorem ReadsList.inRow {delimiters : Delimiters} {i stop : Nat} {nodes : List Node} :
    ReadsList ts delimiters i nodes stop → delimiters.Usual →
      Node.InRow (ts.skipBlanks i) stop nodes ∧
        (delimiters.seenAt ts (ts.skipBlanks i) = true →
          Node.InRow (ts.skipBlanks i + 1) stop nodes)
  | .separator _ hrest, husual => by
    have hskip := ts.le_skipBlanks (ts.skipBlanks i + 1)
    have hrow := (hrest.inRow husual).1
    exact ⟨hrow.mono (by omega), fun _ => hrow.mono hskip⟩
  | @ReadsList.item _ _ _ next _ node rest hstart hnode hend hrest, husual => by
    have hskip := ts.le_skipBlanks next
    have hbegin := (hnode.span_bounds (hnode.solid_of_seenAt hend).kind_ne).1
    have hle := hnode.unopened.1
    have hmoved := hnode.le
    have hafter := hrest.start_lt
    have hrow := (hrest.inRow husual).2
    rw [ts.skipBlanks_skipBlanks] at hrow
    refine ⟨(hrow hend).cons hbegin (by omega) (by omega) hafter, fun hseen => ?_⟩
    rw [hstart] at hseen
    cases hseen
  | .close _, _ => ⟨.nil .., fun _ => .nil ..⟩

namespace Node

variable {start place stop : Nat} {callee body : Node} {statements arguments : List Node}

theorem wellSpanned_leaf {node : Node} (hlt : node.span.start < node.span.stop)
    (hsize : node.span.stop ≤ ts.size) (hleaf : node.children = []) (hmarked : node.Marked ts) :
    node.WellSpanned ts where
  start_lt_stop := hlt
  stop_le_size := hsize
  starts k child hchild := by
    rw [hleaf] at hchild
    cases hchild
  stops := by
    rw [hleaf]
    exact List.forall_mem_nil _
  apart := by
    rw [hleaf]
    exact .nil
  marked := hmarked

theorem wellSpanned_block (hopen : ts.sees (ts.skipBlanks start) .openCurly = true)
    (hlist : ReadsList ts .statements (ts.skipBlanks start + 1) statements stop) :
    (Node.block ⟨start, stop⟩ statements).WellSpanned ts := by
  have hskip := ts.le_skipBlanks start
  have hskip' := ts.le_skipBlanks (ts.skipBlanks start + 1)
  have hlt : start < stop := by
    have hafter := hlist.start_lt
    omega
  have hrow : InRow (start + 1) stop statements := (hlist.inRow (.inl rfl)).1.mono (by omega)
  exact {
    start_lt_stop := hlt
    stop_le_size := hlist.stop_le_size
    starts := fun k child hchild => .inl (hrow.low_le child (List.mem_of_getElem? hchild))
    stops := fun child hchild =>
      ⟨Nat.le_of_lt (hrow.lt_high child hchild), fun _ => hrow.lt_high child hchild⟩
    apart := hrow.apart
    marked := ⟨hopen, hlist.sees_closer⟩ }

theorem wellSpanned_execution (hstart : start ≤ callee.span.start)
    (hcallee : callee.span.start < callee.span.stop) (hbefore : callee.span.stop < place)
    (hlist : ReadsList ts .arguments place arguments stop) :
    (Node.execution ⟨start, stop⟩ callee arguments).WellSpanned ts := by
  have hafter := hlist.start_lt
  have harguments := (hlist.inRow (.inr rfl)).1.mono (ts.le_skipBlanks place)
  have hrow := harguments.cons (Nat.le_refl callee.span.start) hbefore (by omega) (by omega)
  exact {
    start_lt_stop := (by omega : start < stop)
    stop_le_size := hlist.stop_le_size
    starts := fun k child hchild => by
      cases k with
      | zero =>
        obtain rfl := Option.some.inj hchild
        exact .inr ⟨rfl, rfl, hstart⟩
      | succ k =>
        have hlow : start < child.span.start := by
          have hplace := harguments.low_le child (List.mem_of_getElem? hchild)
          omega
        exact .inl hlow
    stops := fun child hchild =>
      ⟨Nat.le_of_lt (hrow.lt_high child hchild), fun _ => hrow.lt_high child hchild⟩
    apart := hrow.apart
    marked := hlist.sees_closer }

/-- The body of a function is all that there is of it in the tree. -/
theorem wellSpanned_function {node : Node} (hfunction : node.kind = .functionDefinition)
    (hbody : node.body? = some body) (hsize : node.span.stop ≤ ts.size)
    (hstart : node.span.start < body.span.start) (hlt : body.span.start < body.span.stop)
    (hstop : body.span.stop ≤ node.span.stop) : node.WellSpanned ts := by
  have hchildren := children_of_body? hbody
  have hmarked : node.Marked ts := by
    cases node <;> cases hfunction <;> trivial
  exact {
    start_lt_stop := by omega
    stop_le_size := hsize
    starts := fun k child hchild => by
      have hmem := List.mem_of_getElem? hchild
      rw [hchildren, List.mem_singleton] at hmem
      exact .inl (hmem ▸ hstart)
    stops := by
      rw [hchildren, List.forall_mem_singleton, hfunction]
      exact ⟨hstop, nofun⟩
    apart := by
      rw [hchildren]
      exact .singleton _
    marked := hmarked }

end Node

theorem lt_span_of_place {start place stop : Nat} {body : Node}
    (hplace : (ts.opening (ts.skipBlanks start)).place? = some place)
    (hbody : Reads ts place body stop) (hsolid : body.Solid) : start < body.span.start :=
  Nat.lt_of_lt_of_le (hbody.place_bounds hplace hsolid).1 (hbody.span_bounds hsolid.kind_ne).1

/-- The spans in a function fit if they do in its body, which was read where the opening says. -/
theorem Reads.everywhere_function {start place stop : Nat} {node body : Node}
    (hbody : Reads ts place body stop)
    (hplace : (ts.opening (ts.skipBlanks start)).place? = some place)
    (hfunction : node.kind = .functionDefinition) (hnode : node.body? = some body)
    (hspan : node.span = ⟨start, stop⟩) (hle : stop ≤ ts.size) (hsolid : body.Solid)
    (hinner : body.Everywhere (·.WellSpanned ts)) : node.Everywhere (·.WellSpanned ts) := by
  have hstart : node.span.start < body.span.start := by
    rw [hspan]
    exact lt_span_of_place hplace hbody hsolid
  have hstop : node.span.stop = stop := by rw [hspan]
  have hwell : node.WellSpanned ts :=
    Node.wellSpanned_function hfunction hnode (hstop ▸ hle) hstart
      (hbody.span_bounds hsolid.kind_ne).2 (hstop ▸ hbody.unopened.1)
  refine Node.everywhere_iff.mpr ⟨hwell, ?_⟩
  rw [Node.children_of_body? hnode]
  exact List.forall_mem_singleton.mpr hinner

mutual

/-- Wherever a node was read, all spans in it fit. -/
theorem Reads.wellSpanned {start stop : Nat} {node : Node} :
    Reads ts start node stop → stop ≤ ts.size → node.Solid → node.Everywhere (·.WellSpanned ts)
  | .empty _, _, hsolid => absurd rfl hsolid.kind_ne
  | .block hopening hlist, _, _ => Node.everywhere_iff.mpr
      ⟨Node.wellSpanned_block (TokenStream.shows_of_opening_eq hopening) hlist,
        hlist.wellSpanned (.inl rfl)⟩
  | @Reads.string _ start close quote hopening hlt hclose hopen, hle, _ => by
    have hskip := ts.le_skipBlanks start
    refine Node.everywhere_iff.mpr ⟨Node.wellSpanned_leaf ?_ hle rfl ?_, List.forall_mem_nil _⟩
    · simp only [Node.span]
      omega
    · exact ⟨quote, TokenStream.shows_of_opening_eq hopening, hlt, hclose⟩
  | .named hopening hbody, hle, hsolid => by
    have hinner := hsolid.child (List.mem_singleton_self _)
    exact hbody.everywhere_function (congrArg Opening.place? hopening) rfl rfl rfl hle hinner
      (hbody.wellSpanned hle hinner)
  | .inline hopening hbody, hle, hsolid => by
    have hinner := hsolid.child (List.mem_singleton_self _)
    exact hbody.everywhere_function (congrArg Opening.place? hopening) rfl rfl rfl hle hinner
      (hbody.wellSpanned hle hinner)
  | @Reads.call _ start _ _ name _ hopening hlist, _, _ => by
    obtain ⟨hword, -, hplace⟩ := TokenStream.shows_of_opening_eq hopening
    have hskip := ts.le_skipBlanks (ts.skipBlanks start + 1)
    have hcallee : (Node.identifier ⟨ts.skipBlanks start, ts.skipBlanks start + 1⟩
        name).WellSpanned ts := by
      refine Node.wellSpanned_leaf (Nat.lt_succ_self _) (TokenStream.lt_size_of_wordAt? hword) rfl
        ⟨?_, hword⟩
      rw [ts.skipBlanks_skipBlanks]
      exact hword
    have hcall := Node.wellSpanned_execution (ts.le_skipBlanks start) hcallee.start_lt_stop
      (hplace ▸ Nat.lt_succ_of_le hskip) hlist
    exact Node.everywhere_iff.mpr ⟨hcall, List.forall_mem_cons.mpr
      ⟨Node.everywhere_iff.mpr ⟨hcallee, List.forall_mem_nil _⟩, hlist.wellSpanned (.inr rfl)⟩⟩
  | @Reads.word _ start _ hopening, hle, _ => by
    have hword := TokenStream.shows_of_opening_eq hopening
    exact Node.everywhere_iff.mpr ⟨Node.wellSpanned_leaf
      (Nat.lt_succ_of_le (ts.le_skipBlanks start)) hle rfl ⟨hword, hword⟩, List.forall_mem_nil _⟩
  | @Reads.grouping _ _ next _ _ hinner hclose _, _, hsolid => by
    have hskip := ts.le_skipBlanks next
    have hlt := TokenStream.lt_size_of_sees hclose
    exact hinner.wellSpanned (by omega) hsolid
  | @Reads.groupingCall _ start next stop callee arguments _ hinner hclose _ hlist, _, hsolid => by
    have hskip := ts.le_skipBlanks start
    have hskip₂ := ts.le_skipBlanks next
    have hskip₃ := ts.le_skipBlanks (ts.skipBlanks next + 1)
    have hlt := TokenStream.lt_size_of_sees hclose
    have hsolid' := hsolid.child (List.mem_cons_self ..)
    have hbounds := hinner.span_bounds hsolid'.kind_ne
    have hle := hinner.unopened.1
    have hcall : (Node.execution ⟨start, stop⟩ callee arguments).WellSpanned ts :=
      Node.wellSpanned_execution (by omega) hbounds.2 (by omega) hlist
    exact Node.everywhere_iff.mpr ⟨hcall, List.forall_mem_cons.mpr
      ⟨hinner.wellSpanned (by omega) hsolid', hlist.wellSpanned (.inr rfl)⟩⟩

theorem ReadsList.wellSpanned {delimiters : Delimiters} {i stop : Nat} {nodes : List Node} :
    ReadsList ts delimiters i nodes stop → delimiters.Usual →
      ∀ node ∈ nodes, node.Everywhere (·.WellSpanned ts)
  | .close _, _ => List.forall_mem_nil _
  | .separator _ hrest, husual => hrest.wellSpanned husual
  | @ReadsList.item _ _ _ next _ _ _ _ hnode hend hrest, husual => by
    have hlt := Nat.lt_of_le_of_lt (ts.le_skipBlanks next) (Delimiters.lt_size_of_seenAt hend)
    exact List.forall_mem_cons.mpr ⟨hnode.wellSpanned (Nat.le_of_lt hlt)
      (hnode.solid_of_seenAt hend), hrest.wellSpanned husual⟩

end

namespace Script

variable {limit : Nat} {source : String} {script : Script}

/-- The outermost block of a script has all tokens. -/
theorem exists_statements_of_parse_ok (hne : tokenize source ≠ [])
    (hok : Script.parse limit source = .ok script) :
    ∃ statements, script.root = .block ⟨0, script.tokens.size⟩ statements ∧
      ReadsList script.tokens .statements (script.tokens.skipBlanks 0 + 1) statements
        script.tokens.size := by
  obtain ⟨htokens, hreads⟩ := reads_of_parse_ok hne hok
  apply hreads.exists_statements
  rw [htokens, skipBlanks_enclose]
  exact TokenStream.opening_of_openCurly rfl

/-- The bracket that ends the outermost block keeps every other part before the end of the input. -/
theorem solid_of_parse_ok (hne : tokenize source ≠ [])
    (hok : Script.parse limit source = .ok script) : script.root.Solid := by
  obtain ⟨statements, hroot, hlist⟩ := exists_statements_of_parse_ok hne hok
  rw [hroot]
  exact Node.everywhere_iff.mpr ⟨nofun, hlist.solid⟩

/-- In a script every span fits the tokens and the spans around it and in it. The outermost block
    has them all. -/
theorem parse_ok_spans (hne : source ≠ "") (hok : Script.parse limit source = .ok script) :
    script.tokens = enclose (tokenize source) ∧
      (∃ statements, script.root = .block ⟨0, script.tokens.size⟩ statements) ∧
      script.root.Everywhere (·.WellSpanned script.tokens) := by
  have hne' : tokenize source ≠ [] := mt tokenize_eq_nil_iff.mp hne
  obtain ⟨htokens, hreads⟩ := reads_of_parse_ok hne' hok
  obtain ⟨statements, hroot, -⟩ := exists_statements_of_parse_ok hne' hok
  exact ⟨htokens, ⟨statements, hroot⟩,
    hreads.wellSpanned (Nat.le_refl _) (solid_of_parse_ok hne' hok)⟩

/-- Parentheses that only group are not in the span of what they group. -/
theorem parse_ok_spans_grouped :
    let tokens : TokenStream := enclose [.symbol .openParen, .text "a", .symbol .closeParen]
    ("(a)" ≠ "" ∧ Script.parse 4 "(a)" =
      .ok ⟨tokens, .block ⟨0, 5⟩ [.identifier ⟨2, 3⟩ "a"]⟩) ∧
      (Node.identifier ⟨2, 3⟩ "a").WellSpanned tokens := by
  intro tokens
  have hne : "(a)" ≠ "" := by decide
  have hok : Script.parse 4 "(a)" =
      .ok ⟨tokens, .block ⟨0, 5⟩ [.identifier ⟨2, 3⟩ "a"]⟩ := by cbv
  obtain ⟨-, -, hspans⟩ := parse_ok_spans hne hok
  exact ⟨⟨hne, hok⟩, hspans [0] _ rfl⟩

end Script

end CurlyScript
