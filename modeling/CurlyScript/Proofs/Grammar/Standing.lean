import CurlyScript.Proofs.Grammar.Parts

namespace CurlyScript

/-- A construct is what is read at its span. A name is exempt, since more may be read at its place
    when it is called, and so is what is missing, which has no place of its own. -/
def Node.Stands (ts : TokenStream) (node : Node) : Prop :=
  node.kind ≠ .empty → node.kind ≠ .identifier → Reads ts node.span.start node node.span.stop

/-- A construct is the name at an index and nothing more. -/
def Node.NamedAt (ts : TokenStream) (i : Nat) (node : Node) : Prop :=
  ∃ name, ts.wordAt? i = some name ∧ node = .identifier ⟨i, i + 1⟩ name

/-- A construct is what the parentheses hold that open at an index. -/
def Node.Parenthesised (ts : TokenStream) (i : Nat) (node : Node) : Prop :=
  ts.sees i .openParen = true ∧ ∃ next, Reads ts (i + 1) node next ∧
    ts.sees (ts.skipBlanks next) .closeParen = true

/-- Only a name or what is put in parentheses is called. -/
def Node.CallsProperly (ts : TokenStream) : Node → Prop
  | .execution span callee _ =>
    callee.NamedAt ts (ts.skipBlanks span.start) ∨
      callee.Parenthesised ts (ts.skipBlanks span.start)
  | _ => True

variable {ts : TokenStream}

/-- The parentheses around a construct are not in its span. -/
theorem Reads.stands {start stop : Nat} {node : Node} : Reads ts start node stop → node.Stands ts
  | .grouping _ hinner _ _ => hinner.stands
  | .empty _ => fun hkind => absurd rfl hkind
  | .word _ => fun _ hkind => absurd rfl hkind
  | hreads@(.block _ _) | hreads@(.string _ _ _ _) | hreads@(.named _ _) | hreads@(.inline _ _)
  | hreads@(.call _ _) | hreads@(.groupingCall _ _ _ _ _) => fun _ _ => hreads

mutual

/-- Whatever is nested in what is read is read where it stands, too. -/
theorem Reads.all_stand {start stop : Nat} {node : Node} :
    Reads ts start node stop → node.Everywhere (·.Stands ts)
  | .grouping _ hinner _ _ => hinner.all_stand
  | hreads@(.empty _) | hreads@(.string _ _ _ _) | hreads@(.word _) =>
    Node.everywhere_iff.mpr ⟨hreads.stands, List.forall_mem_nil _⟩
  | hreads@(.named _ hbody) | hreads@(.inline _ hbody) =>
    Node.everywhere_iff.mpr ⟨hreads.stands, List.forall_mem_singleton.mpr hbody.all_stand⟩
  | hreads@(.block _ hlist) => Node.everywhere_iff.mpr ⟨hreads.stands, hlist.all_stand⟩
  | hreads@(.call _ hlist) =>
    have hcallee := Node.everywhere_iff.mpr
      ⟨fun _ hkind => absurd rfl hkind, List.forall_mem_nil _⟩
    Node.everywhere_iff.mpr ⟨hreads.stands, List.forall_mem_cons.mpr ⟨hcallee, hlist.all_stand⟩⟩
  | hreads@(.groupingCall _ hinner _ _ hlist) => Node.everywhere_iff.mpr
      ⟨hreads.stands, List.forall_mem_cons.mpr ⟨hinner.all_stand, hlist.all_stand⟩⟩

theorem ReadsList.all_stand {delimiters : Delimiters} {i stop : Nat} {nodes : List Node} :
    ReadsList ts delimiters i nodes stop → ∀ node ∈ nodes, node.Everywhere (·.Stands ts)
  | .close _ => List.forall_mem_nil _
  | .separator _ hrest => hrest.all_stand
  | .item _ hnode _ hrest => List.forall_mem_cons.mpr ⟨hnode.all_stand, hrest.all_stand⟩

end

namespace Node.Stands

/-- A string reaches from one quote to the next of its kind. -/
theorem string {span : Span} {tokens : List Token}
    (hstands : (Node.string span tokens).Stands ts) :
    ∃ quote close, span.stop = close + 1 ∧
      ts.opening (ts.skipBlanks span.start) = .string quote ∧
        ts.ClosesAt quote (ts.skipBlanks span.start + 1) close ∧
          tokens = (ts.extract (ts.skipBlanks span.start + 1) close).toList := by
  obtain ⟨start, stop⟩ := span
  have hreads : Reads ts start (.string ⟨start, stop⟩ tokens) stop := hstands nofun nofun
  cases hreads with
  | string hopening hlt hclose hopen =>
    exact ⟨_, _, rfl, hopening, ⟨hlt, hclose, hopen⟩, rfl⟩
  | grouping _ hinner =>
    have hle : ts.skipBlanks start + 1 ≤ start := (hinner.span_bounds nofun).1
    have hskip := ts.le_skipBlanks start
    omega

theorem callsProperly {node : Node} (hstands : node.Stands ts) : node.CallsProperly ts := by
  cases node with
  | execution span callee arguments =>
    obtain ⟨start, stop⟩ := span
    have hreads : Reads ts start (.execution ⟨start, stop⟩ callee arguments) stop :=
      hstands nofun nofun
    cases hreads with
    | call hopening _ => exact .inl ⟨_, (TokenStream.shows_of_opening_eq hopening).1, rfl⟩
    | groupingCall hopening hinner hclose _ _ =>
      exact .inr ⟨TokenStream.shows_of_opening_eq hopening, _, hinner, hclose⟩
    | grouping _ hinner =>
      have hle : ts.skipBlanks start + 1 ≤ start := (hinner.span_bounds nofun).1
      have hskip := ts.le_skipBlanks start
      omega
  | _ => trivial

end Node.Stands

/-- All calls in what is read are of names or of what is put in parentheses. -/
theorem Reads.callsProperly {start stop : Nat} {node : Node} (hreads : Reads ts start node stop) :
    node.Everywhere (·.CallsProperly ts) :=
  fun path part hpart => (hreads.all_stand path part hpart).callsProperly

theorem ReadsList.callsProperly {delimiters : Delimiters} {i stop : Nat} {nodes : List Node}
    (hlist : ReadsList ts delimiters i nodes stop) :
    ∀ node ∈ nodes, node.Everywhere (·.CallsProperly ts) :=
  fun node hnode path part hpart => (hlist.all_stand node hnode path part hpart).callsProperly

end CurlyScript
