import CurlyScript.Proofs.Grammar.Duties
import CurlyScript.Proofs.Grammar.Extent

namespace CurlyScript

namespace Node

/-- A property that a construct and all that is below it have. -/
def Everywhere (P : Node → Prop) (node : Node) : Prop :=
  ∀ path part, node.at? path = some part → P part

/-- No part of a construct is missing for lack of input. -/
def Solid (node : Node) : Prop :=
  node.Everywhere fun part => part.kind ≠ .empty

variable {P : Node → Prop} {node : Node}

theorem everywhere_iff :
    node.Everywhere P ↔ P node ∧ ∀ child ∈ node.children, child.Everywhere P := by
  constructor
  · refine fun hall => ⟨hall [] node node.at?_nil, fun child hchild path part hpart => ?_⟩
    obtain ⟨k, hk⟩ := List.getElem?_of_mem hchild
    refine hall (k :: path) part ?_
    rw [at?, hk]
    exact hpart
  · rintro ⟨hnode, hchildren⟩ path part hpart
    cases path with
    | nil =>
      obtain rfl := Option.some.inj hpart
      exact hnode
    | cons k path =>
      obtain ⟨child, hchild, hbelow⟩ := at?_cons_eq_some_iff.mp hpart
      exact hchildren child (List.mem_of_getElem? hchild) path part hbelow

/-- What all parts have is had by all parts of a part. -/
theorem Everywhere.at? {path : List Nat} {part : Node} (hall : node.Everywhere P)
    (hpart : node.at? path = some part) : part.Everywhere P := by
  intro path' below hbelow
  refine hall (path ++ path') below ?_
  rw [at?_append, hpart]
  exact hbelow

theorem Solid.child (hsolid : node.Solid) {child : Node} (hchild : child ∈ node.children) :
    child.Solid :=
  (everywhere_iff.mp hsolid).2 child hchild

theorem Solid.kind_ne (hsolid : node.Solid) : node.kind ≠ .empty :=
  (everywhere_iff.mp hsolid).1

theorem solid_of_leaf (hkind : node.kind ≠ .empty) (hleaf : node.children = []) : node.Solid := by
  refine everywhere_iff.mpr ⟨hkind, ?_⟩
  rw [hleaf]
  exact List.forall_mem_nil _

/-- The body is the only child of a function. -/
theorem children_of_body? {body : Node} (hbody : node.body? = some body) :
    node.children = [body] := by
  cases node <;> cases hbody <;> rfl

end Node

variable {ts : TokenStream}

mutual

/-- Nothing is missing from a node that ends before the input does. -/
theorem Reads.solid {start stop : Nat} {node : Node} :
    Reads ts start node stop → stop < ts.size → node.Solid
  | .empty hend, hlt => absurd hlt (Nat.not_lt.mpr hend)
  | .block _ hlist, _ => Node.everywhere_iff.mpr ⟨nofun, hlist.solid⟩
  | .string _ _ _ _, _ => Node.solid_of_leaf nofun rfl
  | .named _ hbody, hlt =>
    Node.everywhere_iff.mpr ⟨nofun, List.forall_mem_singleton.mpr (hbody.solid hlt)⟩
  | .inline _ hbody, hlt =>
    Node.everywhere_iff.mpr ⟨nofun, List.forall_mem_singleton.mpr (hbody.solid hlt)⟩
  | .call _ hlist, _ => Node.everywhere_iff.mpr
      ⟨nofun, List.forall_mem_cons.mpr ⟨Node.solid_of_leaf nofun rfl, hlist.solid⟩⟩
  | .word _, _ => Node.solid_of_leaf nofun rfl
  | @Reads.grouping _ _ next _ _ hinner hclose _, _ => by
    have hskip := ts.le_skipBlanks next
    have hend := TokenStream.lt_size_of_sees hclose
    exact hinner.solid (by omega)
  | @Reads.groupingCall _ _ next _ _ _ _ hinner hclose _ hlist, _ => by
    have hskip := ts.le_skipBlanks next
    have hend := TokenStream.lt_size_of_sees hclose
    exact Node.everywhere_iff.mpr
      ⟨nofun, List.forall_mem_cons.mpr ⟨hinner.solid (by omega), hlist.solid⟩⟩

/-- An item of a list is always followed by something. -/
theorem ReadsList.solid {delimiters : Delimiters} {i stop : Nat} {nodes : List Node} :
    ReadsList ts delimiters i nodes stop → ∀ node ∈ nodes, node.Solid
  | .close _ => List.forall_mem_nil _
  | .separator _ hrest => hrest.solid
  | @ReadsList.item _ _ _ next _ _ _ _ hnode hend hrest => by
    have hskip := ts.le_skipBlanks next
    have hlt := Delimiters.lt_size_of_seenAt hend
    exact List.forall_mem_cons.mpr ⟨hnode.solid (by omega), hrest.solid⟩

end

/-- A node that is not missing begins with a token of its own. -/
theorem Reads.start_lt_size {start stop : Nat} {node : Node} (hreads : Reads ts start node stop)
    (hkind : node.kind ≠ .empty) : start < ts.size := by
  refine Nat.lt_of_le_of_lt (ts.le_skipBlanks start) (TokenStream.lt_size_of_opening ?_)
  cases hreads with
  | empty => exact absurd rfl hkind
  | block hopening | string hopening | named hopening | inline hopening | call hopening
  | word hopening | grouping hopening | groupingCall hopening =>
    rw [hopening]
    nofun

theorem Reads.lt_of_solid {start stop : Nat} {node : Node} (hreads : Reads ts start node stop)
    (hsolid : node.Solid) : start < stop :=
  hreads.lt (hreads.start_lt_size hsolid.kind_ne)

/-- Nothing is missing from what a symbol follows. -/
theorem Reads.solid_of_sees {start stop : Nat} {node : Node} {s : Symbol}
    (hreads : Reads ts start node stop) (hsees : ts.sees (ts.skipBlanks stop) s = true) :
    node.Solid :=
  hreads.solid (Nat.lt_of_le_of_lt (ts.le_skipBlanks stop) (TokenStream.lt_size_of_sees hsees))

/-- Nothing is missing from an item of a list, which something follows. -/
theorem Reads.solid_of_seenAt {start stop : Nat} {node : Node} {delimiters : Delimiters}
    (hreads : Reads ts start node stop)
    (hseen : delimiters.seenAt ts (ts.skipBlanks stop) = true) : node.Solid :=
  hreads.solid (Nat.lt_of_le_of_lt (ts.le_skipBlanks stop) (Delimiters.lt_size_of_seenAt hseen))

/-- The body of a function lies behind the tokens by which the function is known. -/
theorem Reads.place_bounds {start place stop : Nat} {body : Node} (hbody : Reads ts place body stop)
    (hplace : (ts.opening (ts.skipBlanks start)).place? = some place) (hsolid : body.Solid) :
    start < place ∧ place < stop :=
  ⟨Nat.lt_of_le_of_lt (ts.le_skipBlanks start) (TokenStream.lt_of_opening hplace),
    hbody.lt_of_solid hsolid⟩

/-- The span of a node leaves out the parentheses around it and nothing else. -/
theorem Reads.span_bounds {start stop : Nat} {node : Node} :
    Reads ts start node stop → node.kind ≠ .empty →
      start ≤ node.span.start ∧ node.span.start < node.span.stop
  | .empty _, hkind => absurd rfl hkind
  | .grouping _ hinner _ _, hkind => by
    have hskip := ts.le_skipBlanks start
    have hbounds := hinner.span_bounds hkind
    omega
  | hreads@(.block _ _), hkind | hreads@(.string _ _ _ _), hkind | hreads@(.named _ _), hkind
  | hreads@(.inline _ _), hkind | hreads@(.call _ _), hkind | hreads@(.word _), hkind
  | hreads@(.groupingCall _ _ _ _ _), hkind =>
    ⟨Nat.le_refl _, hreads.lt (hreads.start_lt_size hkind)⟩

end CurlyScript
