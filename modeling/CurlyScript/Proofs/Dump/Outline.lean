import CurlyScript.Proofs.Dump.Lines
import CurlyScript.Proofs.Grammar.Parts
import CurlyScript.Segmentation

namespace CurlyScript

namespace Node

/-- The names in a construct are words, and the text of a string tells its tokens. This is about the
    construct itself and not about its parts. -/
def Legible : Node → Prop
  | .identifier _ name | .namedFunction _ name _ => isWord name = true
  | .string _ tokens => tokens = tokenize (textOf tokens)
  | _ => True

mutual

/-- How many constructs a construct is made of. -/
def count : Node → Nat
  | .empty _ | .string _ _ | .identifier _ _ => 1
  | .block _ statements => 1 + countAll statements
  | .execution _ callee arguments => 1 + (callee.count + countAll arguments)
  | .namedFunction _ _ body | .inlineFunction _ body => 1 + body.count

def countAll : List Node → Nat
  | [] => 0
  | node :: nodes => node.count + countAll nodes

end

mutual

theorem length_outline (depth : Nat) : ∀ node : Node, (node.outline depth).length = node.count
  | .empty _ | .string _ _ | .identifier _ _ => rfl
  | .block _ statements => by
    rw [outline, count, List.length_cons, length_outlineAll, Nat.add_comm]
  | .execution _ callee arguments => by
    rw [outline, count, List.length_cons, List.length_append, length_outline, length_outlineAll,
      Nat.add_comm]
  | .namedFunction _ _ body | .inlineFunction _ body => by
    rw [outline, count, List.length_cons, length_outline, Nat.add_comm]

theorem length_outlineAll (depth : Nat) :
    ∀ nodes : List Node, (outlineAll depth nodes).length = countAll nodes
  | [] => rfl
  | node :: nodes => by
    rw [outlineAll, countAll, List.length_append, length_outline, length_outlineAll]

end

/-- What the lines of a construct and of all that is below it hold. -/
def entries (depth : Nat) (node : Node) : List (Nat × String × Span) :=
  (node.outline depth).map entry

variable {node other : Node} {nodes others : List Node} {depth : Nat}

theorem entries_eq_cons (depth : Nat) (node : Node) :
    node.entries depth =
      (depth, node.headline, node.span) :: node.children.flatMap (entries (depth + 1)) := by
  rw [entries, outline_eq_cons, List.map_cons, List.map_flatMap]
  rfl

/-- A construct is known by its headline, its span and its children. -/
theorem eq_of_headline_eq (hnode : node.Legible) (hother : other.Legible)
    (hheadline : node.headline = other.headline) (hspan : node.span = other.span)
    (hchildren : node.children = other.children) : node = other := by
  have hlabel := label_eq_of_headline_eq hheadline
  have hdetails := details_eq_of_headline_eq hheadline
  cases node with
  | empty span =>
    cases other with
    | empty span' => exact congrArg Node.empty hspan
    | _ => simp [label] at hlabel
  | block span statements =>
    cases other with
    | block span' statements' => exact congrArg₂ Node.block hspan hchildren
    | _ => simp [label] at hlabel
  | string span tokens =>
    cases other with
    | string span' tokens' =>
      have htext := quoted_injective (String.toList_inj.mp (List.cons.inj hdetails).2)
      have htokens : tokens = tokens' := by
        rw [show tokens = _ from hnode, htext, ← show tokens' = _ from hother]
      exact congrArg₂ Node.string hspan htokens
    | _ => simp [label] at hlabel
  | identifier span name =>
    cases other with
    | identifier span' name' =>
      exact congrArg₂ Node.identifier hspan (String.toList_inj.mp (List.cons.inj hdetails).2)
    | _ => simp [label] at hlabel
  | execution span callee arguments =>
    cases other with
    | execution span' callee' arguments' =>
      obtain rfl : span = span' := hspan
      obtain ⟨rfl, rfl⟩ := List.cons.inj hchildren
      rfl
    | _ => simp [label] at hlabel
  | namedFunction span name body =>
    cases other with
    | namedFunction span' name' body' =>
      obtain rfl : span = span' := hspan
      obtain rfl := String.toList_inj.mp (List.cons.inj hdetails).2
      obtain ⟨rfl, -⟩ := List.cons.inj hchildren
      rfl
    | _ => simp [label] at hlabel
  | inlineFunction span body =>
    cases other with
    | inlineFunction span' body' =>
      exact congrArg₂ Node.inlineFunction hspan (List.cons.inj hchildren).1
    | _ => simp [label] at hlabel

/-- Nothing below a construct lies higher than it. -/
theorem le_depth_of_mem_entries {part : Nat × String × Span} (hpart : part ∈ node.entries depth) :
    depth ≤ part.1 := by
  induction node using induction_on_children generalizing depth with
  | h node ih =>
    rw [entries_eq_cons] at hpart
    obtain rfl | hbelow := List.mem_cons.mp hpart
    · exact Nat.le_refl depth
    · obtain ⟨child, hchild, hmem⟩ := List.mem_flatMap.mp hbelow
      exact Nat.le_of_succ_le (ih child hchild hmem)

theorem lt_depth_of_mem_flatMap_entries {part : Nat × String × Span}
    (hpart : part ∈ nodes.flatMap (entries (depth + 1))) : depth < part.1 := by
  obtain ⟨node, -, hmem⟩ := List.mem_flatMap.mp hpart
  exact le_depth_of_mem_entries hmem

theorem takeWhile_flatMap_entries (depth : Nat) (nodes : List Node) :
    (nodes.flatMap (entries depth)).takeWhile (depth < ·.1) = [] := by
  cases nodes with
  | nil => rfl
  | cons node nodes =>
    rw [List.flatMap_cons, entries_eq_cons, List.cons_append, List.takeWhile_cons_of_neg]
    simp

/-- The lines below a construct end where the next construct of its depth begins. -/
theorem flatMap_entries_append_inj {below below' : List Node}
    (h : below.flatMap (entries (depth + 1)) ++ nodes.flatMap (entries depth) =
      below'.flatMap (entries (depth + 1)) ++ others.flatMap (entries depth)) :
    below.flatMap (entries (depth + 1)) = below'.flatMap (entries (depth + 1)) ∧
      nodes.flatMap (entries depth) = others.flatMap (entries depth) := by
  have hbelow (below nodes : List Node) : (below.flatMap (entries (depth + 1)) ++
      nodes.flatMap (entries depth)).takeWhile (depth < ·.1) =
        below.flatMap (entries (depth + 1)) := by
    rw [List.takeWhile_append_of_pos, takeWhile_flatMap_entries, List.append_nil]
    exact fun part hpart => decide_eq_true (lt_depth_of_mem_flatMap_entries hpart)
  have hsame := congrArg (List.takeWhile (depth < ·.1)) h
  rw [hbelow, hbelow] at hsame
  rw [hsame] at h
  exact ⟨hsame, List.append_cancel_left h⟩

/-- Constructs side by side are known by their lines if each of them is. -/
theorem eq_of_flatMap_entries_eq
    (hknown : ∀ node ∈ nodes, ∀ other ∈ others,
      node.entries depth = other.entries depth → node = other)
    (h : nodes.flatMap (entries depth) = others.flatMap (entries depth)) : nodes = others := by
  induction nodes generalizing others with
  | nil =>
    cases others with
    | nil => rfl
    | cons other others =>
      rw [List.flatMap_nil, List.flatMap_cons, entries_eq_cons] at h
      cases h
  | cons node nodes ih =>
    cases others with
    | nil =>
      rw [List.flatMap_nil, List.flatMap_cons, entries_eq_cons] at h
      cases h
    | cons other others =>
      rw [List.flatMap_cons, List.flatMap_cons, entries_eq_cons, entries_eq_cons] at h
      obtain ⟨hentry, hlines⟩ := List.cons.inj h
      obtain ⟨hbelow, hrest⟩ := flatMap_entries_append_inj hlines
      have hfirst : node.entries depth = other.entries depth := by
        rw [entries_eq_cons, entries_eq_cons, hentry, hbelow]
      rw [hknown node (List.mem_cons_self ..) other (List.mem_cons_self ..) hfirst, ih ?_ hrest]
      exact fun node hnode other hother =>
        hknown node (List.mem_cons_of_mem _ hnode) other (List.mem_cons_of_mem _ hother)

/-- The lines of legible constructs tell them apart. -/
theorem eq_of_entries_eq (hnode : node.Everywhere Legible) (hother : other.Everywhere Legible)
    (h : node.entries depth = other.entries depth) : node = other := by
  induction node using induction_on_children generalizing other depth with
  | h node ih =>
    obtain ⟨hlegible, hbelow⟩ := everywhere_iff.mp hnode
    obtain ⟨hlegible', hbelow'⟩ := everywhere_iff.mp hother
    rw [entries_eq_cons, entries_eq_cons] at h
    -- The first line is that of the construct itself, and all others are those of its children.
    obtain ⟨hentry, hchildren⟩ := List.cons.inj h
    simp only [Prod.mk.injEq, true_and] at hentry
    refine eq_of_headline_eq hlegible hlegible' hentry.1 hentry.2
      (eq_of_flatMap_entries_eq (fun child hchild child' hchild' => ?_) hchildren)
    exact ih child hchild (hbelow child hchild) (hbelow' child' hchild')

end Node

end CurlyScript
