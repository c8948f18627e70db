import CurlyScript.Node
import Mathlib.Data.List.Nodup

namespace CurlyScript

/-- What a token is there for in a construct. -/
inductive Duty where
  /-- The bracket before the statements of a block or before the arguments of a call. -/
  | opens
  | separates
  | closes
  | openQuote
  /-- The token between the quotes of a string that comes after `n` others. -/
  | captured (n : Nat)
  | closeQuote
  | name
  /-- The type of a named function, which may be left out. -/
  | resultType
  /-- The type of an inline function. -/
  | type
  | openParameters
  | closeParameters
  | arrowStem
  | arrowHead
  deriving DecidableEq, Repr

/-- The part that a token plays in a script. The construct that it belongs to is the one that is
    reached from the root by a path. -/
inductive Role where
  | blank
  | openGroup
  | closeGroup
  | duty (owner : List Nat) (duty : Duty)
  deriving DecidableEq, Repr

/-- The duties between the quotes of a string and at its end, after so many of its tokens. -/
def Duty.restOfString (n : Nat) : Nat → List Duty
  | 0 => [.closeQuote]
  | left + 1 => .captured n :: restOfString (n + 1) left

namespace Node

/-- The part of a construct to which a path leads. Every step of a path is the number of a child. -/
def at? : List Nat → Node → Option Node
  | [], node => some node
  | k :: path, node => node.children[k]?.bind fun child => at? path child

/-- What the tokens of a construct itself are there for, apart from those of its parts. Every token
    of a run stands right behind the one before. Separators and the type of a named function are
    left out, since there may be any number of the ones and none of the other. -/
def runs : Node → List (List Duty)
  | .empty _ => []
  | .block _ _ => [[.opens], [.closes]]
  | .string _ tokens => [.openQuote :: Duty.restOfString 0 tokens.length]
  | .identifier _ _ => [[.name]]
  | .execution _ _ _ => [[.opens], [.closes]]
  | .namedFunction _ _ _ => [[.name, .openParameters, .closeParameters]]
  | .inlineFunction _ _ =>
    [[.type, .openParameters, .closeParameters], [.arrowStem, .arrowHead]]

mutual

/-- The runs of a construct and of all that is below it in the order of the source, each with the
    path of its owner. -/
def inventory (path : List Nat) : Node → List (List Nat × List Duty)
  | .empty _ => []
  | .block _ statements =>
    (path, [.opens]) :: (inventoryFrom path 0 statements ++ [(path, [.closes])])
  | .string _ tokens => [(path, .openQuote :: Duty.restOfString 0 tokens.length)]
  | .identifier _ _ => [(path, [.name])]
  | .execution _ callee arguments =>
    callee.inventory (path ++ [0]) ++
      (path, [.opens]) :: (inventoryFrom path 1 arguments ++ [(path, [.closes])])
  | .namedFunction _ _ body =>
    (path, [.name, .openParameters, .closeParameters]) :: body.inventory (path ++ [0])
  | .inlineFunction _ body =>
    (path, [.type, .openParameters, .closeParameters]) ::
      (path, [.arrowStem, .arrowHead]) :: body.inventory (path ++ [0])

/-- The inventories of the children from the `k`-th on. -/
def inventoryFrom (path : List Nat) (k : Nat) : List Node → List (List Nat × List Duty)
  | [] => []
  | node :: nodes => node.inventory (path ++ [k]) ++ inventoryFrom path (k + 1) nodes

end

variable {node child part : Node} {path below owner : List Nat} {k : Nat} {nodes : List Node}

theorem at?_nil (node : Node) : node.at? [] = some node := rfl

theorem at?_cons_eq_some_iff :
    node.at? (k :: path) = some part ↔
      ∃ child, node.children[k]? = some child ∧ child.at? path = some part :=
  Option.bind_eq_some_iff

theorem at?_append (path path' : List Nat) (node : Node) :
    node.at? (path ++ path') = (node.at? path).bind (at? path') := by
  induction path generalizing node with
  | nil => rfl
  | cons k path ih => simp only [List.cons_append, at?, Option.bind_assoc, ih]

theorem at?_concat (path : List Nat) (k : Nat) (node : Node) :
    node.at? (path ++ [k]) = (node.at? path).bind fun part => part.children[k]? := by
  simp only [at?_append, at?, Option.bind_fun_some]

theorem inventory_subset_inventoryFrom (path : List Nat) (k : Nat) {j : Nat}
    (hchild : nodes[j]? = some child) :
    child.inventory (path ++ [k + j]) ⊆ inventoryFrom path k nodes := by
  induction nodes generalizing j k with
  | nil => cases hchild
  | cons node nodes ih =>
    rw [inventoryFrom]
    cases j with
    | zero =>
      obtain rfl : node = child := Option.some.inj hchild
      exact List.subset_append_left ..
    | succ j =>
      have hrest := ih (k + 1) hchild
      rw [Nat.add_right_comm, Nat.add_assoc] at hrest
      exact List.subset_append_of_subset_right _ hrest

/-- Apart from their order, the runs are those of the construct itself and those of its children. -/
theorem inventory_perm (path : List Nat) (node : Node) :
    (node.inventory path).Perm (node.runs.map (path, ·) ++ inventoryFrom path 0 node.children) := by
  have hlist (first : List (List Nat × List Duty)) :
      ((path, [Duty.opens]) :: (first ++ [(path, [.closes])])).Perm
        ((path, [.opens]) :: (path, [.closes]) :: first) :=
    (List.perm_append_singleton ..).cons _
  cases node with
  | empty | string | identifier => exact List.Perm.refl _
  | block span statements => exact hlist _
  | execution span callee arguments =>
    refine ((hlist _).append_left _).trans ?_
    exact List.perm_append_comm_assoc _ [(path, [Duty.opens]), (path, [Duty.closes])] _
  | namedFunction span name body =>
    simp only [inventory, runs, children, inventoryFrom, List.append_nil]
    exact List.Perm.refl _
  | inlineFunction span body =>
    simp only [inventory, runs, children, inventoryFrom, List.append_nil]
    exact List.Perm.refl _

/-- What a child has its parent has. -/
theorem inventory_child_subset (hchild : node.children[k]? = some child) :
    child.inventory (path ++ [k]) ⊆ node.inventory path := by
  have hfrom := inventory_subset_inventoryFrom path 0 hchild
  rw [Nat.zero_add] at hfrom
  exact List.Subset.trans (List.subset_append_of_subset_right _ hfrom)
    (inventory_perm path node).symm.subset

/-- All that is below a construct has its runs in the inventory. -/
theorem mem_inventory (path : List Nat) (hpart : node.at? below = some part) {run : List Duty}
    (hrun : run ∈ part.runs) : (path ++ below, run) ∈ node.inventory path := by
  induction below generalizing node path with
  | nil =>
    obtain rfl : node = part := Option.some.inj hpart
    rw [List.append_nil, (inventory_perm path node).mem_iff]
    exact List.mem_append_left _ (List.mem_map_of_mem hrun)
  | cons k below ih =>
    obtain ⟨child, hchild, hbelow⟩ := at?_cons_eq_some_iff.mp hpart
    have hmem := ih (path ++ [k]) hbelow
    rw [List.append_assoc, List.singleton_append] at hmem
    exact inventory_child_subset hchild hmem

mutual

/-- What goes over from the children of a construct to the construct holds of all constructs. -/
theorem induction_on_children {P : Node → Prop}
    (h : ∀ node : Node, (∀ child ∈ node.children, P child) → P node) : ∀ node, P node
  | .empty _ => h _ fun _ hchild => nomatch hchild
  | .block _ statements => h _ (induction_on_nodes h statements)
  | .string _ _ => h _ fun _ hchild => nomatch hchild
  | .identifier _ _ => h _ fun _ hchild => nomatch hchild
  | .execution _ callee arguments =>
    h _ (List.forall_mem_cons.mpr ⟨induction_on_children h callee, induction_on_nodes h arguments⟩)
  | .namedFunction _ _ body => h _ (List.forall_mem_singleton.mpr (induction_on_children h body))
  | .inlineFunction _ body => h _ (List.forall_mem_singleton.mpr (induction_on_children h body))

theorem induction_on_nodes {P : Node → Prop}
    (h : ∀ node : Node, (∀ child ∈ node.children, P child) → P node) :
    ∀ nodes : List Node, ∀ node ∈ nodes, P node
  | [] => fun _ hnode => nomatch hnode
  | node :: nodes =>
    List.forall_mem_cons.mpr ⟨induction_on_children h node, induction_on_nodes h nodes⟩

end

theorem exists_child_of_mem_inventoryFrom {entry : List Nat × List Duty}
    (hmem : entry ∈ inventoryFrom path k nodes) :
    ∃ (j : Nat) (child : Node), nodes[j]? = some child ∧
      entry ∈ child.inventory (path ++ [k + j]) := by
  induction nodes generalizing k with
  | nil => cases hmem
  | cons node nodes ih =>
    rw [inventoryFrom, List.mem_append] at hmem
    obtain hmem | hmem := hmem
    · exact ⟨0, node, rfl, hmem⟩
    · obtain ⟨j, child, hchild, hmem⟩ := ih hmem
      rw [Nat.add_assoc, Nat.add_comm 1] at hmem
      exact ⟨j + 1, child, hchild, hmem⟩

/-- The inventory of a construct has the runs of what is below it, each with its owner, and no
    others. -/
theorem mem_inventory_iff {entry : List Nat × List Duty} :
    entry ∈ node.inventory path ↔
      ∃ below part, entry.1 = path ++ below ∧ node.at? below = some part ∧ entry.2 ∈ part.runs := by
  constructor
  · intro hmem
    induction node using induction_on_children generalizing path with
    | h node ih =>
      rw [(inventory_perm path node).mem_iff, List.mem_append] at hmem
      obtain hmem | hmem := hmem
      · obtain ⟨run, hrun, rfl⟩ := List.mem_map.mp hmem
        exact ⟨[], node, (List.append_nil path).symm, rfl, hrun⟩
      · obtain ⟨j, child, hchild, hmem⟩ := exists_child_of_mem_inventoryFrom hmem
        obtain ⟨below, part, howner, hpart, hrun⟩ := ih child (List.mem_of_getElem? hchild) hmem
        rw [Nat.zero_add, List.append_assoc, List.singleton_append] at howner
        exact ⟨j :: below, part, howner, at?_cons_eq_some_iff.mpr ⟨child, hchild, hpart⟩, hrun⟩
  · obtain ⟨owner, run⟩ := entry
    rintro ⟨below, part, rfl, hpart, hrun⟩
    exact mem_inventory path hpart hrun

/-- What is in the inventory of a construct belongs to it or to something below it. -/
theorem prefix_of_mem_inventory {entry : List Nat × List Duty}
    (hmem : entry ∈ node.inventory path) : path <+: entry.1 := by
  obtain ⟨below, _, howner, -⟩ := mem_inventory_iff.mp hmem
  exact ⟨below, howner.symm⟩

/-- The roles of an inventory, one after the other. -/
def rolesOf (inventory : List (List Nat × List Duty)) : List Role :=
  inventory.flatMap fun (owner, run) => run.map (.duty owner)

variable {inventory inventory' : List (List Nat × List Duty)} {duty : Duty} {run : List Duty}

theorem rolesOf_append :
    rolesOf (inventory ++ inventory') = rolesOf inventory ++ rolesOf inventory' :=
  List.flatMap_append

theorem rolesOf_cons :
    rolesOf ((owner, run) :: inventory) = run.map (.duty owner) ++ rolesOf inventory :=
  List.flatMap_cons

theorem rolesOf_perm (hperm : inventory.Perm inventory') :
    (rolesOf inventory).Perm (rolesOf inventory') :=
  hperm.flatMap_right _

theorem mem_rolesOf :
    .duty owner duty ∈ rolesOf inventory ↔ ∃ run, (owner, run) ∈ inventory ∧ duty ∈ run := by
  simp [rolesOf]

theorem exists_duty_of_mem_rolesOf {role : Role} (hmem : role ∈ rolesOf inventory) :
    ∃ owner run duty, role = .duty owner duty ∧ (owner, run) ∈ inventory := by
  obtain ⟨⟨owner, run⟩, hrun, hrole⟩ := List.mem_flatMap.mp hmem
  obtain ⟨duty, -, rfl⟩ := List.mem_map.mp hrole
  exact ⟨owner, run, duty, rfl, hrun⟩

/-- No duty of a construct itself is one of its children's. -/
theorem duty_notMem_inventoryFrom (path : List Nat) (k : Nat) (duty : Duty) (nodes : List Node) :
    .duty path duty ∉ rolesOf (inventoryFrom path k nodes) := by
  intro hmem
  obtain ⟨run, hrun, -⟩ := mem_rolesOf.mp hmem
  obtain ⟨j, child, -, hmem⟩ := exists_child_of_mem_inventoryFrom hrun
  have hle := (prefix_of_mem_inventory hmem).length_le
  rw [List.length_append, List.length_singleton] at hle
  exact Nat.not_succ_le_self _ hle

/-- What belongs to one child belongs to no later one. -/
theorem disjoint_inventory (path : List Nat) {j : Nat} (hlt : k < j) (node : Node)
    (nodes : List Node) :
    (rolesOf (node.inventory (path ++ [k]))).Disjoint (rolesOf (inventoryFrom path j nodes)) := by
  intro role hfirst hlater
  obtain ⟨owner, run, duty, rfl, hrun⟩ := exists_duty_of_mem_rolesOf hfirst
  obtain ⟨run', hrun', -⟩ := mem_rolesOf.mp hlater
  obtain ⟨n, child, -, hmem⟩ := exists_child_of_mem_inventoryFrom hrun'
  have hfirst : path ++ [k] <+: owner := prefix_of_mem_inventory hrun
  have hlater : path ++ [j + n] <+: owner := prefix_of_mem_inventory hmem
  have hsame := List.prefix_of_prefix_length_le hfirst hlater (by simp)
  rw [List.prefix_append_right_inj, List.cons_prefix_cons] at hsame
  omega

theorem mem_restOfString {n left : Nat} {duty : Duty} (hmem : duty ∈ Duty.restOfString n left) :
    duty = .closeQuote ∨ ∃ m, n ≤ m ∧ duty = .captured m := by
  induction left generalizing n with
  | zero => exact .inl (List.mem_singleton.mp hmem)
  | succ left ih =>
    obtain rfl | hmem := List.mem_cons.mp hmem
    · exact .inr ⟨n, Nat.le_refl n, rfl⟩
    · obtain hclose | ⟨m, hle, hcaptured⟩ := ih hmem
      · exact .inl hclose
      · exact .inr ⟨m, Nat.le_of_succ_le hle, hcaptured⟩

theorem nodup_restOfString (n left : Nat) : (Duty.restOfString n left).Nodup := by
  induction left generalizing n with
  | zero => exact List.nodup_singleton _
  | succ left ih =>
    refine List.nodup_cons.mpr ⟨fun hmem => ?_, ih (n + 1)⟩
    obtain hclose | ⟨m, hle, hcaptured⟩ := mem_restOfString hmem
    · cases hclose
    · cases hcaptured
      omega

theorem nodup_runs (node : Node) : node.runs.flatten.Nodup := by
  cases node with
  | string span tokens =>
    rw [runs, List.flatten_singleton, List.nodup_cons]
    refine ⟨fun hmem => ?_, nodup_restOfString _ _⟩
    obtain hclose | ⟨m, -, hcaptured⟩ := mem_restOfString hmem
    · cases hclose
    · cases hcaptured
  | empty | block | identifier | execution | namedFunction | inlineFunction =>
    simp [runs]

theorem rolesOf_own (path : List Nat) (runs : List (List Duty)) :
    rolesOf (runs.map (path, ·)) = runs.flatten.map (.duty path) := by
  rw [rolesOf, List.flatMap_map, List.map_flatten, List.flatMap_def]

theorem nodup_inventoryFrom (hnodes : ∀ child ∈ nodes, ∀ path,
    (rolesOf (child.inventory path)).Nodup) : (rolesOf (inventoryFrom path k nodes)).Nodup := by
  induction nodes generalizing k with
  | nil => exact List.nodup_nil
  | cons node nodes ih =>
    rw [List.forall_mem_cons] at hnodes
    rw [inventoryFrom, rolesOf_append]
    exact (hnodes.1 _).append (ih hnodes.2) (disjoint_inventory path (Nat.lt_succ_self k) _ _)

/-- Nothing is in an inventory twice. -/
theorem nodup_inventory (node : Node) :
    ∀ path : List Nat, (rolesOf (node.inventory path)).Nodup := by
  induction node using induction_on_children with
  | h node ih =>
    intro path
    have hown : (node.runs.flatten.map (Role.duty path)).Nodup :=
      (nodup_runs node).map fun _ _ hsame => (Role.duty.inj hsame).2
    rw [(rolesOf_perm (inventory_perm path node)).nodup_iff, rolesOf_append, rolesOf_own]
    refine hown.append (nodup_inventoryFrom ih) fun role hrole hchildren => ?_
    obtain ⟨duty, -, rfl⟩ := List.mem_map.mp hrole
    exact duty_notMem_inventoryFrom path 0 duty _ hchildren

end Node

end CurlyScript
