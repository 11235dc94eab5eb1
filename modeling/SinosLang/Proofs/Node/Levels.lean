import SinosLang.Proofs.Lexing.Spelling
import SinosLang.Proofs.Node.Measure

/-!
# The levels of a tree

The outline of a tree lists its nodes in pre-order, each with its level: the children of a node are one
level below it. What is listed behind a node on deeper levels, up to the first node that is not deeper,
is below the node. So the labels of the nodes, each with its level, determine a tree if a node is
determined by its label and its children.

Main statements: `outline_eq_levels` and `eq_of_labels`.
-/

set_option autoImplicit false

namespace SinosLang.Node

/-- The nodes of a tree in pre-order with their levels, where the root is on a given one. -/
def levels (depth : Nat) (node : Node) : List (Nat × Node) :=
  (depth, node) :: node.children.attach.flatMap fun child => levels (depth + 1) child.1
termination_by node.count
decreasing_by exact count_lt_of_mem_children child.2

/-- The root is on its level, and the trees of the children one level below. -/
theorem levels_eq (depth : Nat) (node : Node) :
    node.levels depth = (depth, node) :: node.children.flatMap (levels (depth + 1)) := by
  rw [levels, List.flatMap_def, List.flatMap_def]
  simp

/-- The trees that are still to be visited are listed one after the other. -/
theorem outlineFrom_eq_levels (pending : List (Nat × Node)) :
    outlineFrom pending = pending.flatMap fun entry => entry.2.levels entry.1 := by
  induction pending using outlineFrom.induct with
  | case1 => rw [outlineFrom, List.flatMap_nil]
  | case2 depth node pending ih =>
    rw [outlineFrom, ih, List.flatMap_append, List.flatMap_map, List.flatMap_cons, levels_eq,
      List.cons_append]

/-- The outline of a tree has its nodes on their levels, the root on the first. -/
theorem outline_eq_levels (node : Node) : node.outline = node.levels 0 := by
  rw [outline, outlineFrom_eq_levels, List.flatMap_singleton]

/-- If each of several trees has all its nodes on its levels, they all have. -/
theorem length_flatMap_levels {nodes : List Node} {depth : Nat}
    (each : ∀ node ∈ nodes, (node.levels depth).length = node.count) :
    (nodes.flatMap (levels depth)).length = countAll nodes := by
  induction nodes with
  | nil => rfl
  | cons node nodes ih =>
    rw [List.flatMap_cons, List.length_append, each node List.mem_cons_self,
      ih fun other isOther => each other (.tail _ isOther), countAll]

/-- Every node of a tree is on one level. -/
theorem length_levels (depth : Nat) (node : Node) : (node.levels depth).length = node.count := by
  induction node using induction_on_children generalizing depth with
  | step node ih =>
    rw [levels_eq, List.length_cons, count_eq,
      length_flatMap_levels fun child isChild => ih child isChild (depth + 1)]

/-! ## Labels -/

section Labels

variable {β : Type} (label : Node → β) {node other : Node} {nodes others : List Node} {depth : Nat}
  {entry : Nat × β}

/-- The labels of the nodes of a tree in pre-order, each with its level. -/
def labels (depth : Nat) (node : Node) : List (Nat × β) :=
  (node.levels depth).map (Prod.map id label)

/-- The labels of a tree are that of the root and those of its children, one level further down. -/
theorem labels_eq (depth : Nat) (node : Node) :
    node.labels label depth =
      (depth, label node) :: node.children.flatMap (labels label (depth + 1)) := by
  rw [labels, levels_eq, List.map_cons, List.map_flatMap]
  rfl

variable {label}

/-- No label of a tree is above that of its root. -/
theorem le_of_mem_labels (isIn : entry ∈ node.labels label depth) : depth ≤ entry.1 := by
  induction node using induction_on_children generalizing depth with
  | step node ih =>
    rw [labels_eq] at isIn
    rcases List.mem_cons.mp isIn with rfl | below
    · exact le_rfl
    · obtain ⟨child, isChild, isIn⟩ := List.mem_flatMap.mp below
      exact (Nat.le_succ depth).trans (ih child isChild isIn)

variable (label) in
/-- What is deeper than a level is below it: it ends in front of the next tree on the level. -/
theorem takeWhile_deeper (depth : Nat) (below beside : List Node) :
    ((below.flatMap (labels label (depth + 1)) ++ beside.flatMap (labels label depth)).takeWhile
        fun entry => decide (depth < entry.1)) = below.flatMap (labels label (depth + 1)) ∧
      ((below.flatMap (labels label (depth + 1)) ++ beside.flatMap (labels label depth)).dropWhile
        fun entry => decide (depth < entry.1)) = beside.flatMap (labels label depth) := by
  refine Text.takeWhile_append (fun entry isIn => ?_) fun entry isFirst => ?_
  · obtain ⟨child, _, isIn⟩ := List.mem_flatMap.mp isIn
    exact decide_eq_true (le_of_mem_labels isIn)
  · cases beside with
    | nil => cases isFirst
    | cons next beside =>
      rw [List.flatMap_cons, labels_eq] at isFirst
      cases isFirst
      exact decide_eq_false (Nat.lt_irrefl depth)

/-- Where a tree ends among the labels of trees on one level is determined. -/
theorem labels_append_inj
    (same : node.labels label depth ++ nodes.flatMap (labels label depth) =
      other.labels label depth ++ others.flatMap (labels label depth)) :
    node.labels label depth = other.labels label depth ∧
      nodes.flatMap (labels label depth) = others.flatMap (labels label depth) := by
  rw [labels_eq, labels_eq, List.cons_append, List.cons_append] at same
  obtain ⟨root_eq, behind⟩ := List.cons.inj same
  obtain ⟨below, beside⟩ := takeWhile_deeper label depth node.children nodes
  rw [behind] at below beside
  obtain ⟨below', beside'⟩ := takeWhile_deeper label depth other.children others
  rw [labels_eq, labels_eq, root_eq, below.symm.trans below']
  exact ⟨rfl, beside.symm.trans beside'⟩

/-- Trees that are listed one after the other are determined if each of them is. -/
theorem eq_of_flatMap_labels
    (each : ∀ node ∈ nodes, ∀ other ∈ others,
      node.labels label depth = other.labels label depth → node = other)
    (same : nodes.flatMap (labels label depth) = others.flatMap (labels label depth)) :
    nodes = others := by
  induction nodes generalizing others with
  | nil =>
    cases others with
    | nil => rfl
    | cons other others =>
      rw [List.flatMap_cons, labels_eq] at same
      cases same
  | cons node nodes ih =>
    cases others with
    | nil =>
      rw [List.flatMap_cons, labels_eq] at same
      cases same
    | cons other others =>
      obtain ⟨first, later⟩ := labels_append_inj same
      rw [each node List.mem_cons_self other List.mem_cons_self first,
        ih (fun node isNode other isOther => each node (.tail _ isNode) other (.tail _ isOther)) later]

/-- Trees with the same labels on the same levels are the same, if nodes with the same label and the
same children are. -/
theorem eq_of_labels {P : Node → Prop}
    (told : ∀ node other, P node → P other → label node = label other →
      node.children = other.children → node = other)
    (all : ∀ part ∈ node.preorder, P part) (all' : ∀ part ∈ other.preorder, P part)
    (same : node.labels label depth = other.labels label depth) : node = other := by
  induction node using induction_on_children generalizing other depth with
  | step node ih =>
    rw [labels_eq, labels_eq] at same
    obtain ⟨root_eq, below⟩ := List.cons.inj same
    refine told node other (all node (mem_preorder_self node)) (all' other (mem_preorder_self other))
      (Prod.mk.inj root_eq).2 (eq_of_flatMap_labels ?_ below)
    intro child isChild child' isChild'
    exact ih child isChild
      (fun part isPart => all part (mem_preorder_iff.mpr (.inr ⟨child, isChild, isPart⟩)))
      (fun part isPart => all' part (mem_preorder_iff.mpr (.inr ⟨child', isChild', isPart⟩)))

end Labels

end SinosLang.Node
