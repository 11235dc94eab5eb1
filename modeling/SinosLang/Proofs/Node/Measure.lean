import SinosLang.Node.Outline
import Mathlib.Data.List.MinMax

/-!
# Measures of a tree

Two measures of a tree, its height and the greatest number of brackets that are open at once, are
the greatest weight of a path from the root downwards: every node counts for the height, groups and
blocks for the brackets. What is measured is decided by the children alone, so a tree is reasoned
about through its children.

Main statements: what holds of a node whenever it holds of its children holds of every tree; the
pre-order lists the root and then the nodes of the children.
-/

set_option autoImplicit false

namespace SinosLang.Node

mutual

/-- The greatest weight of a path from the root of a tree downwards. -/
def heaviest (weigh : Node → Nat) : Node → Nat
  | module span stmts => weigh (module span stmts) + heaviestOfAll weigh stmts
  | letStmt span binding type? value =>
    weigh (letStmt span binding type? value) + heaviest weigh value
  | exprStmt span expr => weigh (exprStmt span expr) + heaviest weigh expr
  | block span stmts last? =>
    weigh (block span stmts last?) + max (heaviestOfAll weigh stmts) (heaviestOfOption weigh last?)
  | binary span op left right =>
    weigh (binary span op left right) + max (heaviest weigh left) (heaviest weigh right)
  | unary span op operand => weigh (unary span op operand) + heaviest weigh operand
  | group span expr => weigh (group span expr) + heaviest weigh expr
  | name span value => weigh (name span value)
  | integer span value => weigh (integer span value)
  | float span value => weigh (float span value)
  | boolean span value => weigh (boolean span value)
  | string span value => weigh (string span value)

/-- The greatest weight of a path within several trees. -/
def heaviestOfAll (weigh : Node → Nat) : List Node → Nat
  | [] => 0
  | node :: nodes => max (heaviest weigh node) (heaviestOfAll weigh nodes)

/-- The greatest weight of a path within a tree that may be absent. -/
def heaviestOfOption (weigh : Node → Nat) : Option Node → Nat
  | none => 0
  | some node => heaviest weigh node

end

/-- Whether a node stands for a pair of brackets. -/
def isBracket : Node → Bool
  | block .. => true
  | group .. => true
  | _ => false

/-- The height of a tree: one for a leaf, else one more than that of the tallest child. -/
def height (node : Node) : Nat :=
  node.heaviest fun _ => 1

/-- The greatest number of brackets that are open at once within a tree. -/
def bracketDepth (node : Node) : Nat :=
  node.heaviest fun inner => if inner.isBracket then 1 else 0

variable (weigh : Node → Nat)

/-- The heaviest path of several trees is the heaviest of theirs. -/
theorem heaviestOfAll_eq (nodes : List Node) :
    heaviestOfAll weigh nodes = (nodes.map (heaviest weigh)).foldr max 0 := by
  induction nodes with
  | nil => rfl
  | cons node nodes ih => simp only [heaviestOfAll, List.map_cons, List.foldr_cons, ih]

/-- The heaviest path of two lists of trees is the heavier of theirs. -/
theorem heaviestOfAll_append (first second : List Node) :
    heaviestOfAll weigh (first ++ second) =
      max (heaviestOfAll weigh first) (heaviestOfAll weigh second) := by
  induction first with
  | nil => simp [heaviestOfAll]
  | cons node nodes ih => simp [heaviestOfAll, ih, max_assoc]

/-- A node weighs down its heaviest child by its own weight. -/
theorem heaviest_eq (node : Node) :
    node.heaviest weigh = weigh node + (node.children.map (heaviest weigh)).foldr max 0 := by
  rw [← heaviestOfAll_eq]
  cases node with
  | block span stmts last? =>
    cases last? <;>
      simp [heaviest, children, heaviestOfAll_append, heaviestOfAll, heaviestOfOption]
  | _ => simp [heaviest, children, heaviestOfAll]

/-- A node is one taller than its tallest child. -/
theorem height_eq (node : Node) :
    node.height = (node.children.map height).foldr max 0 + 1 := by
  rw [height, heaviest_eq, Nat.add_comm]
  rfl

/-- A path through a child weighs no more than the children's heaviest one. -/
theorem heaviest_le_of_mem {nodes : List Node} {node : Node} (h : node ∈ nodes) :
    node.heaviest weigh ≤ (nodes.map (heaviest weigh)).foldr max 0 :=
  List.le_max_of_le' 0 (List.mem_map_of_mem h) le_rfl

/-- A child is less tall than its parent. -/
theorem height_lt_of_mem_children {node child : Node} (h : child ∈ node.children) :
    child.height < node.height := by
  have bounded : child.height ≤ (node.children.map height).foldr max 0 :=
    heaviest_le_of_mem _ h
  rw [height_eq node]
  omega

/-- A child opens no more brackets at once than its parent. -/
theorem bracketDepth_le_of_mem_children {node child : Node} (h : child ∈ node.children) :
    child.bracketDepth ≤ node.bracketDepth := by
  have bounded := heaviest_le_of_mem (fun inner => if inner.isBracket then 1 else 0) h
  rw [bracketDepth, bracketDepth, heaviest_eq _ node]
  omega

/-- A tree has no more nodes than all trees of a list that it is in. -/
theorem count_le_countAll {nodes : List Node} {node : Node} (h : node ∈ nodes) :
    node.count ≤ countAll nodes := by
  induction nodes with
  | nil => cases h
  | cons first nodes ih =>
    rw [countAll]
    rcases List.mem_cons.mp h with rfl | later
    · omega
    · have := ih later
      omega

/-- A child has fewer nodes than its parent. -/
theorem count_lt_of_mem_children {node child : Node} (h : child ∈ node.children) :
    child.count < node.count := by
  have := count_le_countAll h
  rw [count_eq node]
  omega

/-- What holds of a node whenever it holds of all its children holds of every tree. -/
theorem induction_on_children {motive : Node → Prop}
    (step : ∀ node : Node, (∀ child ∈ node.children, motive child) → motive node) (node : Node) :
    motive node :=
  step node fun child _ => induction_on_children step child
termination_by node.count
decreasing_by exact count_lt_of_mem_children ‹_›

/-- The nodes still to be listed are those of the pending trees, one tree after the other. -/
theorem map_outlineFrom (pending : List (Nat × Node)) :
    (outlineFrom pending).map Prod.snd = (pending.map Prod.snd).flatMap preorder := by
  match pending with
  | [] => simp [outlineFrom]
  | (depth, node) :: pending =>
    have below (level : Nat) := map_outlineFrom (node.children.map fun child => (level, child))
    have later := map_outlineFrom (node.children.map (fun child => (depth + 1, child)) ++ pending)
    have root : node.preorder = node :: node.children.flatMap preorder := by
      rw [preorder, outline, outlineFrom, List.append_nil, List.map_cons, below]
      simp [List.map_map, Function.comp_def]
    rw [outlineFrom, List.map_cons, later, List.map_cons, List.flatMap_cons, root]
    simp [List.map_map, Function.comp_def]
termination_by countAll (pending.map Prod.snd)
decreasing_by
  · have := count_eq node
    simp only [List.map_map, Function.comp_def, List.map_id', List.map_cons, countAll]
    omega
  · have := count_eq node
    simp only [List.map_append, List.map_map, Function.comp_def, List.map_id', List.map_cons,
      countAll, countAll_append]
    omega

/-- The pre-order of a tree is its root and then the pre-orders of its children. -/
theorem preorder_eq (node : Node) : node.preorder = node :: node.children.flatMap preorder := by
  rw [preorder, outline, outlineFrom, List.append_nil, List.map_cons, map_outlineFrom]
  simp [List.map_map, Function.comp_def]

/-- A tree consists of its root and of the nodes of its children. -/
theorem mem_preorder_iff {node inner : Node} :
    inner ∈ node.preorder ↔ inner = node ∨ ∃ child ∈ node.children, inner ∈ child.preorder := by
  rw [preorder_eq, List.mem_cons, List.mem_flatMap]

/-- The node itself is the first of its nodes. -/
theorem mem_preorder_self (node : Node) : node ∈ node.preorder :=
  mem_preorder_iff.mpr (Or.inl rfl)

/-- A node of a tree is no taller than the tree. -/
theorem height_le_of_mem_preorder {node inner : Node} (h : inner ∈ node.preorder) :
    inner.height ≤ node.height := by
  induction node using induction_on_children with
  | step node ih =>
    rcases mem_preorder_iff.mp h with rfl | ⟨child, isChild, within⟩
    · exact le_rfl
    · exact (ih child isChild within).trans (height_lt_of_mem_children isChild).le

/-- A node of a tree opens no more brackets at once than the tree. -/
theorem bracketDepth_le_of_mem_preorder {node inner : Node} (h : inner ∈ node.preorder) :
    inner.bracketDepth ≤ node.bracketDepth := by
  induction node using induction_on_children with
  | step node ih =>
    rcases mem_preorder_iff.mp h with rfl | ⟨child, isChild, within⟩
    · exact le_rfl
    · exact (ih child isChild within).trans (bracketDepth_le_of_mem_children isChild)

end SinosLang.Node
