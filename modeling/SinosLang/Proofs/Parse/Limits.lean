import SinosLang.Proofs.Parse.Cursor

/-!
# Trees within the limits

A tree fits under some open brackets if none of the brackets on any of its paths meets the limit.
The parser checks both limits piece by piece, the brackets when they open and the heights when a
node is built; here is how the pieces add up to the whole tree.
-/

set_option autoImplicit false

namespace SinosLang

/-- A tree may stand where so many brackets are open: each bracket on a path through it finds room
for one more. -/
def Limits.Fits (limits : Limits) (nesting : Int) (node : Node) : Prop :=
  ∀ depth : Nat, depth < node.bracketDepth → limits.isFull (nesting + depth) = false

/-- A tree with the height that it really has. -/
def Node.measured (node : Node) : Measured :=
  ⟨node, node.height⟩

namespace Limits

variable {limits : Limits} {nesting : Int} {node child : Node}

/-- What opens fewer brackets fits as well. -/
theorem Fits.of_le (fits : limits.Fits nesting node)
    (le : child.bracketDepth ≤ node.bracketDepth) : limits.Fits nesting child :=
  fun depth less => fits depth (less.trans_le le)

/-- A child fits where its parent does. -/
theorem Fits.of_child (fits : limits.Fits nesting node) (isChild : child ∈ node.children) :
    limits.Fits nesting child :=
  fits.of_le (Node.bracketDepth_le_of_mem_children isChild)

/-- A node that opens no bracket weighs as much as its heaviest child. -/
theorem bracketDepth_eq_of_not_bracket (plain : node.isBracket = false) :
    node.bracketDepth = (node.children.map Node.bracketDepth).foldr max 0 := by
  rw [Node.bracketDepth, Node.heaviest_eq]
  simp only [plain, Bool.false_eq_true, if_false, Nat.zero_add]
  rfl

/-- A bracket adds one to what its children open. -/
theorem bracketDepth_eq_of_bracket (bracket : node.isBracket = true) :
    node.bracketDepth = (node.children.map Node.bracketDepth).foldr max 0 + 1 := by
  rw [Node.bracketDepth, Node.heaviest_eq]
  simp only [bracket, if_true]
  exact Nat.add_comm _ _

/-- What is below the maximum of some numbers is below one of them. -/
theorem exists_lt_of_lt_foldr_max {depths : List Nat} {depth : Nat}
    (less : depth < depths.foldr max 0) : ∃ deeper ∈ depths, depth < deeper := by
  induction depths with
  | nil => exact absurd less (Nat.not_lt_zero _)
  | cons first rest ih =>
    rw [List.foldr_cons] at less
    rcases lt_max_iff.mp less with here | there
    · exact ⟨first, List.mem_cons_self, here⟩
    · obtain ⟨deeper, isIn, less⟩ := ih there
      exact ⟨deeper, List.mem_cons_of_mem _ isIn, less⟩

/-- A node that opens no bracket fits where its children do. -/
theorem fits_of_children (plain : node.isBracket = false)
    (fits : ∀ child ∈ node.children, limits.Fits nesting child) : limits.Fits nesting node := by
  intro depth less
  rw [bracketDepth_eq_of_not_bracket plain] at less
  obtain ⟨_, isIn, less⟩ := exists_lt_of_lt_foldr_max less
  obtain ⟨child, isChild, rfl⟩ := List.mem_map.mp isIn
  exact fits child isChild depth less

/-- A bracket fits if it finds room and its children fit one bracket further in. -/
theorem fits_of_bracket (bracket : node.isBracket = true) (room : limits.isFull nesting = false)
    (fits : ∀ child ∈ node.children, limits.Fits (nesting + 1) child) :
    limits.Fits nesting node := by
  intro depth less
  rw [bracketDepth_eq_of_bracket bracket] at less
  cases depth with
  | zero => simpa using room
  | succ depth =>
    obtain ⟨_, isIn, less⟩ := exists_lt_of_lt_foldr_max (Nat.lt_of_succ_lt_succ less)
    obtain ⟨child, isChild, rfl⟩ := List.mem_map.mp isIn
    have := fits child isChild depth less
    rwa [Int.add_assoc, Int.add_comm 1] at this

/-- A bracket that fits finds room. -/
theorem Fits.room (fits : limits.Fits nesting node) (bracket : node.isBracket = true) :
    limits.isFull nesting = false := by
  have := fits 0 (by rw [bracketDepth_eq_of_bracket bracket]; exact Nat.succ_pos _)
  simpa using this

/-- The children of a bracket that fits do so one bracket further in. -/
theorem Fits.inside (fits : limits.Fits nesting node) (bracket : node.isBracket = true)
    (isChild : child ∈ node.children) : limits.Fits (nesting + 1) child := by
  intro depth less
  have bound : child.bracketDepth ≤ (node.children.map Node.bracketDepth).foldr max 0 :=
    Node.heaviest_le_of_mem _ isChild
  have := fits (depth + 1) (by rw [bracketDepth_eq_of_bracket bracket]; omega)
  rwa [Int.natCast_succ, Int.add_comm _ 1, ← Int.add_assoc] at this

/-- What is no taller than an allowed height is allowed. -/
theorem allows_of_le {height lower : Nat} (allowed : limits.allows height = true)
    (le : lower ≤ height) : limits.allows lower = true := by
  unfold allows at allowed ⊢
  split at allowed
  · exact decide_eq_true (le.trans (of_decide_eq_true allowed))
  · rfl

/-- A child is allowed where its parent is. -/
theorem allows_child (allowed : limits.allows node.height = true) (isChild : child ∈ node.children) :
    limits.allows child.height = true :=
  allows_of_le allowed (Node.height_lt_of_mem_children isChild).le

/-- Under the limits of the language at most forty brackets are open at once. -/
theorem fits_standard_iff :
    Limits.standard.Fits 0 node ↔ node.bracketDepth ≤ 40 := by
  constructor
  · intro fits
    by_contra deeper
    have := fits 40 (by omega)
    simp [isFull, standard] at this
  · intro bounded depth less
    simp only [isFull, standard, Int.zero_add, decide_eq_false_iff_not]
    omega

/-- The limits of the language allow the heights up to 256. -/
theorem standard_allows_iff {height : Nat} :
    Limits.standard.allows height = true ↔ height ≤ 256 := by
  simp [allows, standard]

/-- Without limits, every tree may stand wherever brackets are open. -/
theorem fits_unlimited : Limits.unlimited.Fits nesting node :=
  fun _ _ => rfl

end Limits

/-- The height recorded for a node whose parts are its children, all of them measured. -/
theorem Node.recorded_height {node : Node} {parts : List Node} (children_eq : node.children = parts) :
    ((parts.map Node.measured).map Measured.height).foldr max 0 + 1 = node.height := by
  rw [Node.height_eq, children_eq, List.map_map]
  rfl

/-- Measuring trees leaves them what they are. -/
@[simp]
theorem measured_nodes (nodes : List Node) :
    (nodes.map Node.measured).map Measured.node = nodes := by
  simp [Node.measured, Function.comp_def]

/-- Measuring an optional tree leaves it what it is. -/
@[simp]
theorem measured_node? (node? : Option Node) :
    (node?.map Node.measured).map Measured.node = node? := by
  cases node? <;> rfl

/-- Trees and an optional one behind them are measured one by one. -/
theorem measured_toList (nodes : List Node) (node? : Option Node) :
    nodes.map Node.measured ++ (node?.map Node.measured).toList =
      (nodes ++ node?.toList).map Node.measured := by
  cases node? <;> simp

end SinosLang
