import SinosLang.Node.Basic

/-!
# The outline of a tree

The outline lists the nodes of a tree in pre-order, each with its depth. It keeps what is still to
be visited on a list, so trees of any height are fine.
-/

set_option autoImplicit false

namespace SinosLang.Node

/-- The outline of trees that are still to be visited, each standing at a depth. -/
def outlineFrom : List (Nat × Node) → List (Nat × Node)
  | [] => []
  | (depth, node) :: pending =>
    (depth, node) :: outlineFrom (node.children.map (fun child => (depth + 1, child)) ++ pending)
termination_by pending => countAll (pending.map Prod.snd)
decreasing_by
  have whole := count_eq node
  simp only [List.map_append, List.map_map, Function.comp_def, List.map_id', List.map_cons,
    countAll, countAll_append]
  omega

/-- The nodes of a tree in pre-order, each with its depth below the root. -/
def outline (node : Node) : List (Nat × Node) :=
  outlineFrom [(0, node)]

/-- The nodes of a tree in pre-order. -/
def preorder (node : Node) : List Node :=
  node.outline.map Prod.snd

end SinosLang.Node
