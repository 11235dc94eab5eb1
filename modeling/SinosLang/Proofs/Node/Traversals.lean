import SinosLang.Proofs.Node.Occurrences
import SinosLang.Proofs.Node.Writing
import Mathlib

/-!
# Traversals of a tree

The outline and the source text of a tree are made by loops over what is still to be done: trees to be
visited, or pieces to be written. What such a loop gives is what each entry gives by itself, one after
the other, so the loops agree with recursions over the children. A recursion over the children has one
solution, and the pieces of a node have its children in order.

Main statement: `traversals_recursive`.
-/

set_option autoImplicit false

namespace SinosLang

namespace Piece

/-- A piece, where trees are written as the given function writes them. -/
def writtenBy (text : Node → Text) : Piece → Text
  | literal words => words
  | tree node => text node

/-- The tree that a piece is, if it is one. -/
def tree? : Piece → Option Node
  | literal _ => none
  | tree node => some node

/-- The pieces that are still to be written give what each of them gives by itself. -/
theorem write_eq_flatMap (pending : List Piece) :
    write pending = pending.flatMap (writtenBy Node.sourceText) := by
  induction pending with
  | nil => rw [write_nil, List.flatMap_nil]
  | cons piece pending ih =>
    cases piece with
    | literal words => rw [write_literal, ih, List.flatMap_cons, writtenBy]
    | tree node => rw [write_tree, ih, List.flatMap_cons, writtenBy]

end Piece

namespace Node

/-- Separators leave the trees between them as they are. -/
theorem trees_separated (separator : Text) (nodes : List Node) :
    (separated separator nodes).filterMap Piece.tree? = nodes := by
  fun_induction separated separator nodes with
  | case1 => rfl
  | case2 node => rfl
  | case3 node next nodes ih => exact congrArg (node :: ·) ih

/-- The trees among the pieces of a node are its children. -/
theorem trees_pieces (node : Node) : node.pieces.filterMap Piece.tree? = node.children := by
  cases node with
  | module span stmts => exact trees_separated _ stmts
  | block span stmts last? =>
    rw [pieces]
    split
    next childless => exact (List.isEmpty_iff.mp childless).symm
    next =>
      rw [List.filterMap_append, List.filterMap_cons_none rfl, trees_separated]
      exact List.append_nil _
  | _ => rfl

/-- A tree that is a piece of a node is a child of it. -/
theorem mem_children_of_mem_pieces {node child : Node} (isPiece : .tree child ∈ node.pieces) :
    child ∈ node.children := by
  rw [← trees_pieces]
  exact List.mem_filterMap.mpr ⟨.tree child, isPiece, rfl⟩

/-- A recursion over the children has one solution at most. -/
theorem eq_of_recursion {β : Type} {first second : Node → β}
    (step : ∀ node : Node, (∀ child ∈ node.children, first child = second child) →
      first node = second node) : first = second :=
  funext fun node => induction_on_children step node

/-- The pre-order is the one that lists a node and then the pre-orders of its children. -/
theorem preorder_unique (walk : Node → List Node) :
    (∀ node, walk node = node :: node.children.flatMap walk) ↔ walk = preorder := by
  constructor
  · intro recursion
    refine eq_of_recursion fun node ih => ?_
    rw [recursion, preorder_eq, List.flatMap_congr ih]
  · rintro rfl node
    exact preorder_eq node

/-- The source text is the one that is put together from the pieces of a node, with the texts of its
children in place of the children. -/
theorem sourceText_unique (text : Node → Text) :
    (∀ node, text node = node.pieces.flatMap (Piece.writtenBy text)) ↔ text = sourceText := by
  constructor
  · intro recursion
    refine eq_of_recursion fun node ih => ?_
    rw [recursion, sourceText_eq, Piece.write_eq_flatMap]
    refine List.flatMap_congr fun piece isPiece => ?_
    cases piece with
    | literal words => rfl
    | tree child => exact ih child (mem_children_of_mem_pieces isPiece)
  · rintro rfl node
    rw [sourceText_eq, Piece.write_eq_flatMap]

/-- The loops over pending work do what recursions over the children do. The pre-order and the source
text are the only functions that satisfy their recursions. The places of a tree, in the lexicographic
order of their addresses and so each of them once, are what the pre-order lists; the listing has their
headers in this order, each indented by twice the depth. The trees among the pieces of a node are its
children. -/
theorem traversals_recursive :
    (∀ walk : Node → List Node,
      (∀ node, walk node = node :: node.children.flatMap walk) ↔ walk = preorder) ∧
    (∀ text : Node → Text,
      (∀ node, text node = node.pieces.flatMap (Piece.writtenBy text)) ↔ text = sourceText) ∧
    ∀ node : Node,
      (node.occurrences.map Prod.fst).Pairwise (· < ·) ∧
      (∀ address inner,
        (address, inner) ∈ node.occurrences ↔ node.descend? address = some inner) ∧
      node.preorder = node.occurrences.map Prod.snd ∧
      node.listing = Text.joinLines (node.occurrences.map fun (address, inner) =>
        List.replicate (2 * address.length) ' ' ++ inner.header) ∧
      node.pieces.filterMap Piece.tree? = node.children := by
  refine ⟨preorder_unique, sourceText_unique, fun node => ?_⟩
  have outline_eq : node.outline = node.occurrences.map fun place => (place.1.length, place.2) := by
    rw [outline_eq_levels, levels_eq_occurrences]
    simp only [Nat.zero_add]
  refine ⟨pairwise_occurrences node, fun _ _ => mem_occurrences_iff, ?_, ?_, trees_pieces node⟩
  · rw [preorder, outline_eq, List.map_map]
    rfl
  · rw [listing, outline_eq, List.map_map]
    rfl

/-- One leaf at two places is listed twice, the operator before both. -/
example :
    let leaf := name ⟨0, 0⟩ ['x']
    (binary ⟨0, 0⟩ ['+'] leaf (unary ⟨0, 0⟩ ['-'] leaf)).occurrences.map Prod.fst =
      [[], [0], [1], [1, 0]] := by
  cbv

end Node

end SinosLang
