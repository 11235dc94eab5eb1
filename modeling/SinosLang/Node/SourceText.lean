import SinosLang.Node.Listing

/-!
# The source text of a tree

A tree is written as source text by replacing each node with its pieces, literal text and children,
until only text is left. The pieces still to be written stand on a list, so trees of any height are
fine.
-/

set_option autoImplicit false

namespace SinosLang

/-- A piece of source text still to be written: text as it is, or a tree. -/
inductive Piece where
  | literal (text : Text)
  | tree (node : Node)

namespace Node

/-- Trees with a text between each two. -/
def separated (separator : Text) : List Node → List Piece
  | [] => []
  | [node] => [.tree node]
  | node :: next :: nodes => .tree node :: .literal separator :: separated separator (next :: nodes)

/-- The pieces of a node in the order of writing. Every expression statement gets its semicolon, and
an empty type name counts as none. -/
def pieces : Node → List Piece
  | module _ stmts => separated ['\n'] stmts
  | letStmt _ binding type? value =>
    let typePart :=
      match type? with
      | some type => if type.isEmpty then [] else ": ".toList ++ type
      | none => []
    [.literal ("let ".toList ++ binding ++ typePart ++ " = ".toList), .tree value, .literal [';']]
  | exprStmt _ expr => [.tree expr, .literal [';']]
  | block span stmts last? =>
    let parts := (block span stmts last?).children
    if parts.isEmpty then
      [.literal ['\x7b', '\x7d']]
    else
      .literal ['\x7b', ' '] :: separated [' '] parts ++ [.literal [' ', '\x7d']]
  | binary _ op left right => [.tree left, .literal (' ' :: op ++ [' ']), .tree right]
  | unary _ op operand => [.literal op, .tree operand]
  | group _ expr => [.literal ['('], .tree expr, .literal [')']]
  | name _ value => [.literal value]
  | integer _ value => [.literal (Text.ofInt value)]
  | float _ value => [.literal (Binary64.positional value)]
  | boolean _ value => [.literal (truthText value)]
  | string _ value => [.literal (Text.literal value)]

end Node

namespace Piece

/-- A bound on the steps that it takes to write a piece. -/
def weight : Piece → Nat
  | literal _ => 1
  | tree node => 3 * node.count - 1

/-- The weight of several pieces. -/
def weightAll : List Piece → Nat
  | [] => 0
  | piece :: pieces => piece.weight + weightAll pieces

/-- The weight of pieces in a row is the sum of their weights. -/
theorem weightAll_append (first second : List Piece) :
    weightAll (first ++ second) = weightAll first + weightAll second := by
  induction first with
  | nil => simp [weightAll]
  | cons piece pieces ih => simp [weightAll, ih, Nat.add_assoc]

/-- Separators are paid for by the trees that they stand between. -/
theorem weightAll_separated (separator : Text) (nodes : List Node) (nonempty : nodes ≠ []) :
    weightAll (Node.separated separator nodes) < 3 * Node.countAll nodes := by
  fun_induction Node.separated separator nodes with
  | case1 => exact absurd rfl nonempty
  | case2 node =>
    have := Node.count_eq node
    simp only [weightAll, weight, Node.countAll]
    omega
  | case3 node next nodes ih =>
    have := Node.count_eq node
    have := ih (by simp)
    simp only [weightAll, weight, Node.countAll] at this ⊢
    omega

/-- The pieces of a node weigh less than the node. -/
theorem weightAll_pieces (node : Node) : weightAll node.pieces < (Piece.tree node).weight := by
  have whole := Node.count_eq node
  have positive (child : Node) : 0 < child.count := by
    have := Node.count_eq child
    omega
  cases node with
  | module span stmts =>
    by_cases nonempty : stmts = []
    · simp [Node.pieces, Node.separated, weightAll, weight, nonempty, Node.count, Node.countAll]
    · have := weightAll_separated ['\n'] stmts nonempty
      simp only [Node.pieces, Node.children, weight] at whole this ⊢
      omega
  | block span stmts last? =>
    simp only [Node.pieces]
    split
    · simp only [weightAll, weight]
      omega
    next nonempty =>
      have := weightAll_separated [' '] (Node.block span stmts last?).children
        (by simpa using nonempty)
      simp only [List.cons_append, weightAll, weightAll_append, weight]
      omega
  | binary span op left right =>
    have := positive left
    have := positive right
    simp only [Node.pieces, Node.children, Node.countAll, weightAll, weight] at whole ⊢
    omega
  | letStmt span binding type? value =>
    have := positive value
    simp only [Node.pieces, Node.children, Node.countAll, weightAll, weight] at whole ⊢
    omega
  | exprStmt span child | unary span op child | group span child =>
    have := positive child
    simp only [Node.pieces, Node.children, Node.countAll, weightAll, weight] at whole ⊢
    omega
  | _ =>
    simp only [Node.pieces, Node.children, Node.countAll, weightAll, weight] at whole ⊢
    omega

/-- The text of pieces that are still to be written. -/
def write : List Piece → Text
  | [] => []
  | literal text :: pending => text ++ write pending
  | tree node :: pending => write (node.pieces ++ pending)
termination_by pending => weightAll pending
decreasing_by
  · simp [weightAll, weight]
  · have := weightAll_pieces node
    simp only [weightAll, weightAll_append]
    omega

end Piece

/-- A tree as source text. -/
def Node.sourceText (node : Node) : Text :=
  Piece.write [.tree node]

end SinosLang
