import SinosLang.Node.SourceText
import SinosLang.Proofs.Node.Spans

/-!
# The source text, node by node

The pieces of a tree are written one after the other, so the source text of a node is put together
from the texts of its children. Spans play no part in it.

Main statements: one equation for each kind of node, and `sourceText_mapSpans`.
-/

set_option autoImplicit false

namespace SinosLang

namespace Piece

/-- Pieces are written one after the other. -/
theorem write_append (first second : List Piece) :
    write (first ++ second) = write first ++ write second := by
  fun_induction write first with
  | case1 => rfl
  | case2 text pending ih => rw [List.cons_append, write, ih, List.append_assoc]
  | case3 node pending ih => rw [List.cons_append, write, ← List.append_assoc, ih]

/-- Nothing left to write is written as nothing. -/
@[simp]
theorem write_nil : write [] = [] := by
  rw [write]

/-- A literal piece is written in front of the others. -/
@[simp]
theorem write_literal (text : Text) (pending : List Piece) :
    write (.literal text :: pending) = text ++ write pending := by
  rw [write]

/-- A tree is written in front of the pieces behind it. -/
@[simp]
theorem write_tree (node : Node) (pending : List Piece) :
    write (.tree node :: pending) = node.sourceText ++ write pending :=
  write_append [.tree node] pending

/-- The first of several trees, and each of the others behind a separator. -/
@[simp]
theorem write_separated (separator : Text) (first : Node) (nodes : List Node) :
    write (Node.separated separator (first :: nodes)) =
      first.sourceText ++ nodes.flatMap fun node => separator ++ node.sourceText := by
  induction nodes generalizing first with
  | nil => rw [Node.separated, write_tree, write_nil, List.flatMap_nil]
  | cons next nodes ih =>
    rw [Node.separated, write_tree, write_literal, ih, List.flatMap_cons, List.append_assoc]

end Piece

namespace Node

variable (span : Span)

/-- A node is written as its pieces. -/
theorem sourceText_eq (node : Node) : node.sourceText = Piece.write node.pieces := by
  rw [sourceText, Piece.write, List.append_nil]

/-- A program without statements is written as nothing. -/
@[simp]
theorem sourceText_module_nil : (module span []).sourceText = [] := by
  simp [sourceText_eq, pieces, separated]

/-- A program is written statement by statement, with a line break before all but the first. -/
@[simp]
theorem sourceText_module_cons (first : Node) (stmts : List Node) :
    (module span (first :: stmts)).sourceText =
      first.sourceText ++ stmts.flatMap fun stmt => '\n' :: stmt.sourceText := by
  simp [sourceText_eq (module _ _), pieces]

/-- The type of a binding is written behind a colon, if there is one. -/
theorem sourceText_letStmt (binding : Text) {type? : Option Text} (filled : type? ≠ some [])
    (value : Node) :
    (letStmt span binding type? value).sourceText =
      "let ".toList ++ binding ++ (type?.elim [] fun type => ": ".toList ++ type) ++
        " = ".toList ++ value.sourceText ++ [';'] := by
  cases type? with
  | none => simp [sourceText_eq (letStmt _ _ _ _), pieces]
  | some type =>
    have named : type ≠ [] := fun isEmpty => filled (congrArg some isEmpty)
    simp [sourceText_eq (letStmt _ _ _ _), pieces, named]

/-- An expression statement is its expression and a semicolon. -/
@[simp]
theorem sourceText_exprStmt (expr : Node) :
    (exprStmt span expr).sourceText = expr.sourceText ++ [';'] := by
  simp [sourceText_eq (exprStmt _ _), pieces]

/-- A blank stands before every child of a block and before the closing brace, unless the block is
empty. -/
theorem sourceText_block (stmts : List Node) (last? : Option Node) :
    (block span stmts last?).sourceText =
      '\x7b' :: (stmts ++ last?.toList).flatMap (fun part => ' ' :: part.sourceText) ++
        if (stmts ++ last?.toList).isEmpty then ['\x7d'] else [' ', '\x7d'] := by
  rw [sourceText_eq, pieces, children]
  cases stmts ++ last?.toList with
  | nil => simp
  | cons first parts => simp [Piece.write_append]

/-- A binary expression is its operands with the operator between spaces. -/
@[simp]
theorem sourceText_binary (op : Text) (left right : Node) :
    (binary span op left right).sourceText =
      left.sourceText ++ ' ' :: op ++ ' ' :: right.sourceText := by
  simp [sourceText_eq (binary _ _ _ _), pieces]

/-- A unary expression is its operator and its operand. -/
@[simp]
theorem sourceText_unary (op : Text) (operand : Node) :
    (unary span op operand).sourceText = op ++ operand.sourceText := by
  simp [sourceText_eq (unary _ _ _), pieces]

/-- A group is its expression in parentheses. -/
@[simp]
theorem sourceText_group (expr : Node) :
    (group span expr).sourceText = '(' :: expr.sourceText ++ [')'] := by
  simp [sourceText_eq (group _ _), pieces]

/-- A name is written as itself. -/
@[simp]
theorem sourceText_name (value : Text) : (name span value).sourceText = value := by
  simp [sourceText_eq, pieces]

/-- An integer is written in decimal digits. -/
@[simp]
theorem sourceText_integer (value : Int) : (integer span value).sourceText = Text.ofInt value := by
  simp [sourceText_eq, pieces]

/-- A floating-point number is written in positional notation. -/
@[simp]
theorem sourceText_float (value : Binary64) :
    (float span value).sourceText = Binary64.positional value := by
  simp [sourceText_eq, pieces]

/-- A truth value is written as its word. -/
@[simp]
theorem sourceText_boolean (value : Bool) : (boolean span value).sourceText = truthText value := by
  simp [sourceText_eq, pieces]

/-- A string is written as a literal. -/
@[simp]
theorem sourceText_string (value : Text) :
    (string span value).sourceText = Text.literal value := by
  simp [sourceText_eq, pieces]

/-- The source text of a tree does not depend on the spans. -/
@[simp]
theorem sourceText_mapSpans (g : Span → Span) (node : Node) :
    (node.mapSpans g).sourceText = node.sourceText := by
  induction node using induction_on_children with
  | step node ih =>
    have all (separator : Char) (nodes : List Node)
        (among : ∀ inner ∈ nodes, inner ∈ node.children) :
        (nodes.map (mapSpans g)).flatMap (fun inner => separator :: inner.sourceText) =
          nodes.flatMap fun inner => separator :: inner.sourceText := by
      rw [List.flatMap_map]
      exact List.flatMap_congr fun inner isIn => by rw [ih inner (among inner isIn)]
    cases node with
    | module span stmts =>
      cases stmts with
      | nil => simp [mapSpans]
      | cons first stmts =>
        have others := all '\n' stmts fun inner isIn => List.mem_cons_of_mem _ isIn
        simp [mapSpans, ih first List.mem_cons_self, others]
    | letStmt span binding type? value =>
      have same := ih value List.mem_cons_self
      simp only [sourceText_eq (letStmt _ _ _ _), mapSpans, pieces, Piece.write_literal,
        Piece.write_tree, same]
    | block span stmts last? =>
      have others := all ' ' stmts fun inner isIn => List.mem_append_left _ isIn
      cases last? with
      | none => simp [mapSpans, sourceText_block, others]
      | some last => simp [mapSpans, sourceText_block, others, ih last (by simp [children])]
    | _ =>
      simp only [children, List.mem_cons, List.not_mem_nil, or_false] at ih
      simp [mapSpans, ih]

/-- Trees of one shape have one source text. -/
theorem sourceText_eq_of_erase_eq {first second : Node} (same : first.erase = second.erase) :
    first.sourceText = second.sourceText := by
  rw [← sourceText_mapSpans _ first, ← sourceText_mapSpans _ second]
  exact congrArg sourceText same

end Node

end SinosLang
