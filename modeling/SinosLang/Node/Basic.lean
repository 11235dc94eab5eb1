import SinosLang.Source
import SinosLang.Decimal.Binary64

/-!
# Syntax trees

A node of a syntax tree has a kind, a span and the fields of its kind. Trees that the parser builds
keep to the grammar; trees that are built by hand need not. Main statement: the nodes of a tree are
its root and the nodes of the children.
-/

set_option autoImplicit false

namespace SinosLang

/-- A node of a syntax tree. Operators are kept as they are spelled. -/
inductive Node where
  | module (span : Span) (stmts : List Node)
  | letStmt (span : Span) (name : Text) (type? : Option Text) (value : Node)
  | exprStmt (span : Span) (expr : Node)
  | block (span : Span) (stmts : List Node) (last? : Option Node)
  | binary (span : Span) (op : Text) (left right : Node)
  | unary (span : Span) (op : Text) (operand : Node)
  | group (span : Span) (expr : Node)
  | name (span : Span) (value : Text)
  | integer (span : Span) (value : Int)
  | float (span : Span) (value : Binary64)
  | boolean (span : Span) (value : Bool)
  | string (span : Span) (value : Text)

namespace Node

/-- The span of a node. -/
def span : Node → Span
  | module span _ => span
  | letStmt span _ _ _ => span
  | exprStmt span _ => span
  | block span _ _ => span
  | binary span _ _ _ => span
  | unary span _ _ => span
  | group span _ => span
  | name span _ => span
  | integer span _ => span
  | float span _ => span
  | boolean span _ => span
  | string span _ => span

/-- The name of a node's kind. -/
def kind : Node → Text
  | module .. => "module".toList
  | letStmt .. => "letStmt".toList
  | exprStmt .. => "exprStmt".toList
  | block .. => "block".toList
  | binary .. => "binary".toList
  | unary .. => "unary".toList
  | group .. => "group".toList
  | name .. => "name".toList
  | integer .. => "integer".toList
  | float .. => "float".toList
  | boolean .. => "boolean".toList
  | string .. => "string".toList

/-- Whether a node is a block. -/
def isBlock : Node → Bool
  | block .. => true
  | _ => false

/-- The children of a node in source order. -/
def children : Node → List Node
  | module _ stmts => stmts
  | letStmt _ _ _ value => [value]
  | exprStmt _ expr => [expr]
  | block _ stmts last? => stmts ++ last?.toList
  | binary _ _ left right => [left, right]
  | unary _ _ operand => [operand]
  | group _ expr => [expr]
  | _ => []

mutual

/-- The number of nodes of a tree. -/
def count : Node → Nat
  | module _ stmts => countAll stmts + 1
  | letStmt _ _ _ value => count value + 1
  | exprStmt _ expr => count expr + 1
  | block _ stmts last? => countAll stmts + countOption last? + 1
  | binary _ _ left right => count left + count right + 1
  | unary _ _ operand => count operand + 1
  | group _ expr => count expr + 1
  | _ => 1

/-- The number of nodes of several trees. -/
def countAll : List Node → Nat
  | [] => 0
  | node :: nodes => count node + countAll nodes

/-- The number of nodes of a tree that may be absent. -/
def countOption : Option Node → Nat
  | none => 0
  | some node => count node

end

mutual

/-- Whether two trees are equal in all their fields. Floats are compared as numbers. -/
def same : Node → Node → Bool
  | module s xs, module t ys => s == t && sameAll xs ys
  | letStmt s a p x, letStmt t b q y => s == t && a == b && p == q && same x y
  | exprStmt s x, exprStmt t y => s == t && same x y
  | block s xs p, block t ys q => s == t && sameAll xs ys && sameOption p q
  | binary s f a b, binary t g x y => s == t && f == g && same a x && same b y
  | unary s f x, unary t g y => s == t && f == g && same x y
  | group s x, group t y => s == t && same x y
  | name s a, name t b => s == t && a == b
  | integer s a, integer t b => s == t && a == b
  | float s a, float t b => s == t && Binary64.same a b
  | boolean s a, boolean t b => s == t && a == b
  | string s a, string t b => s == t && a == b
  | _, _ => false

/-- Whether two lists of trees are equal in all their fields. -/
def sameAll : List Node → List Node → Bool
  | [], [] => true
  | x :: xs, y :: ys => same x y && sameAll xs ys
  | _, _ => false

/-- Whether two trees that may be absent are both absent or equal in all their fields. -/
def sameOption : Option Node → Option Node → Bool
  | none, none => true
  | some x, some y => same x y
  | _, _ => false

end

/-- The nodes of two lists of trees are counted one list after the other. -/
theorem countAll_append (first second : List Node) :
    countAll (first ++ second) = countAll first + countAll second := by
  induction first with
  | nil => simp [countAll]
  | cons node nodes ih => simp [countAll, ih, Nat.add_assoc]

/-- An optional tree has as many nodes as the list of it. -/
theorem countAll_toList (node? : Option Node) : countAll node?.toList = countOption node? := by
  cases node? <;> simp [countAll, countOption]

/-- The nodes of a tree are its root and the nodes of the children. -/
theorem count_eq (node : Node) : node.count = countAll node.children + 1 := by
  cases node <;> simp [count, children, countAll, countAll_append, countAll_toList]

end Node

end SinosLang
