import SinosLang.Node.Document
import SinosLang.Proofs.Node.Measure

/-!
# The document of a tree is made of those of its children

Documents are made in reverse pre-order on a stack. When it is the turn of a node, the documents of
its children are the topmost ones, whatever lies below, so no document of a child is ever missing.

Main statements: `document_eq_object` and `foldrM_reduce?_preorder`.
-/

set_option autoImplicit false

namespace SinosLang.Node

/-- Puts the document of a node on the stack like `reduce`, unless a document of a child is
missing. -/
def reduce? (node : Node) (stack : List Json) : Option (List Json) :=
  if node.children.length ≤ stack.length then some (node.reduce stack) else none

/-- On top of the documents of its children, a node is reduced to the document that has them. -/
theorem reduce?_eq (node : Node) (stack : List Json) :
    node.reduce? (node.children.map document ++ stack) =
      some (node.documentWith (node.children.map document) :: stack) := by
  have enough : node.children.length ≤ (node.children.map document ++ stack).length := by
    rw [List.length_append, List.length_map]
    exact Nat.le_add_right _ _
  have arity : node.children.length = (node.children.map document).length :=
    (List.length_map _).symm
  rw [reduce?, if_pos enough, reduce, arity, List.take_left, List.drop_left]

/-- Several trees leave their documents on top of any stack, if each of them does. -/
theorem foldrM_reduce?_flatMap {nodes : List Node}
    (each : ∀ node ∈ nodes, ∀ stack,
      node.preorder.foldrM reduce? stack = some (node.document :: stack)) (stack : List Json) :
    (nodes.flatMap preorder).foldrM reduce? stack = some (nodes.map document ++ stack) := by
  induction nodes with
  | nil => rfl
  | cons node nodes ih =>
    rw [List.flatMap_cons, List.foldrM_append, ih fun other isIn => each other (.tail _ isIn)]
    exact each node List.mem_cons_self _

/-- What is never missing need not be looked for. -/
theorem foldr_reduce_of_foldrM {nodes : List Node} {stack final : List Json}
    (run : nodes.foldrM reduce? stack = some final) : nodes.foldr reduce stack = final := by
  induction nodes generalizing final with
  | nil => exact Option.some.inj run
  | cons node nodes ih =>
    rw [List.foldrM_cons] at run
    obtain ⟨middle, before, step⟩ := Option.bind_eq_some_iff.mp run
    rw [List.foldr_cons, ih before]
    unfold reduce? at step
    split at step
    · exact Option.some.inj step
    · cases step

/-- A tree leaves its document on top of any stack, and it is the one with the documents of its
children. -/
theorem foldrM_reduce?_preorder_and (node : Node) :
    node.document = node.documentWith (node.children.map document) ∧
      ∀ stack, node.preorder.foldrM reduce? stack = some (node.document :: stack) := by
  induction node using induction_on_children with
  | step node ih =>
    have run (stack : List Json) : node.preorder.foldrM reduce? stack =
        some (node.documentWith (node.children.map document) :: stack) := by
      rw [preorder_eq, List.foldrM_cons,
        foldrM_reduce?_flatMap (fun child isChild => (ih child isChild).2)]
      exact reduce?_eq node stack
    have document_eq : node.document = node.documentWith (node.children.map document) := by
      rw [document, foldr_reduce_of_foldrM (run [])]
      rfl
    refine ⟨document_eq, fun stack => ?_⟩
    rw [run, document_eq]

/-- The document of a node is the one with the documents of its children. -/
theorem document_eq (node : Node) :
    node.document = node.documentWith (node.children.map document) :=
  (foldrM_reduce?_preorder_and node).1

/-- What the document of a node has besides its kind and span, each child by its document. -/
def fields : Node → List (Text × Json)
  | module _ stmts => [("stmts".toList, .array (stmts.map document))]
  | letStmt _ binding type? value =>
    [("name".toList, .string binding), ("type".toList, (type?.map Json.string).getD .null),
      ("value".toList, value.document)]
  | exprStmt _ expr => [("expr".toList, expr.document)]
  | block _ stmts last? =>
    [("stmts".toList, .array (stmts.map document)),
      ("last_expr".toList, (last?.map document).getD .null)]
  | binary _ op left right =>
    [("op".toList, .string op), ("left".toList, left.document), ("right".toList, right.document)]
  | unary _ op operand => [("op".toList, .string op), ("operand".toList, operand.document)]
  | group _ expr => [("expr".toList, expr.document)]
  | name _ value => [("value".toList, .string value)]
  | integer _ value => [("value".toList, .integer value)]
  | float _ value => [("value".toList, .float value)]
  | boolean _ value => [("value".toList, .boolean value)]
  | string _ value => [("value".toList, .string value)]

/-- The kind and the span of a node, as its document has them. -/
def position (node : Node) : List (Text × Json) :=
  [("kind".toList, .string node.kind),
    ("span".toList, .object [("index".toList, .integer node.span.index),
      ("length".toList, .integer node.span.length)])]

/-- The document of a node has its kind, its span and its fields. -/
theorem document_eq_object (node : Node) : node.document = .object (node.position ++ node.fields) := by
  have members_eq : node.members (node.children.map document) = node.fields := by
    cases node with
    | block span stmts last? =>
      have arity : stmts.length = (stmts.map document).length := (List.length_map _).symm
      rw [members, children, List.map_append, arity, List.take_left, List.drop_left]
      cases last? <;> rfl
    | _ => rfl
  rw [document_eq, documentWith, members_eq]
  rfl

/-- The document of a node is an object. -/
theorem document_ne_null (node : Node) : node.document ≠ .null := by
  rw [document_eq_object]
  exact nofun

/-- No document is missing when that of a tree is made. -/
theorem foldrM_reduce?_preorder (node : Node) (stack : List Json) :
    node.preorder.foldrM reduce? stack = some (node.document :: stack) :=
  (foldrM_reduce?_preorder_and node).2 stack

end SinosLang.Node
