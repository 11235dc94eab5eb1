import SinosLang.Node.Outline
import SinosLang.Json

/-!
# The document of a tree

A tree becomes a JSON document from its leaves upwards: the nodes are taken in reverse pre-order,
and each takes the documents of its children from the top of the stack of those already made.
-/

set_option autoImplicit false

namespace SinosLang.Node

/-- The first of some documents, null if there is none. -/
def firstDocument (documents : List Json) : Json :=
  documents.head?.getD .null

/-- The members that a node adds to its kind and span, given the documents of its children. -/
def members (parts : List Json) : Node → List (Text × Json)
  | module _ _ => [("stmts".toList, .array parts)]
  | letStmt _ binding type? _ =>
    [("name".toList, .string binding), ("type".toList, (type?.map Json.string).getD .null),
      ("value".toList, firstDocument parts)]
  | exprStmt _ _ => [("expr".toList, firstDocument parts)]
  | block _ stmts _ =>
    [("stmts".toList, .array (parts.take stmts.length)),
      ("last_expr".toList, firstDocument (parts.drop stmts.length))]
  | binary _ op _ _ =>
    [("op".toList, .string op), ("left".toList, firstDocument parts),
      ("right".toList, firstDocument (parts.drop 1))]
  | unary _ op _ => [("op".toList, .string op), ("operand".toList, firstDocument parts)]
  | group _ _ => [("expr".toList, firstDocument parts)]
  | name _ value => [("value".toList, .string value)]
  | integer _ value => [("value".toList, .integer value)]
  | float _ value => [("value".toList, .float value)]
  | boolean _ value => [("value".toList, .boolean value)]
  | string _ value => [("value".toList, .string value)]

/-- The document of a node, given those of its children. -/
def documentWith (node : Node) (parts : List Json) : Json :=
  .object (
    ("kind".toList, .string node.kind) ::
    ("span".toList, .object [
      ("index".toList, .integer node.span.index), ("length".toList, .integer node.span.length)]) ::
    node.members parts)

/-- Puts the document of a node on the stack in place of those of its children. -/
def reduce (node : Node) (stack : List Json) : List Json :=
  let arity := node.children.length
  node.documentWith (stack.take arity) :: stack.drop arity

/-- The document of a tree. -/
def document (node : Node) : Json :=
  firstDocument (node.preorder.foldr reduce [])

end SinosLang.Node
