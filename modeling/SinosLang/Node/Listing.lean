import SinosLang.Node.Outline
import SinosLang.Decimal.Shortest

/-!
# The listing of a tree

One line per node in pre-order, indented by depth. A line gives the kind and the span of the node
and what the node itself carries.
-/

set_option autoImplicit false

namespace SinosLang.Node

/-- The words for a truth value. -/
def truthText (value : Bool) : Text :=
  if value then "true".toList else "false".toList

/-- What a node carries besides its children, as its line shows it. -/
def payload : Node → Text
  | letStmt _ binding type? _ =>
    let typePart :=
      match type? with
      | some type => if type.isEmpty then [] else " : ".toList ++ type
      | none => []
    ' ' :: '"' :: binding ++ '"' :: typePart
  | binary _ op _ _ => ' ' :: op
  | unary _ op _ => ' ' :: op
  | name _ value => ' ' :: value
  | integer _ value => ' ' :: Text.ofInt value
  | float _ value => ' ' :: Binary64.compact value
  | boolean _ value => ' ' :: truthText value
  | string _ value => ' ' :: Text.json value
  | _ => []

/-- The line of a node without its indentation. -/
def header (node : Node) : Text :=
  node.kind ++ node.span.brackets ++ node.payload

/-- The listing of a tree, two spaces of indentation per level. -/
def listing (node : Node) : Text :=
  Text.joinLines (node.outline.map fun entry =>
    List.replicate (2 * entry.1) ' ' ++ entry.2.header)

end SinosLang.Node
