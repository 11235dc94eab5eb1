import SinosLang.Proofs.Node.Measure

/-!
# The spans of a tree

Two trees that differ in their spans only have the same shape. The shape of a tree is the tree with
every span set to the empty one at the start; moving a tree towards the start of its source lowers
every offset by the same number, and moving it away raises them.

Main statements: changing the spans of a tree changes neither its height nor the number of brackets
that are open at once.
-/

set_option autoImplicit false

namespace SinosLang

/-- The span that lies so many characters closer to the start. -/
def Span.back (offset : Nat) (span : Span) : Span :=
  ⟨span.index - offset, span.length⟩

/-- The span that lies so many characters further from the start. -/
def Span.forth (offset : Nat) (span : Span) : Span :=
  ⟨span.index + offset, span.length⟩

/-- The empty span at the start. -/
def Span.origin : Span :=
  ⟨0, 0⟩

namespace Node

mutual

/-- A tree with every span replaced by its image. -/
def mapSpans (g : Span → Span) : Node → Node
  | module span stmts => module (g span) (mapSpansAll g stmts)
  | letStmt span binding type? value => letStmt (g span) binding type? (mapSpans g value)
  | exprStmt span expr => exprStmt (g span) (mapSpans g expr)
  | block span stmts last? => block (g span) (mapSpansAll g stmts) (mapSpansOption g last?)
  | binary span op left right => binary (g span) op (mapSpans g left) (mapSpans g right)
  | unary span op operand => unary (g span) op (mapSpans g operand)
  | group span expr => group (g span) (mapSpans g expr)
  | name span value => name (g span) value
  | integer span value => integer (g span) value
  | float span value => float (g span) value
  | boolean span value => boolean (g span) value
  | string span value => string (g span) value

/-- Several trees with every span replaced by its image. -/
def mapSpansAll (g : Span → Span) : List Node → List Node
  | [] => []
  | node :: nodes => mapSpans g node :: mapSpansAll g nodes

/-- A tree that may be absent, with every span replaced by its image. -/
def mapSpansOption (g : Span → Span) : Option Node → Option Node
  | none => none
  | some node => some (mapSpans g node)

end

/-- The shape of a tree: the tree without its spans. -/
def erase (node : Node) : Node :=
  node.mapSpans fun _ => Span.origin

/-- A tree moved so many characters closer to the start of its source. -/
def back (offset : Nat) (node : Node) : Node :=
  node.mapSpans (Span.back offset)

/-- A tree moved so many characters further from the start of its source. -/
def forth (offset : Nat) (node : Node) : Node :=
  node.mapSpans (Span.forth offset)

variable (g : Span → Span)

/-- The spans of several trees are mapped tree by tree. -/
@[simp]
theorem mapSpansAll_eq_map (nodes : List Node) :
    mapSpansAll g nodes = nodes.map (mapSpans g) := by
  induction nodes with
  | nil => rfl
  | cons node nodes ih => rw [mapSpansAll, ih, List.map_cons]

/-- The spans of an optional tree are mapped if it is there. -/
@[simp]
theorem mapSpansOption_eq_map (node? : Option Node) :
    mapSpansOption g node? = node?.map (mapSpans g) := by
  cases node? <;> rfl

/-- Mapping the spans of a block leaves it a block, and makes no other node one. -/
@[simp]
theorem isBlock_mapSpans (node : Node) : (node.mapSpans g).isBlock = node.isBlock := by
  cases node <;> rfl

/-- Mapping the spans of a bracket leaves it one, and makes no other node one. -/
@[simp]
theorem isBracket_mapSpans (node : Node) : (node.mapSpans g).isBracket = node.isBracket := by
  cases node <;> rfl

/-- The children keep their places under a change of the spans. -/
theorem children_mapSpans (node : Node) :
    (node.mapSpans g).children = node.children.map (mapSpans g) := by
  cases node with
  | block span stmts last? => cases last? <;> simp [mapSpans, children]
  | _ => simp [mapSpans, children]

/-- Trees whose spans all stay as they are stay as they are. -/
theorem mapSpans_id (node : Node) : node.mapSpans id = node := by
  induction node using induction_on_children with
  | step node ih =>
    have all (nodes : List Node) (among : ∀ inner ∈ nodes, inner ∈ node.children) :
        nodes.map (mapSpans id) = nodes :=
      (List.map_congr_left fun inner isIn => ih inner (among inner isIn)).trans (List.map_id _)
    cases node with
    | module span stmts => simp [mapSpans, all stmts fun inner isIn => isIn]
    | block span stmts last? =>
      have whole := all stmts fun inner isIn => List.mem_append_left _ isIn
      cases last? with
      | none => simp [mapSpans, whole]
      | some last => simp [mapSpans, whole, ih last (by simp [children])]
    | _ =>
      simp only [children, List.mem_cons, List.not_mem_nil, or_false] at ih
      simp [mapSpans, ih]

/-- Mapping spans to themselves leaves trees as they are. -/
@[simp]
theorem map_mapSpans_id (nodes : List Node) : nodes.map (mapSpans id) = nodes :=
  (List.map_congr_left fun node _ => mapSpans_id node).trans (List.map_id _)

/-- Changing the spans twice changes them once, by both changes. -/
theorem mapSpans_mapSpans (h : Span → Span) (node : Node) :
    (node.mapSpans h).mapSpans g = node.mapSpans (g ∘ h) := by
  induction node using induction_on_children with
  | step node ih =>
    have all (nodes : List Node) (among : ∀ inner ∈ nodes, inner ∈ node.children) :
        (nodes.map (mapSpans h)).map (mapSpans g) = nodes.map (mapSpans (g ∘ h)) := by
      rw [List.map_map]
      exact List.map_congr_left fun inner isIn => ih inner (among inner isIn)
    cases node with
    | module span stmts =>
      simp only [mapSpans, mapSpansAll_eq_map, all stmts fun inner isIn => isIn, Function.comp_apply]
    | block span stmts last? =>
      have whole := all stmts fun inner isIn => List.mem_append_left _ isIn
      cases last? with
      | none =>
        simp only [mapSpans, mapSpansAll_eq_map, mapSpansOption, whole, Function.comp_apply]
      | some last =>
        simp only [mapSpans, mapSpansAll_eq_map, mapSpansOption, whole, Function.comp_apply,
          ih last (by simp [children])]
    | _ =>
      simp only [children, List.mem_cons, List.not_mem_nil, or_false] at ih
      simp [mapSpans, ih]

/-- The shape of a shape is itself. -/
theorem erase_mapSpans (node : Node) : (node.mapSpans g).erase = node.erase :=
  mapSpans_mapSpans _ g node

/-- A weight that does not look at spans measures a tree independently of its spans. -/
theorem heaviest_mapSpans {weigh : Node → Nat}
    (blind : ∀ node : Node, weigh (node.mapSpans g) = weigh node) (node : Node) :
    (node.mapSpans g).heaviest weigh = node.heaviest weigh := by
  induction node using induction_on_children with
  | step node ih =>
    rw [heaviest_eq, heaviest_eq, children_mapSpans, blind, List.map_map]
    congr 2
    exact List.map_congr_left fun child isChild => ih child isChild

/-- Mapping spans does not change the height of a tree. -/
@[simp]
theorem height_mapSpans (node : Node) : (node.mapSpans g).height = node.height :=
  heaviest_mapSpans g (fun _ => rfl) node

/-- Mapping spans does not change how deep brackets are nested. -/
@[simp]
theorem bracketDepth_mapSpans (node : Node) :
    (node.mapSpans g).bracketDepth = node.bracketDepth :=
  heaviest_mapSpans g (fun inner => by rw [isBracket_mapSpans]) node

/-- Trees of one shape are equally tall. -/
theorem height_eq_of_erase_eq {first second : Node} (same : first.erase = second.erase) :
    first.height = second.height := by
  rw [← height_mapSpans _ first, ← height_mapSpans _ second]
  exact congrArg height same

/-- Trees of one shape open equally many brackets at once. -/
theorem bracketDepth_eq_of_erase_eq {first second : Node} (same : first.erase = second.erase) :
    first.bracketDepth = second.bracketDepth := by
  rw [← bracketDepth_mapSpans _ first, ← bracketDepth_mapSpans _ second]
  exact congrArg bracketDepth same

end Node

end SinosLang
