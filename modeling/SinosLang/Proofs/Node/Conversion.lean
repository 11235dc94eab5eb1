import SinosLang.Proofs.Node.Comparison
import SinosLang.Proofs.Node.Traversals
import Mathlib

/-!
# The conversion of a tree to a document

The documents of the nodes of a tree may also be filed under keys that stand for the nodes, such as
their identities: the nodes are taken in reverse pre-order, and each finds the documents of its children
filed. A node that stands at several places has one key, and its document is filed anew for each of
them. Since a place comes before all places below it, no document of a child is missing, and what is
filed anew is the same document.

Nothing is lost by the conversion: the document tells the kind of a node, its span and all its fields.

Main statement: `conversion_faithful`.
-/

set_option autoImplicit false

namespace SinosLang

namespace Node

variable {node other inner child : Node} {address : List Nat}

/-! ## Documents under keys -/

section Filing

variable {Key : Type} [DecidableEq Key] (key : List Nat → Key)

/-- Nodes with one key are the same, wherever in the tree they stand. -/
def Identifies (key : List Nat → Key) (node : Node) : Prop :=
  ∀ address address' inner inner', node.descend? address = some inner →
    node.descend? address' = some inner' → key address = key address' → inner = inner'

/-- Files the document of the node at a place under its key, made of those that are filed under the keys
of its children, unless one of them is missing. -/
def file? (place : List Nat × Node) (filed : Key → Option Json) : Option (Key → Option Json) := do
  let parts ← place.2.children.zipIdx.mapM fun entry => filed (key (place.1 ++ [entry.2]))
  return Function.update filed (key place.1) (some (place.2.documentWith parts))

/-- The document of a tree that is filed last, if no document of a child is missing before. -/
def filedDocument? (node : Node) : Option Json := do
  let filed ← node.occurrences.foldrM (file? key) fun _ => none
  filed (key [])

/-- If every item is found, all items are. -/
theorem mapM_eq_some {α β : Type} {items : List α} {find? : α → Option β} {value : α → β}
    (found : ∀ item ∈ items, find? item = some (value item)) :
    items.mapM find? = some (items.map value) := by
  induction items with
  | nil => rfl
  | cons item items ih =>
    rw [List.mapM_cons, found item List.mem_cons_self, ih fun other isIn => found other (.tail _ isIn)]
    rfl

/-- The places of the children of a node come behind that of the node. -/
theorem child_mem_later {earlier later : List (List Nat × Node)} {number : Nat}
    (shape : node.occurrences = earlier ++ (address, inner) :: later)
    (isChild : inner.children[number]? = some child) : (address ++ [number], child) ∈ later := by
  have stands : node.descend? address = some inner := by
    rw [← mem_occurrences_iff, shape]
    exact List.mem_append_right _ List.mem_cons_self
  have below := mem_occurrences_iff.mpr (descend?_child stands isChild)
  have deeper : address < address ++ [number] := by
    clear shape stands below
    induction address with
    | nil => exact List.nil_lt_cons _ _
    | cons first address ih => exact List.cons_lt_cons_self.mpr ih
  have sorted := pairwise_occurrences node
  rw [shape, List.map_append, List.map_cons, List.pairwise_append] at sorted
  rw [shape, List.mem_append, List.mem_cons] at below
  rcases below with before | same | behind
  · have before := sorted.2.2 _ (List.mem_map_of_mem before) _ List.mem_cons_self
    exact absurd (List.lt_trans before deeper) (List.lt_irrefl _)
  · exact absurd (Prod.mk.inj same).1 (by simp)
  · exact behind

/-- Behind any place, the documents of all nodes are filed under their keys. -/
theorem exists_filed (identifies : node.Identifies key) {earlier later : List (List Nat × Node)}
    (shape : node.occurrences = earlier ++ later) :
    ∃ filed, later.foldrM (file? key) (fun _ => none) = some filed ∧
      ∀ place ∈ later, filed (key place.1) = some place.2.document := by
  induction later generalizing earlier with
  | nil => exact ⟨_, rfl, List.forall_mem_nil _⟩
  | cons place later ih =>
    obtain ⟨address, inner⟩ := place
    obtain ⟨filed, run, found⟩ := ih (shape.trans (List.append_cons earlier _ later))
    have parts_eq : inner.children.zipIdx.mapM (fun entry => filed (key (address ++ [entry.2]))) =
        some (inner.children.map document) := by
      have documents : inner.children.map document =
          inner.children.zipIdx.map fun entry => entry.1.document := by
        conv_lhs => rw [← List.zipIdx_map_fst 0 inner.children, List.map_map]
        rfl
      rw [documents]
      refine mapM_eq_some fun entry isChild => ?_
      have isChild := List.mem_zipIdx_iff_getElem?.mp isChild
      exact found _ (child_mem_later shape isChild)
    have stands {place : List Nat × Node} (isIn : place ∈ (address, inner) :: later) :
        node.descend? place.1 = some place.2 := by
      rw [← mem_occurrences_iff, shape]
      exact List.mem_append_right _ isIn
    refine ⟨Function.update filed (key address) (some inner.document), ?_, ?_⟩
    · rw [List.foldrM_cons, run]
      show file? key (address, inner) filed = _
      rw [file?, parts_eq, document_eq inner]
      rfl
    · intro place isIn
      by_cases same : key place.1 = key address
      · have same_node := identifies _ _ _ _ (stands isIn) (stands List.mem_cons_self) same
        rw [same, Function.update_self, same_node]
      · rw [Function.update_of_ne same]
        rcases List.mem_cons.mp isIn with rfl | isLater
        · exact absurd rfl same
        · exact found place isLater

/-- Filed under keys, the document of a tree is found. -/
theorem filedDocument?_eq (identifies : node.Identifies key) :
    node.filedDocument? key = some node.document := by
  obtain ⟨filed, run, found⟩ := exists_filed key identifies (List.nil_append node.occurrences).symm
  rw [filedDocument?, run]
  exact found ([], node) (mem_occurrences_iff.mpr rfl)

end Filing

/-! ## The recursion -/

/-- What the document of a node has besides its kind and span, where children are converted by the given
function. -/
def fieldsBy (convert : Node → Json) : Node → List (Text × Json)
  | module _ stmts => [("stmts".toList, .array (stmts.map convert))]
  | letStmt _ binding type? value =>
    [("name".toList, .string binding), ("type".toList, (type?.map Json.string).getD .null),
      ("value".toList, convert value)]
  | exprStmt _ expr => [("expr".toList, convert expr)]
  | block _ stmts last? =>
    [("stmts".toList, .array (stmts.map convert)),
      ("last_expr".toList, (last?.map convert).getD .null)]
  | binary _ op left right =>
    [("op".toList, .string op), ("left".toList, convert left), ("right".toList, convert right)]
  | unary _ op operand => [("op".toList, .string op), ("operand".toList, convert operand)]
  | group _ expr => [("expr".toList, convert expr)]
  | name _ value => [("value".toList, .string value)]
  | integer _ value => [("value".toList, .integer value)]
  | float _ value => [("value".toList, .float value)]
  | boolean _ value => [("value".toList, .boolean value)]
  | string _ value => [("value".toList, .string value)]

/-- The fields of a node are those with its children converted to documents. -/
theorem fields_eq_fieldsBy (node : Node) : node.fields = node.fieldsBy document := by
  cases node <;> rfl

/-- Only the children are converted. -/
theorem fieldsBy_congr {first second : Node → Json}
    (agree : ∀ child ∈ node.children, first child = second child) :
    node.fieldsBy first = node.fieldsBy second := by
  cases node with
  | module span stmts =>
    have stmts_eq : stmts.map first = stmts.map second := List.map_congr_left agree
    rw [fieldsBy, fieldsBy, stmts_eq]
  | block span stmts last? =>
    have stmts_eq : stmts.map first = stmts.map second :=
      List.map_congr_left fun stmt isStmt => agree stmt (List.mem_append_left _ isStmt)
    have last_eq : last?.map first = last?.map second :=
      Option.map_congr fun last isLast =>
        agree last (List.mem_append_right _ (Option.mem_toList.mpr isLast))
    rw [fieldsBy, fieldsBy, stmts_eq, last_eq]
  | binary span op left right =>
    rw [fieldsBy, fieldsBy, agree left (by simp [children]), agree right (by simp [children])]
  | letStmt span binding type? child | exprStmt span child | unary span op child
  | group span child =>
    rw [fieldsBy, fieldsBy, agree child List.mem_cons_self]
  | _ => rfl

/-- The document is the one that has the kind of a node, its span and its fields, with the documents of
its children in place of the children. -/
theorem document_unique (convert : Node → Json) :
    (∀ node, convert node = .object (node.position ++ node.fieldsBy convert)) ↔
      convert = document := by
  constructor
  · intro recursion
    refine eq_of_recursion fun node ih => ?_
    rw [recursion, document_eq_object, fields_eq_fieldsBy, fieldsBy_congr ih]
  · rintro rfl node
    rw [document_eq_object, fields_eq_fieldsBy]

/-- A tree is converted from its leaves upwards without a document missing: with documents on a stack,
and with documents filed under keys that identify the nodes, also where one node stands at several
places. The document is the only function that satisfies the recursion over the children. Trees have the
same document only if they are the same, and their documents are the same up to the comparison of
floats exactly if the trees are. -/
theorem conversion_faithful :
    (∀ node : Node, node.preorder.foldrM reduce? [] = some [node.document]) ∧
    (∀ (Key : Type) [DecidableEq Key] (key : List Nat → Key) (node : Node), node.Identifies key →
      node.filedDocument? key = some node.document) ∧
    (∀ convert : Node → Json,
      (∀ node, convert node = .object (node.position ++ node.fieldsBy convert)) ↔
        convert = document) ∧
    (∀ node other : Node, node.document = other.document → node = other) ∧
    ∀ node other : Node, node.document.same other.document = node.same other := by
  refine ⟨fun node => foldrM_reduce?_preorder node [], ?_, document_unique, ?_, same_document⟩
  · intro Key _ key node identifies
    exact filedDocument?_eq key identifies
  · intro node other same
    exact document_injective same

/-- The two operands are one node, filed twice under one key. -/
theorem conversion_faithful_shared :
    let leaf := name ⟨0, 1⟩ ['x']
    let key := fun address : List Nat => address.length
    (binary ⟨0, 1⟩ ['+'] leaf leaf).Identifies key ∧
      (binary ⟨0, 1⟩ ['+'] leaf leaf).filedDocument? key =
        some (binary ⟨0, 1⟩ ['+'] leaf leaf).document := by
  intro leaf key
  have places : (binary ⟨0, 1⟩ ['+'] leaf leaf).occurrences =
      [([], binary ⟨0, 1⟩ ['+'] leaf leaf), ([0], leaf), ([1], leaf)] := by cbv
  have identifies : (binary ⟨0, 1⟩ ['+'] leaf leaf).Identifies key := by
    intro address address' inner inner' stands stands'
    rw [← mem_occurrences_iff, places] at stands stands'
    simp only [List.mem_cons, Prod.mk.injEq, List.not_mem_nil, or_false] at stands stands'
    rcases stands with ⟨rfl, rfl⟩ | ⟨rfl, rfl⟩ | ⟨rfl, rfl⟩ <;>
      rcases stands' with ⟨rfl, rfl⟩ | ⟨rfl, rfl⟩ | ⟨rfl, rfl⟩ <;> simp [key]
  exact ⟨identifies, conversion_faithful.2.1 Nat key _ identifies⟩

end Node

end SinosLang
