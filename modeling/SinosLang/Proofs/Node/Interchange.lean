import SinosLang.Request
import SinosLang.Proofs.Json.Writing
import SinosLang.Proofs.Node.Documents
import SinosLang.Proofs.Parse.RoundTrip

/-!
# A tree as a JSON text

The literals of the language denote finite doubles, so the document of a tree that was parsed is
written as a JSON text, and the text is read back as the document. An absent type and an absent last
expression are the only things that the document shows as null.

Main statement: `rendering_lossless`.
-/

set_option autoImplicit false

namespace SinosLang

namespace Node

variable {node : Node}

/-- Whether a node lacks what a key stands for. -/
def Lacks : Node → Text → Prop
  | letStmt _ _ type? _, key => key = "type".toList ∧ type? = none
  | block _ _ last?, key => key = "last_expr".toList ∧ last? = none
  | _, _ => False

/-- The position of a node is finite. -/
theorem finite_position (node : Node) : ∀ member ∈ node.position, member.2.Finite := by
  have number (value : Nat) : (Json.integer value).Finite := .mk trivial (List.forall_mem_nil _)
  have kind : (Json.string node.kind).Finite := .mk trivial (List.forall_mem_nil _)
  have span : (Json.object [("index".toList, .integer node.span.index),
      ("length".toList, .integer node.span.length)]).Finite :=
    .mk trivial (by simp [Json.parts, number])
  simpa [position, kind] using span

/-- The fields of a proper node are finite, if the documents of its children are. -/
theorem finite_fields (proper : node.Proper)
    (each : ∀ child ∈ node.children, child.document.Finite) :
    ∀ member ∈ node.fields, member.2.Finite := by
  have array (nodes : List Node) (each : ∀ node ∈ nodes, node.document.Finite) :
      (Json.array (nodes.map document)).Finite := by
    refine .mk trivial fun part isPart => ?_
    obtain ⟨node, isNode, rfl⟩ := List.mem_map.mp isPart
    exact each node isNode
  have null : Json.null.Finite := .mk trivial (List.forall_mem_nil _)
  have string (text : Text) : (Json.string text).Finite := .mk trivial (List.forall_mem_nil _)
  cases node with
  | module span stmts => simpa [fields] using array stmts each
  | letStmt span binding type? value =>
    have type_finite : ((type?.map Json.string).getD .null).Finite := by
      cases type? with
      | none => exact null
      | some type => exact string type
    simpa [fields, string, type_finite] using each value (by simp [children])
  | exprStmt span expr => simpa [fields] using each expr (by simp [children])
  | block span stmts last? =>
    have last_finite : ((last?.map document).getD .null).Finite := by
      cases last? with
      | none => exact null
      | some last => exact each last (by simp [children])
    simpa [fields, last_finite] using array stmts fun stmt isStmt =>
      each stmt (List.mem_append_left _ isStmt)
  | binary span op left right => simpa [fields, string, children] using each
  | unary span op operand => simpa [fields, string, children] using each
  | group span expr => simpa [fields] using each expr (by simp [children])
  | name span value => simpa [fields] using string value
  | integer span value =>
    have integer : (Json.integer value).Finite := .mk trivial (List.forall_mem_nil _)
    simpa [fields] using integer
  | float span value =>
    obtain ⟨rank, rfl⟩ := proper
    have float : (Json.float (.finite false rank)).Finite :=
      .mk ⟨false, rank, rfl⟩ (List.forall_mem_nil _)
    simpa [fields] using float
  | boolean span value =>
    have boolean : (Json.boolean value).Finite := .mk trivial (List.forall_mem_nil _)
    simpa [fields] using boolean
  | string span value => simpa [fields] using string value

/-- The document of a tree of proper nodes is finite. -/
theorem finite_document (proper : ∀ part ∈ node.preorder, part.Proper) : node.document.Finite := by
  induction node using induction_on_children with
  | step node ih =>
    have below (child : Node) (isChild : child ∈ node.children) : child.document.Finite :=
      ih child isChild fun part isPart =>
        proper part (mem_preorder_iff.mpr (.inr ⟨child, isChild, isPart⟩))
    rw [document_eq_object]
    refine .mk trivial fun part isPart => ?_
    obtain ⟨member, isMember, rfl⟩ := List.mem_map.mp isPart
    rcases List.mem_append.mp isMember with isPosition | isField
    · exact finite_position node member isPosition
    · exact finite_fields (proper node (mem_preorder_self node)) below member isField

/-- What the document of a node shows as null is what the node lacks. -/
theorem null_iff_lacks {key : Text} {value : Json}
    (isMember : (key, value) ∈ node.position ++ node.fields) : value = .null ↔ node.Lacks key := by
  rcases List.mem_append.mp isMember with isPosition | isField
  · simp only [position, List.mem_cons, Prod.mk.injEq, List.not_mem_nil, or_false] at isPosition
    rcases isPosition with ⟨rfl, rfl⟩ | ⟨rfl, rfl⟩ <;> cases node <;> simp [Lacks]
  · cases node with
    | letStmt span binding type? bound =>
      simp only [fields, List.mem_cons, Prod.mk.injEq, List.not_mem_nil, or_false] at isField
      rcases isField with ⟨rfl, rfl⟩ | ⟨rfl, rfl⟩ | ⟨rfl, rfl⟩
      · simp [Lacks]
      · cases type? <;> simp [Lacks]
      · simp [Lacks, document_ne_null]
    | block span stmts last? =>
      simp only [fields, List.mem_cons, Prod.mk.injEq, List.not_mem_nil, or_false] at isField
      rcases isField with ⟨rfl, rfl⟩ | ⟨rfl, rfl⟩
      · simp [Lacks]
      · cases last? <;> simp [Lacks, document_ne_null]
    | _ =>
      refine iff_of_false ?_ id
      revert isField
      simp +contextual [fields, document_ne_null, or_imp]

/-- No key stands twice in the document of a node, so none is lost where members are looked up. -/
theorem nodup_keys (node : Node) : ((node.position ++ node.fields).map Prod.fst).Nodup := by
  cases node <;> simp [position, fields]

/-- No item of a document is null. -/
theorem null_not_mem_items {key : Text} {items : List Json}
    (isMember : (key, .array items) ∈ node.position ++ node.fields) : .null ∉ items := by
  have documents (nodes : List Node) : .null ∉ nodes.map document := by
    simp [document_ne_null]
  have noArray (node : Node) : .array items ≠ node.document := by
    rw [document_eq_object]
    exact nofun
  rcases List.mem_append.mp isMember with isPosition | isField
  · simp [position] at isPosition
  · cases node with
    | module span stmts =>
      obtain ⟨_, rfl⟩ : key = "stmts".toList ∧ items = stmts.map document := by
        simpa [fields] using isField
      exact documents stmts
    | letStmt span binding type? value => cases type? <;> simp [fields, noArray] at isField
    | block span stmts last? =>
      obtain ⟨_, rfl⟩ : key = "stmts".toList ∧ items = stmts.map document := by
        cases last? <;> simpa [fields, noArray] using isField
      exact documents stmts
    | _ => simp [fields, noArray] at isField

end Node

namespace Source

variable {source : Source} {tree : Node}

/-- The rendering of a parsed source is a JSON text. It denotes the document of the tree and nothing
else, and decoding it gives the document back. Every node has an object with its position and its
fields there, in which no key stands twice and null stands for what the node lacks and for nothing
else. -/
theorem rendering_lossless (parsed : source.parse = .ok tree) :
    ∃ text, source.rendering .json = .ok text ∧
      (∀ document, Json.Denotes text document ↔ document = tree.document) ∧
      Json.decode? text = some tree.document ∧
      ∀ node ∈ tree.preorder, node.document = .object (node.position ++ node.fields) ∧
        ((node.position ++ node.fields).map Prod.fst).Nodup ∧
        ∀ key value, (key, value) ∈ node.position ++ node.fields →
          (value = .null ↔ node.Lacks key) ∧ ∀ items, value = .array items → .null ∉ items := by
  have finite := Node.finite_document (wellFormed_of_parse parsed).proper
  have denotes := Json.denotes_text finite
  refine ⟨tree.document.text, ?_, fun document => ⟨fun other => ?_, ?_⟩, Json.decode?_text finite, ?_⟩
  · rw [rendering, parsed]
    rfl
  · exact other.unique denotes
  · rintro rfl
    exact denotes
  · intro node _
    refine ⟨node.document_eq_object, node.nodup_keys, fun key value isMember => ?_⟩
    refine ⟨Node.null_iff_lacks isMember, ?_⟩
    rintro items rfl
    exact Node.null_not_mem_items isMember

/-- A binding without a type of a block with a last expression: one null, and the newline of the string
is read back. -/
theorem rendering_lossless_block :
    ∃ text, (ofText [] "let a = \x7b\"\\n\"\x7d;".toList).rendering .json = .ok text ∧
      Json.decode? text = some (Node.module ⟨0, 15⟩ [.letStmt ⟨0, 15⟩ ['a'] none
        (.block ⟨8, 6⟩ [] (some (.string ⟨9, 4⟩ ['\n'])))]).document := by
  have parsed : (ofText [] "let a = \x7b\"\\n\"\x7d;".toList).parse = .ok (.module ⟨0, 15⟩
      [.letStmt ⟨0, 15⟩ ['a'] none (.block ⟨8, 6⟩ [] (some (.string ⟨9, 4⟩ ['\n'])))]) := by cbv
  obtain ⟨text, rendered, _, decoded, _⟩ := rendering_lossless parsed
  exact ⟨text, rendered, decoded⟩

end Source

end SinosLang
