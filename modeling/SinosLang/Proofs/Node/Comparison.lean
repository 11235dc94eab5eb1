import SinosLang.Proofs.Node.Documents

/-!
# Documents compared

The documents of two trees are compared member by member, whatever the order of the members; floats
are compared as numbers. The kinds of two nodes are told apart by their documents, and nodes of one kind
have the same members, so the documents are the same if and only if the trees are.

Main statements: `document_injective` and `same_document`.
-/

set_option autoImplicit false

namespace SinosLang

namespace Json

mutual

/-- Whether two documents are the same. Floats are compared as numbers, and objects have the same
members in any order. -/
def same : Json → Json → Bool
  | null, null => true
  | boolean value, boolean other => value == other
  | integer value, integer other => value == other
  | float value, float other => Binary64.same value other
  | string value, string other => value == other
  | array items, array others => sameItems items others
  | object members, object others => members.length == others.length && sameMembers members others
  | _, _ => false

/-- Whether the items of two arrays are the same, one by one. -/
def sameItems : List Json → List Json → Bool
  | [], [] => true
  | item :: items, other :: others => same item other && sameItems items others
  | _, _ => false

/-- Whether some members have the values that another object has under their keys. -/
def sameMembers : List (Text × Json) → List (Text × Json) → Bool
  | [], _ => true
  | (key, value) :: members, others =>
    (match others.lookup key with
      | some other => same value other
      | none => false) && sameMembers members others

end

/-- A member is compared with the one that has its key. -/
theorem sameMembers_cons {key : Text} {value : Json} {members others : List (Text × Json)}
    (other : Json) (found : others.lookup key = some other) :
    sameMembers ((key, value) :: members) others =
      (value.same other && sameMembers members others) := by
  rw [sameMembers, found]

end Json

namespace Node

variable {node other : Node}

/-- Two nodes of one kind. -/
inductive Alike : Node → Node → Prop
  | module (span span' : Span) (stmts stmts' : List Node) :
    Alike (.module span stmts) (.module span' stmts')
  | letStmt (span span' : Span) (binding binding' : Text) (type? type?' : Option Text)
    (value value' : Node) :
    Alike (.letStmt span binding type? value) (.letStmt span' binding' type?' value')
  | exprStmt (span span' : Span) (expr expr' : Node) :
    Alike (.exprStmt span expr) (.exprStmt span' expr')
  | block (span span' : Span) (stmts stmts' : List Node) (last? last?' : Option Node) :
    Alike (.block span stmts last?) (.block span' stmts' last?')
  | binary (span span' : Span) (op op' : Text) (left left' right right' : Node) :
    Alike (.binary span op left right) (.binary span' op' left' right')
  | unary (span span' : Span) (op op' : Text) (operand operand' : Node) :
    Alike (.unary span op operand) (.unary span' op' operand')
  | group (span span' : Span) (expr expr' : Node) : Alike (.group span expr) (.group span' expr')
  | name (span span' : Span) (value value' : Text) : Alike (.name span value) (.name span' value')
  | integer (span span' : Span) (value value' : Int) :
    Alike (.integer span value) (.integer span' value')
  | float (span span' : Span) (value value' : Binary64) :
    Alike (.float span value) (.float span' value')
  | boolean (span span' : Span) (value value' : Bool) :
    Alike (.boolean span value) (.boolean span' value')
  | string (span span' : Span) (value value' : Text) :
    Alike (.string span value) (.string span' value')

/-- The name of a kind belongs to one kind only. -/
theorem alike_of_kind_eq (kind_eq : node.kind = other.kind) : Alike node other := by
  cases node <;> cases other <;> first
    | exact absurd kind_eq (by dsimp only [kind]; decide)
    | constructor

/-- Nodes of different kinds are not the same. -/
theorem same_of_kind_ne (kind_ne : node.kind ≠ other.kind) : node.same other = false := by
  cases node <;> cases other <;> first
    | rfl
    | exact absurd rfl kind_ne

/-- The document of a node tells its kind, its span and its fields. -/
theorem document_inj (same : node.document = other.document) :
    node.kind = other.kind ∧ node.span = other.span ∧ node.fields = other.fields := by
  rw [document_eq_object, document_eq_object] at same
  injection same with same
  simp only [position, List.cons_append, List.nil_append, List.cons.injEq, Prod.mk.injEq, true_and,
    Json.string.injEq, Json.object.injEq, Json.integer.injEq, and_true] at same
  obtain ⟨kind_eq, ⟨index_eq, length_eq⟩, fields_eq⟩ := same
  refine ⟨kind_eq, ?_, fields_eq⟩
  calc node.span = ⟨node.span.index, node.span.length⟩ := rfl
    _ = ⟨other.span.index, other.span.length⟩ := by
      rw [Int.ofNat.inj index_eq, Int.ofNat.inj length_eq]

/-- Children that are told by their documents are told one by one. -/
theorem eq_of_map_document {nodes others : List Node}
    (told : ∀ node ∈ nodes, ∀ other : Node, node.document = other.document → node = other)
    (same : nodes.map document = others.map document) : nodes = others := by
  induction nodes generalizing others with
  | nil => exact (List.map_eq_nil_iff.mp same.symm).symm
  | cons node nodes ih =>
    cases others with
    | nil => cases same
    | cons other others =>
      obtain ⟨first, later⟩ := List.cons.inj same
      rw [told node List.mem_cons_self other first,
        ih (fun node isIn => told node (List.mem_cons_of_mem _ isIn)) later]

/-- Trees with the same document are the same. -/
theorem document_injective : Function.Injective document := by
  intro node
  induction node using induction_on_children with
  | step node ih =>
    intro other same
    obtain ⟨kind_eq, span_eq, fields_eq⟩ := document_inj same
    cases alike_of_kind_eq kind_eq with
    | module span span' stmts stmts' =>
      obtain rfl : span = span' := span_eq
      simp only [fields, List.cons.injEq, Prod.mk.injEq, Json.array.injEq, true_and, and_true]
        at fields_eq
      obtain rfl : stmts = stmts' := eq_of_map_document ih fields_eq
      rfl
    | letStmt span span' binding binding' type? type?' value value' =>
      obtain rfl : span = span' := span_eq
      simp only [fields, List.cons.injEq, Prod.mk.injEq, Json.string.injEq, true_and, and_true]
        at fields_eq
      obtain ⟨rfl, type_eq, value_eq⟩ := fields_eq
      have type_eq : type? = type?' := by
        revert type_eq
        cases type? <;> cases type?' <;> simp
      rw [ih value List.mem_cons_self value_eq, type_eq]
    | exprStmt span span' expr expr' | group span span' expr expr' =>
      obtain rfl : span = span' := span_eq
      simp only [fields, List.cons.injEq, Prod.mk.injEq, true_and, and_true] at fields_eq
      rw [ih expr List.mem_cons_self fields_eq]
    | block span span' stmts stmts' last? last?' =>
      obtain rfl : span = span' := span_eq
      simp only [fields, List.cons.injEq, Prod.mk.injEq, Json.array.injEq, true_and, and_true]
        at fields_eq
      obtain ⟨stmts_eq, last_eq⟩ := fields_eq
      obtain rfl : stmts = stmts' :=
        eq_of_map_document (fun stmt isStmt => ih stmt (List.mem_append_left _ isStmt)) stmts_eq
      cases last? with
      | none =>
        cases last?' with
        | none => rfl
        | some last' => exact absurd last_eq.symm (document_ne_null last')
      | some last =>
        cases last?' with
        | none => exact absurd last_eq (document_ne_null last)
        | some last' => rw [ih last (by simp [children]) last_eq]
    | binary span span' op op' left left' right right' =>
      obtain rfl : span = span' := span_eq
      simp only [fields, List.cons.injEq, Prod.mk.injEq, Json.string.injEq, true_and, and_true]
        at fields_eq
      obtain ⟨rfl, left_eq, right_eq⟩ := fields_eq
      rw [ih left (by simp [children]) left_eq, ih right (by simp [children]) right_eq]
    | unary span span' op op' operand operand' =>
      obtain rfl : span = span' := span_eq
      simp only [fields, List.cons.injEq, Prod.mk.injEq, Json.string.injEq, true_and, and_true]
        at fields_eq
      obtain ⟨rfl, operand_eq⟩ := fields_eq
      rw [ih operand List.mem_cons_self operand_eq]
    | name span span' value value' | integer span span' value value' | float span span' value value'
    | boolean span span' value value' | string span span' value value' =>
      obtain rfl : span = span' := span_eq
      simpa [fields] using fields_eq

/-! ## Comparison of values -/

/-- A span is compared by its two numbers. -/
theorem same_span (span other : Span) :
    (Json.object [("index".toList, .integer span.index),
        ("length".toList, .integer span.length)]).same
      (.object [("index".toList, .integer other.index), ("length".toList, .integer other.length)]) =
      (span == other) := by
  obtain ⟨index, length⟩ := span
  obtain ⟨index', length'⟩ := other
  rw [Json.same, Json.sameMembers_cons _ rfl, Json.sameMembers_cons _ rfl, Json.sameMembers,
    Json.same, Json.same, Bool.eq_iff_iff]
  show ((index : Int) == index' && ((length : Int) == length' && true)) = true ↔ _
  rw [Bool.and_true, Bool.and_eq_true, beq_iff_eq, beq_iff_eq, beq_iff_eq, Int.ofNat_inj,
    Int.ofNat_inj, Span.mk.injEq]

/-- Documents are compared by the kinds of the nodes, their spans and their fields. -/
theorem same_document_eq (node other : Node) :
    node.document.same other.document = (node.fields.length == other.fields.length &&
      (node.kind == other.kind && (node.span == other.span &&
        Json.sameMembers node.fields (other.position ++ other.fields)))) := by
  rw [document_eq_object, document_eq_object, Json.same, position, List.cons_append,
    Json.sameMembers_cons (.string other.kind) rfl, List.cons_append,
    Json.sameMembers_cons _ rfl, same_span, Json.same]
  simp [position]

/-- Lists of trees are compared by their documents one by one. -/
theorem sameItems_map_document {nodes others : List Node}
    (each : ∀ node ∈ nodes, ∀ other : Node, node.document.same other.document = node.same other) :
    Json.sameItems (nodes.map document) (others.map document) = sameAll nodes others := by
  induction nodes generalizing others with
  | nil => cases others <;> rfl
  | cons node nodes ih =>
    cases others with
    | nil => rfl
    | cons other others =>
      rw [List.map_cons, List.map_cons, Json.sameItems, sameAll, each node List.mem_cons_self other,
        ih fun node isIn => each node (List.mem_cons_of_mem _ isIn)]

/-- Nodes of one kind with one field are compared by their spans and by this field. -/
theorem same_document_of_field {key : Text} {value value' : Json} (kind_eq : node.kind = other.kind)
    (single : node.fields = [(key, value)]) (single' : other.fields = [(key, value')])
    (found : (other.position ++ other.fields).lookup key = some value') :
    node.document.same other.document = (node.span == other.span && value.same value') := by
  rw [same_document_eq, beq_iff_eq.mpr kind_eq, single, Json.sameMembers_cons _ found,
    Json.sameMembers, single']
  simp

/-- The documents of two trees are the same if and only if the trees are. -/
theorem same_document (node other : Node) : node.document.same other.document = node.same other := by
  induction node using induction_on_children generalizing other with
  | step node ih =>
    by_cases kind_eq : node.kind = other.kind
    · cases alike_of_kind_eq kind_eq with
      | module span span' stmts stmts' =>
        have stmts_eq : Json.sameItems (stmts.map document) (stmts'.map document) =
            sameAll stmts stmts' := sameItems_map_document ih
        rw [same_document_of_field kind_eq rfl rfl rfl, Json.same, stmts_eq]
        rfl
      | letStmt span span' binding binding' type? type?' value value' =>
        have type_eq : ((type?.map Json.string).getD .null).same
            ((type?'.map Json.string).getD .null) = (type? == type?') := by
          cases type? <;> cases type?' <;> rfl
        rw [same_document_eq, beq_iff_eq.mpr kind_eq, fields,
          Json.sameMembers_cons (.string binding') rfl,
          Json.sameMembers_cons ((type?'.map Json.string).getD .null) rfl,
          Json.sameMembers_cons (value'.document) rfl, Json.sameMembers, Json.same,
          type_eq, ih value List.mem_cons_self, same, fields]
        simp [Node.span, Bool.and_assoc]
      | block span span' stmts stmts' last? last?' =>
        have stmts_eq : Json.sameItems (stmts.map document) (stmts'.map document) =
            sameAll stmts stmts' :=
          sameItems_map_document fun stmt isStmt => ih stmt (List.mem_append_left _ isStmt)
        have last_eq : ((last?.map document).getD .null).same ((last?'.map document).getD .null) =
            sameOption last? last?' := by
          cases last? with
          | none => cases last?' <;> simp [Json.same, sameOption, document_eq_object]
          | some last =>
            cases last?' with
            | none => simp [Json.same, sameOption, document_eq_object]
            | some last' => exact ih last (by simp [children]) last'
        rw [same_document_eq, beq_iff_eq.mpr kind_eq, fields,
          Json.sameMembers_cons (.array (stmts'.map document)) rfl,
          Json.sameMembers_cons ((last?'.map document).getD .null) rfl, Json.sameMembers,
          Json.same, stmts_eq, last_eq, same, fields]
        simp [Node.span, Bool.and_assoc]
      | binary span span' op op' left left' right right' =>
        rw [same_document_eq, beq_iff_eq.mpr kind_eq, fields,
          Json.sameMembers_cons (.string op') rfl,
          Json.sameMembers_cons (left'.document) rfl,
          Json.sameMembers_cons (right'.document) rfl, Json.sameMembers, Json.same,
          ih left (by simp [children]), ih right (by simp [children]), same, fields]
        simp [Node.span, Bool.and_assoc]
      | unary span span' op op' operand operand' =>
        rw [same_document_eq, beq_iff_eq.mpr kind_eq, fields,
          Json.sameMembers_cons (.string op') rfl,
          Json.sameMembers_cons (operand'.document) rfl, Json.sameMembers, Json.same,
          ih operand List.mem_cons_self, same, fields]
        simp [Node.span, Bool.and_assoc]
      | exprStmt span span' expr expr' | group span span' expr expr' =>
        rw [same_document_of_field kind_eq rfl rfl rfl, ih expr List.mem_cons_self]
        rfl
      | name span span' value value' | integer span span' value value'
      | float span span' value value' | boolean span span' value value'
      | string span span' value value' =>
        rw [same_document_of_field kind_eq rfl rfl rfl]
        rfl
    · rw [same_document_eq, same_of_kind_ne kind_eq, beq_eq_false_iff_ne.mpr kind_eq,
        Bool.false_and, Bool.and_false]

end Node

end SinosLang
