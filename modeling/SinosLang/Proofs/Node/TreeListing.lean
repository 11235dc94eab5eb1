import SinosLang.Request
import SinosLang.Proofs.Json.Numbers
import SinosLang.Proofs.Json.Strings
import SinosLang.Proofs.Node.Levels
import SinosLang.Proofs.Parse.RoundTrip
import SinosLang.Proofs.Text.Parts

/-!
# The listing of trees tells them apart

The line of a node shows its kind, its span and what it carries besides its children. For a proper
node nothing of this has a newline, and the parts are told apart: the kind ends at the span, the span
at its bracket, and the rest is read back in the way of the kind. So the line of a node determines the
node up to its children; that a block lists its last expression behind its statements loses nothing,
because no statement is an expression. The indentation is the level of the node, and levels and lines
determine the tree.

Main statement: `treeListing_lossless`.
-/

set_option autoImplicit false

namespace SinosLang

namespace Node

variable {node other : Node}

/-- The kind of a node has no space, no angle bracket and no line break. -/
theorem kind_plain (node : Node) : ' ' ∉ node.kind ∧ '<' ∉ node.kind ∧ '\n' ∉ node.kind := by
  cases node <;> (dsimp only [kind]; decide)

/-- What the line of a proper node shows behind its span stands on one line. -/
theorem newline_not_mem_payload (proper : node.Proper) : '\n' ∉ node.payload := by
  have word {text : Text} (isIdentifier : text.IsIdentifier) : '\n' ∉ text :=
    isIdentifier.1.not_mem (by decide +kernel)
  have symbol {text : Text} {kind : TokenKind} (known : TokenKind.ofSymbol? text = some kind) :
      '\n' ∉ text :=
    Lexeme.not_mem_of_ofSymbol? (by decide) known
  cases node with
  | module | exprStmt | block | group => exact List.not_mem_nil
  | letStmt span binding type? value =>
    obtain ⟨isIdentifier, typeIsIdentifier, _⟩ := proper
    cases type? with
    | none => simp [payload, word isIdentifier]
    | some type =>
      simp only [payload]
      split <;> simp [word isIdentifier, word (typeIsIdentifier type rfl)]
  | binary span op left right =>
    obtain ⟨⟨_, _, known⟩, _⟩ := proper
    simp [payload, symbol known]
  | unary span op operand =>
    obtain ⟨⟨_, _, known⟩, _⟩ := proper
    simp [payload, symbol known]
  | name span value => simp [payload, word proper]
  | integer span value => simp [payload, (Json.number_ofInt value).newline_not_mem]
  | float span value =>
    obtain ⟨rank, rfl⟩ := proper
    have number : '\n' ∉ Binary64.compact (.finite false rank) :=
      (Json.number_finite false rank).newline_not_mem
    simp [payload, number]
  | boolean span value => cases value <;> simp [payload, truthText]
  | string span value => simp [payload, Json.newline_not_mem_json]

/-- The line of a node is its kind, its span and what it carries. -/
theorem header_eq (node : Node) :
    node.header = node.kind ++ '<' :: (node.span.brackets.tail ++ node.payload) := by
  rw [header, List.append_assoc]
  rfl

/-- A line is not indented by itself. -/
theorem head?_header_ne (node : Node) : node.header.head? ≠ some ' ' := by
  intro isFirst
  have noBlank := (kind_plain node).1
  rw [header_eq] at isFirst
  generalize node.kind = kind at noBlank isFirst
  cases kind with
  | nil => cases isFirst
  | cons first others =>
    obtain rfl := Option.some.inj isFirst
    exact noBlank List.mem_cons_self

/-- The line of a node that a source may have has no line break in it. -/
theorem newline_not_mem_header (proper : node.Proper) : '\n' ∉ node.header := by
  simp [header, (kind_plain node).2.2, node.span.newline_not_mem_brackets,
    newline_not_mem_payload proper]

/-- The parts of a line are told apart. -/
theorem header_inj (same : node.header = other.header) :
    node.kind = other.kind ∧ node.span = other.span ∧ node.payload = other.payload := by
  rw [header_eq, header_eq] at same
  obtain ⟨kind_eq, behind⟩ :=
    Text.append_cons_inj (kind_plain node).2.1 (kind_plain other).2.1 same
  exact ⟨kind_eq, Span.brackets_append_inj (congrArg (List.cons '<') behind)⟩

/-- A binding is told apart from its type, and an absent type from a name. -/
theorem letStmt_payload_inj {span span' : Span} {binding binding' : Text}
    {type? type?' : Option Text} {value value' : Node}
    (proper : (letStmt span binding type? value).Proper)
    (proper' : (letStmt span' binding' type?' value').Proper)
    (same : (letStmt span binding type? value).payload =
      (letStmt span' binding' type?' value').payload) : binding = binding' ∧ type? = type?' := by
  have noQuote {text : Text} (isIdentifier : text.IsIdentifier) : '"' ∉ text :=
    isIdentifier.1.not_mem (by decide +kernel)
  have filled {type : Text} (isIdentifier : type.IsIdentifier) : type ≠ [] := by
    rintro rfl
    exact Text.not_isWord_nil isIdentifier.1
  obtain ⟨isIdentifier, typeIsIdentifier, _⟩ := proper
  obtain ⟨isIdentifier', typeIsIdentifier', _⟩ := proper'
  simp only [payload, List.cons_append, List.cons.injEq, true_and] at same
  obtain ⟨binding_eq, type_eq⟩ :=
    Text.append_cons_inj (noQuote isIdentifier) (noQuote isIdentifier') same
  refine ⟨binding_eq, ?_⟩
  cases type? with
  | none =>
    cases type?' with
    | none => rfl
    | some type' => simp [filled (typeIsIdentifier' type' rfl)] at type_eq
  | some type =>
    have present := filled (typeIsIdentifier type rfl)
    cases type?' with
    | none => simp [present] at type_eq
    | some type' =>
      simpa [present, filled (typeIsIdentifier' type' rfl)] using type_eq

/-- Where the last expression of a block begins is decided by the kinds of its children. -/
theorem block_children_inj {span span' : Span} {stmts stmts' : List Node} {last? last?' : Option Node}
    (proper : (block span stmts last?).Proper) (proper' : (block span' stmts' last?').Proper)
    (same : stmts ++ last?.toList = stmts' ++ last?'.toList) : stmts = stmts' ∧ last? = last?' := by
  -- the last child is an expression exactly if there is a last expression
  have apart {stmts stmts' : List Node} {last : Node}
      (statements : ∀ stmt ∈ stmts, stmt.isStatement = true)
      (isExpression : last.isExpression = true) : stmts ≠ stmts' ++ [last] := by
    rintro rfl
    have isStatement := statements last (List.mem_append_right _ List.mem_cons_self)
    rw [isExpression_of_isStatement isStatement] at isExpression
    cases isExpression
  cases last? with
  | none =>
    cases last?' with
    | none => exact ⟨by simpa using same, rfl⟩
    | some last' => exact absurd (by simpa using same) (apart proper.1 (proper'.2 last' rfl))
  | some last =>
    cases last?' with
    | none => exact absurd (by simpa using same.symm) (apart proper'.1 (proper.2 last rfl))
    | some last' =>
      obtain ⟨stmts_eq, last_eq⟩ := List.append_inj' same rfl
      exact ⟨stmts_eq, congrArg some (List.singleton_inj.mp last_eq)⟩

/-- Truth values that are written alike are the same. -/
theorem truthText_inj {value value' : Bool} (same : truthText value = truthText value') :
    value = value' := by
  revert same
  cases value <;> cases value' <;> decide

/-- Proper nodes with the same line and the same children are the same. -/
theorem eq_of_header (proper : node.Proper) (proper' : other.Proper)
    (same : node.header = other.header) (children_eq : node.children = other.children) :
    node = other := by
  obtain ⟨kind_eq, span_eq, payload_eq⟩ := header_inj same
  -- the kinds agree, so only the same constructor is left for the other node
  cases node with
  | module span stmts =>
    cases other with
    | module span' stmts' =>
      rw [show span = span' from span_eq, show stmts = stmts' from children_eq]
    | _ => exact absurd kind_eq (by dsimp only [kind]; decide)
  | letStmt span binding type? value =>
    cases other with
    | letStmt span' binding' type?' value' =>
      obtain ⟨rfl, rfl⟩ := letStmt_payload_inj proper proper' payload_eq
      rw [show span = span' from span_eq, List.singleton_inj.mp children_eq]
    | _ => exact absurd kind_eq (by dsimp only [kind]; decide)
  | exprStmt span expr =>
    cases other with
    | exprStmt span' expr' =>
      rw [show span = span' from span_eq, List.singleton_inj.mp children_eq]
    | _ => exact absurd kind_eq (by dsimp only [kind]; decide)
  | block span stmts last? =>
    cases other with
    | block span' stmts' last?' =>
      obtain ⟨rfl, rfl⟩ := block_children_inj proper proper' children_eq
      rw [show span = span' from span_eq]
    | _ => exact absurd kind_eq (by dsimp only [kind]; decide)
  | binary span op left right =>
    cases other with
    | binary span' op' left' right' =>
      obtain ⟨left_eq, right_eq⟩ := List.cons.inj children_eq
      rw [show span = span' from span_eq, (List.cons.inj payload_eq).2, left_eq,
        List.singleton_inj.mp right_eq]
    | _ => exact absurd kind_eq (by dsimp only [kind]; decide)
  | unary span op operand =>
    cases other with
    | unary span' op' operand' =>
      rw [show span = span' from span_eq, (List.cons.inj payload_eq).2,
        List.singleton_inj.mp children_eq]
    | _ => exact absurd kind_eq (by dsimp only [kind]; decide)
  | group span expr =>
    cases other with
    | group span' expr' =>
      rw [show span = span' from span_eq, List.singleton_inj.mp children_eq]
    | _ => exact absurd kind_eq (by dsimp only [kind]; decide)
  | name span value =>
    cases other with
    | name span' value' => rw [show span = span' from span_eq, (List.cons.inj payload_eq).2]
    | _ => exact absurd kind_eq (by dsimp only [kind]; decide)
  | integer span value =>
    cases other with
    | integer span' value' =>
      have isNumber := Json.number_ofInt value
      rw [(List.cons.inj payload_eq).2] at isNumber
      obtain rfl := Json.integer.inj (isNumber.unique (Json.number_ofInt value'))
      rw [show span = span' from span_eq]
    | _ => exact absurd kind_eq (by dsimp only [kind]; decide)
  | float span value =>
    cases other with
    | float span' value' =>
      obtain ⟨rank, rfl⟩ := proper
      obtain ⟨rank', rfl⟩ := proper'
      have isNumber := Json.number_finite false rank
      rw [Json.number, (List.cons.inj payload_eq).2] at isNumber
      rw [show span = span' from span_eq,
        Json.float.inj (isNumber.unique (Json.number_finite false rank'))]
    | _ => exact absurd kind_eq (by dsimp only [kind]; decide)
  | boolean span value =>
    cases other with
    | boolean span' value' =>
      rw [show span = span' from span_eq, truthText_inj (List.cons.inj payload_eq).2]
    | _ => exact absurd kind_eq (by dsimp only [kind]; decide)
  | string span value =>
    cases other with
    | string span' value' =>
      rw [show span = span' from span_eq, Json.json_injective (List.cons.inj payload_eq).2]
    | _ => exact absurd kind_eq (by dsimp only [kind]; decide)

/-- The line of a node on a level. -/
def line (entry : Nat × Node) : Text :=
  List.replicate (2 * entry.1) ' ' ++ entry.2.header

/-- The level and the rest of a line. -/
def unindented (text : Text) : Nat × Text :=
  ((text.takeWhile (· == ' ')).length / 2, text.dropWhile (· == ' '))

/-- A line shows the level and what is behind the indentation. -/
theorem unindented_line (depth : Nat) (node : Node) :
    unindented (line (depth, node)) = (depth, node.header) := by
  have indentation : ∀ c ∈ List.replicate (2 * depth) ' ', (c == ' ') = true := by
    intro c isIn
    exact beq_iff_eq.mpr (List.eq_of_mem_replicate isIn)
  have boundary (c : Char) (isFirst : node.header.head? = some c) : (c == ' ') = false := by
    refine beq_eq_false_iff_ne.mpr ?_
    rintro rfl
    exact head?_header_ne node isFirst
  obtain ⟨blanks, behind⟩ := Text.takeWhile_append indentation boundary
  rw [unindented, line, blanks, behind, List.length_replicate, Nat.mul_div_cancel_left _ Nat.two_pos]

/-- The listing of a tree of proper nodes has one line for each node, on its level. -/
theorem lines_listing (proper : ∀ part ∈ node.preorder, part.Proper) :
    Text.lines node.listing = (node.levels 0).map line := by
  have filled : (node.levels 0).map line ≠ [] := by
    rw [levels_eq]
    exact List.cons_ne_nil _ _
  rw [listing, outline_eq_levels]
  refine Text.lines_joinLines filled fun text isLine => ?_
  obtain ⟨entry, isEntry, rfl⟩ := List.mem_map.mp isLine
  have isPart : entry.2 ∈ node.preorder := by
    rw [preorder, outline_eq_levels]
    exact List.mem_map_of_mem isEntry
  simp [newline_not_mem_header (proper _ isPart)]

/-- Trees of proper nodes with the same listing are the same. -/
theorem listing_injective (proper : ∀ part ∈ node.preorder, part.Proper)
    (proper' : ∀ part ∈ other.preorder, part.Proper) (same : node.listing = other.listing) :
    node = other := by
  have lines_eq := lines_listing proper
  rw [same, lines_listing proper'] at lines_eq
  have read (node : Node) : ((node.levels 0).map line).map unindented = node.labels header 0 := by
    rw [List.map_map, labels]
    exact List.map_congr_left fun entry _ => unindented_line entry.1 entry.2
  have labels_eq : node.labels header 0 = other.labels header 0 := by
    rw [← read, ← read, lines_eq]
  exact eq_of_labels (fun _ _ => eq_of_header) proper proper' labels_eq

end Node

namespace Source

variable {source other : Source} {tree tree' : Node}

/-- The listing of a parsed source has one line for each node of the tree, in pre-order and indented by
two blanks per level, and two parsed sources are listed alike exactly if their trees are equal in
everything: kinds, spans, operators, names, types, values and last expressions. -/
theorem treeListing_lossless (parsed : source.parse = .ok tree) (parsed' : other.parse = .ok tree') :
    (∃ listing, source.rendering .tree = .ok listing ∧
      Text.lines listing =
        (tree.levels 0).map (fun (depth, node) => List.replicate (2 * depth) ' ' ++ node.header) ∧
      (tree.levels 0).map Prod.snd = tree.preorder ∧
      (Text.lines listing).length = tree.count) ∧
    (source.rendering .tree = other.rendering .tree ↔ tree = tree') := by
  have proper := (wellFormed_of_parse parsed).proper
  have proper' := (wellFormed_of_parse parsed').proper
  have listed : source.rendering .tree = .ok tree.listing := by
    rw [rendering, parsed]
    rfl
  have listed' : other.rendering .tree = .ok tree'.listing := by
    rw [rendering, parsed']
    rfl
  have lines_eq := Node.lines_listing proper
  refine ⟨⟨_, listed, lines_eq, ?_, ?_⟩, ?_⟩
  · rw [Node.preorder, Node.outline_eq_levels]
  · rw [lines_eq, List.length_map, Node.length_levels]
  · rw [listed, listed']
    constructor
    · intro same
      exact Node.listing_injective proper proper' (Except.ok.inj same)
    · rintro rfl
      rfl

/-- A statement of a block and a last expression that is as long are listed apart. -/
theorem treeListing_lossless_block :
    (∃ listing, (ofText [] "\x7b1;\x7d;".toList).rendering .tree = .ok listing ∧
      (Text.lines listing).length = 5) ∧
      (ofText [] "\x7b1;\x7d;".toList).rendering .tree ≠
        (ofText [] "\x7b1 \x7d;".toList).rendering .tree := by
  have parsed : (ofText [] "\x7b1;\x7d;".toList).parse = .ok (.module ⟨0, 5⟩ [.exprStmt ⟨0, 5⟩
      (.block ⟨0, 4⟩ [.exprStmt ⟨1, 2⟩ (.integer ⟨1, 1⟩ 1)] none)]) := by cbv
  have parsed' : (ofText [] "\x7b1 \x7d;".toList).parse = .ok (.module ⟨0, 5⟩ [.exprStmt ⟨0, 5⟩
      (.block ⟨0, 4⟩ [] (some (.integer ⟨1, 1⟩ 1)))]) := by cbv
  obtain ⟨⟨listing, listed, _, _, length_eq⟩, alike⟩ := treeListing_lossless parsed parsed'
  refine ⟨⟨listing, listed, length_eq⟩, fun same => ?_⟩
  cases alike.mp same

end Source

end SinosLang
