import SinosLang.Proofs.Decimal.Literal
import SinosLang.Proofs.Grammar.Parts
import SinosLang.Proofs.Lexing.Trivia

/-!
# Well-formed trees

A tree that was built by hand need not be one that the parser can answer with. It has to be if every
node is proper and the limits are kept: names are identifiers, numbers have a literal, and every
operand is of a level that its operator takes without parentheses. Whether a node is proper is
decided by the node and its children.

Main statements: being well-formed does not depend on the spans, and every node that stands in
spelled tokens is proper.
-/

set_option autoImplicit false

namespace SinosLang

open Grammar

namespace Text

/-- An identifier: a word that is no keyword. -/
def IsIdentifier (text : Text) : Prop :=
  text.IsWord ∧ text ∉ TokenKind.keywords.map Prod.fst

end Text

namespace Grammar

/-- The level of the operands that an operator between them joins; that of a primary if the text is
no such operator. -/
def operatorLevel (op : Text) : Level :=
  match TokenKind.ofSymbol? op with
  | some .eq | some .ne => .equality
  | some .lt | some .le | some .gt | some .ge => .comparison
  | some .cat => .concatenation
  | some .plus | some .sub => .sum
  | some .mult | some .div | some .mod => .product
  | _ => .primary

/-- Whether a text spells one of some operators. -/
def IsOperator (operators : List TokenKind) (op : Text) : Prop :=
  ∃ kind ∈ operators, TokenKind.ofSymbol? op = some kind

end Grammar

namespace Node

/-- The level that a node is of as an operand. -/
def level : Node → Level
  | binary _ op _ _ => operatorLevel op
  | unary .. => .prefixed
  | _ => .primary

/-- An expression of a level or a tighter one. -/
def IsOperand (least : Level) (node : Node) : Prop :=
  node.isExpression = true ∧ least.rank ≤ node.level.rank

/-- A node is proper if it has a literal or an identifier where it needs one, if its children are
statements and expressions where they have to be, and operands of a level that its operator takes. -/
def Proper : Node → Prop
  | module _ stmts => ∀ stmt ∈ stmts, stmt.isStatement = true
  | letStmt _ binding type? value =>
    binding.IsIdentifier ∧ (∀ type, type? = some type → type.IsIdentifier) ∧
      value.isExpression = true
  | exprStmt _ expr => expr.isExpression = true
  | block _ stmts last? =>
    (∀ stmt ∈ stmts, stmt.isStatement = true) ∧ ∀ last, last? = some last → last.isExpression = true
  | binary _ op left right =>
    IsOperator binaryOperators op ∧ left.IsOperand (operatorLevel op).leftOperand ∧
      right.IsOperand (operatorLevel op).tighter
  | unary _ op operand => IsOperator prefixOperators op ∧ operand.IsOperand .prefixed
  | group _ expr => expr.isExpression = true
  | name _ value => value.IsIdentifier
  | integer _ value => 0 ≤ value ∧ (Text.ofInt value).length ≤ Lexeme.maxDigits
  | float _ value => ∃ rank, value = .finite false rank
  | boolean _ _ => True
  | string _ _ => True

/-- A module is well-formed if all of its nodes are proper and it keeps within the limits of the
language. -/
structure WellFormed (tree : Node) : Prop where
  isModule : ∃ span stmts, tree = .module span stmts
  proper : ∀ part ∈ tree.preorder, part.Proper
  few : tree.bracketDepth ≤ 40
  low : tree.height ≤ 256

/-! ## Spans make no difference -/

variable (g : Span → Span)

/-- Mapping the spans of a statement leaves it one, and makes no other node one. -/
@[simp]
theorem isStatement_mapSpans (node : Node) : (node.mapSpans g).isStatement = node.isStatement := by
  cases node <;> rfl

/-- Mapping the spans of an expression leaves it one, and makes no other node one. -/
@[simp]
theorem isExpression_mapSpans (node : Node) :
    (node.mapSpans g).isExpression = node.isExpression := by
  cases node <;> rfl

/-- Mapping spans does not change the level of a node. -/
@[simp]
theorem level_mapSpans (node : Node) : (node.mapSpans g).level = node.level := by
  cases node <;> rfl

/-- Mapping spans does not change what a node may be an operand of. -/
@[simp]
theorem isOperand_mapSpans {least : Level} {node : Node} :
    (node.mapSpans g).IsOperand least ↔ node.IsOperand least := by
  simp [IsOperand]

/-- Mapping spans does not change whether a node is proper. -/
@[simp]
theorem proper_mapSpans {node : Node} : (node.mapSpans g).Proper ↔ node.Proper := by
  cases node with
  | block span stmts last? => cases last? <;> simp [mapSpans, Proper]
  | _ => simp [mapSpans, Proper]

/-- The nodes of a tree with mapped spans are its nodes with mapped spans. -/
theorem preorder_mapSpans (node : Node) :
    (node.mapSpans g).preorder = node.preorder.map (mapSpans g) := by
  induction node using induction_on_children with
  | step node ih =>
    rw [preorder_eq, preorder_eq node, children_mapSpans, List.map_cons, List.flatMap_map,
      List.map_flatMap]
    congr 1
    exact List.flatMap_congr fun child isChild => ih child isChild

/-- Whether a tree is well-formed is decided by its shape. -/
theorem wellFormed_of_erase_eq {first second : Node} (same : first.erase = second.erase)
    (h : first.WellFormed) : second.WellFormed where
  isModule := by
    obtain ⟨span, stmts, rfl⟩ := h.isModule
    cases second <;> first | exact ⟨_, _, rfl⟩ | cases same
  proper part isPart := by
    have isErased : part.erase ∈ first.erase.preorder := by
      rw [same, erase, preorder_mapSpans]
      exact List.mem_map_of_mem isPart
    rw [erase, preorder_mapSpans] at isErased
    obtain ⟨part', isPart', same'⟩ := List.mem_map.mp isErased
    have proper := h.proper part' isPart'
    rw [← proper_mapSpans fun _ => Span.origin, same'] at proper
    exact (proper_mapSpans _).mp proper
  few := by
    rw [← bracketDepth_eq_of_erase_eq same]
    exact h.few
  low := by
    rw [← height_eq_of_erase_eq same]
    exact h.low

end Node

/-! ## What spelled tokens stand for -/

namespace Grammar

/-- An operator is of the level that lists its kind. -/
theorem operatorLevel_eq {level : Level} {kind : TokenKind} {op : Text}
    (isOperator : kind ∈ level.operators) (spelled : TokenKind.ofSymbol? op = some kind) :
    operatorLevel op = level := by
  unfold operatorLevel
  rw [spelled]
  revert isOperator
  cases level <;> cases kind <;> first | exact fun _ => rfl | exact fun h => absurd h (by decide)

/-- The level of an operator lists its kind. -/
theorem mem_operatorLevel {kind : TokenKind} {op : Text} (isOperator : kind ∈ binaryOperators)
    (spelled : TokenKind.ofSymbol? op = some kind) : kind ∈ (operatorLevel op).operators := by
  unfold operatorLevel
  rw [spelled]
  revert isOperator
  cases kind <;> decide

/-- The operators of a level are binary. -/
theorem mem_binaryOperators {level : Level} {kind : TokenKind}
    (isOperator : kind ∈ level.operators) : kind ∈ binaryOperators := by
  revert isOperator
  cases level <;> cases kind <;> decide

end Grammar

namespace Spells

variable {spelled value : Text}

/-- The name of an identifier is no keyword. -/
theorem isIdentifier (spells : Spells spelled .ident value) : value.IsIdentifier := by
  generalize same : TokenKind.ident = kind at spells
  cases spells with
  | word word =>
    refine ⟨word, fun isKeyword => ?_⟩
    have keywords : ∀ text ∈ TokenKind.keywords.map Prod.fst,
        TokenKind.ofWord text ≠ .ident := by decide
    exact keywords _ isKeyword same.symm
  | int | float | string => cases same
  | symbol isSymbol =>
    have others : ∀ entry ∈ TokenKind.symbols, entry.2 ≠ .ident := by decide
    exact absurd same.symm (others _ isSymbol)

/-- What spells an integer is a numeral that is short enough. -/
theorem isNumeral (spells : Spells spelled .int value) :
    value.IsNumeral ∧ value.length ≤ Lexeme.maxDigits := by
  generalize same : TokenKind.int = kind at spells
  cases spells with
  | word _ =>
    have := Lexeme.ofWord_mem spelled
    rw [← same] at this
    exact absurd this (by decide)
  | int digits short => exact ⟨digits, short⟩
  | float | string => cases same
  | symbol isSymbol =>
    have others : ∀ entry ∈ TokenKind.symbols, entry.2 ≠ .int := by decide
    exact absurd same.symm (others _ isSymbol)

/-- What spells a number with a point is not too large. -/
theorem isBounded (spells : Spells spelled .float value) :
    (Binary64.ofLiteral value).isInfinite = false := by
  generalize same : TokenKind.float = kind at spells
  cases spells with
  | word _ =>
    have := Lexeme.ofWord_mem spelled
    rw [← same] at this
    exact absurd this (by decide)
  | float _ _ bounded => exact bounded
  | int | string => cases same
  | symbol isSymbol =>
    have others : ∀ entry ∈ TokenKind.symbols, entry.2 ≠ .float := by decide
    exact absurd same.symm (others _ isSymbol)

/-- The spelling of an operator is a symbol. -/
theorem ofSymbol?_eq {kind : TokenKind} (spells : Spells spelled kind value)
    (isOperator : kind ∈ binaryOperators ++ prefixOperators) :
    TokenKind.ofSymbol? value = some kind := by
  cases spells with
  | word _ =>
    have words : ∀ kind ∈ [TokenKind.letKeyword, .bool, .ident],
        kind ∉ binaryOperators ++ prefixOperators := by decide
    exact absurd isOperator (words _ (Lexeme.ofWord_mem spelled))
  | int | float | string => exact absurd isOperator (by decide)
  | symbol isSymbol => exact Lexeme.ofSymbol?_eq_some_iff.mpr isSymbol

end Spells

namespace Grammar

/-- Tokens that all have a spelling. -/
def Spelled (tokens : List Token) : Prop :=
  ∀ token ∈ tokens, ∃ spelled, Spells spelled token.kind token.value

variable {placed : Placement} {expr : Phrase} {tokens : List Token} {node : Node}

/-- What is derived at a level is an operand of this level. -/
theorem Derives.isOperand {level : Level} (spelled : Spelled tokens)
    (h : Derives placed expr level tokens node) : node.IsOperand level := by
  refine ⟨h.isExpression, ?_⟩
  induction h with
  | primary derived => cases derived <;> exact le_rfl
  | unary => exact le_rfl
  | @binary level leftTokens rightTokens op left right span _ isOperator _ _ _ _ =>
    obtain ⟨_, spells⟩ := spelled op (by simp)
    have known := spells.ofSymbol?_eq (List.mem_append_left _ (mem_binaryOperators isOperator))
    exact (congrArg Level.rank (operatorLevel_eq isOperator known)).ge
  | operand notPrimary _ ih =>
    refine le_trans ?_ (ih spelled)
    rw [Level.rank_tighter _ notPrimary]
    exact Nat.le_succ _

/-- The first of two lists of spelled tokens is spelled. -/
theorem Spelled.left {front : List Token} (spelled : Spelled (front ++ tokens)) : Spelled front :=
  fun token isIn => spelled token (List.mem_append_left _ isIn)

/-- The second of two lists of spelled tokens is spelled. -/
theorem Spelled.right {front : List Token} (spelled : Spelled (front ++ tokens)) :
    Spelled tokens :=
  fun token isIn => spelled token (List.mem_append_right _ isIn)

/-- A primary of spelled tokens is proper. -/
theorem Primary.proper (sorts : ∀ tokens node, expr tokens node → node.isExpression = true)
    (spelled : Spelled tokens) (h : Primary placed expr tokens node) : node.Proper := by
  cases h with
  | @integer token span isKind _ =>
    obtain ⟨_, spells⟩ := spelled token List.mem_cons_self
    rw [isKind] at spells
    obtain ⟨numeral, short⟩ := spells.isNumeral
    refine ⟨Int.natCast_nonneg _, le_trans ?_ short⟩
    exact Text.length_ofNat_toNat_le numeral
  | @float token span isKind _ =>
    obtain ⟨_, spells⟩ := spelled token List.mem_cons_self
    rw [isKind] at spells
    exact Binary64.ofLiteral_finite spells.isBounded
  | @name token span isKind _ =>
    obtain ⟨_, spells⟩ := spelled token List.mem_cons_self
    rw [isKind] at spells
    exact spells.isIdentifier
  | boolean | string => trivial
  | group _ derived _ _ => exact sorts _ _ derived
  | block _ derived ending _ _ =>
    refine ⟨derived.isStatement, fun last isLast => ?_⟩
    subst isLast
    cases ending with
    | present derived => exact sorts _ _ derived

/-- An expression of spelled tokens is proper. -/
theorem Derives.proper (sorts : ∀ tokens node, expr tokens node → node.isExpression = true)
    {level : Level} (spelled : Spelled tokens) (h : Derives placed expr level tokens node) :
    node.Proper := by
  induction h with
  | primary derived => exact derived.proper sorts spelled
  | @unary op tokens operand span isPrefix derived _ _ =>
    obtain ⟨_, spells⟩ := spelled op List.mem_cons_self
    have known := spells.ofSymbol?_eq (List.mem_append_right _ isPrefix)
    exact ⟨⟨op.kind, isPrefix, known⟩, derived.isOperand (@Spelled.right _ [op] spelled)⟩
  | @binary level leftTokens rightTokens op left right span leftDerived isOperator rightDerived _ _
      _ =>
    obtain ⟨_, spells⟩ := spelled op (by simp)
    have isBinary := mem_binaryOperators isOperator
    have known := spells.ofSymbol?_eq (List.mem_append_left _ isBinary)
    rw [← operatorLevel_eq isOperator known] at leftDerived rightDerived
    exact ⟨⟨op.kind, isBinary, known⟩, leftDerived.isOperand spelled.left.left,
      rightDerived.isOperand spelled.right⟩
  | operand _ _ ih => exact ih spelled

/-- A statement of spelled tokens is proper if what is derived as an expression is one. -/
theorem Statement.proper (sorts : ∀ tokens node, expr tokens node → node.isExpression = true)
    {inside : Bool} {next : TokenKind} (spelled : Spelled tokens)
    (h : Statement placed expr inside next tokens node) : node.Proper := by
  cases h with
  | @binding keyword name assign semi typeTokens valueTokens type? value span _ isName type _ derived
      _ _ =>
    obtain ⟨_, spells⟩ := spelled name (by simp)
    rw [isName] at spells
    refine ⟨spells.isIdentifier, fun text isType => ?_, sorts _ _ derived⟩
    subst isType
    cases type with
    | @present colon type _ isType =>
      obtain ⟨_, spells⟩ := spelled type (by simp)
      rw [isType] at spells
      exact spells.isIdentifier
  | terminated derived _ _ => exact sorts _ _ derived
  | standing derived _ _ _ _ _ => exact sorts _ _ derived

/-- Every node that stands in spelled tokens is proper. -/
theorem Stands.proper (spelled : Spelled tokens) (stands : Stands placed tokens node) :
    node.Proper := by
  obtain ⟨before, inner, after, depth, rfl, derived | derived⟩ := stands
  · cases depth with
    | zero => exact derived.elim
    | succ depth =>
      exact Derives.proper (fun _ _ value => value.isExpression) spelled.left.right derived
  · exact derived.proper (fun _ _ value => value.isExpression) spelled.left.right

/-- Every node of a program of spelled tokens is proper. -/
theorem Program.proper (spelled : Spelled tokens) (h : Program placed tokens node) :
    ∀ part ∈ node.preorder, part.Proper := by
  intro part isPart
  rcases h.stands part isPart with rfl | stands
  · obtain ⟨_, _, stmts, rfl, derived⟩ := h
    exact derived.isStatement
  · exact stands.proper spelled

end Grammar

end SinosLang
