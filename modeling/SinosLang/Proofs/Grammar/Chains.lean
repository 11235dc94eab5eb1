import SinosLang.Proofs.Grammar.Carrying

/-!
# Chains of operators

A level that groups to the left takes any number of operators: its phrases are chains of operands.
If the levels of equality and of comparison are given chains as well, which the grammar does not
allow them, every text that is rejected for a chain gets a tree, the one that groups to the left.

Main statement: `Carrying.chained`, expressions with chains on all levels are carried over like those
of the grammar.
-/

set_option autoImplicit false

namespace SinosLang.Grammar

/-- Operands with operators between them, grouping to the left. -/
inductive Chain (placed : Placement) (operand : Phrase) (ops : List TokenKind) : Phrase
  | single {tokens : List Token} {node : Node} :
    operand tokens node → Chain placed operand ops tokens node
  | longer {leftTokens rightTokens : List Token} {op : Token} {left right : Node} {span : Span} :
    Chain placed operand ops leftTokens left → op.kind ∈ ops → operand rightTokens right →
    placed (leftTokens ++ [op] ++ rightTokens) span →
    Chain placed operand ops (leftTokens ++ [op] ++ rightTokens) (.binary span op.value left right)

section Chains

variable {placed : Placement} {operand : Phrase} {ops : List TokenKind} {tokens : List Token}
  {node : Node}

/-- A chain starts like its first operand. -/
theorem Chain.exists_head (h : Chain placed operand ops tokens node)
    (starts : ∀ tokens node, operand tokens node →
      ∃ first rest, tokens = first :: rest ∧ first.kind ∈ starters) :
    ∃ first rest, tokens = first :: rest ∧ first.kind ∈ starters := by
  induction h with
  | single derived => exact starts _ _ derived
  | longer _ _ _ _ ih =>
    obtain ⟨first, rest, rfl, isStarter⟩ := ih
    exact ⟨first, _, rfl, isStarter⟩

/-- The span of a chain is one that its placement allows. -/
theorem Chain.placed_span (h : Chain placed operand ops tokens node)
    (allowed : ∀ tokens node, operand tokens node → placed tokens node.span) :
    placed tokens node.span := by
  cases h with
  | single derived => exact allowed _ _ derived
  | longer _ _ _ allowed => exact allowed

/-- The phrases of a level that groups to the left are chains. -/
theorem Derives.chain {expr : Phrase} {level : Level} (groups : level.groups = true)
    (h : Derives placed expr level tokens node) :
    Chain placed (Derives placed expr level.tighter) level.operators tokens node := by
  have leftOperand : level.leftOperand = level := by
    rw [Level.leftOperand, if_pos groups]
  generalize same : level = here at h
  induction h with
  | primary _ | unary _ _ _ _ =>
    subst same
    cases groups
  | operand _ derived _ =>
    subst same
    exact .single derived
  | binary _ isOperator right allowed ihLeft _ =>
    subst same
    have left := ihLeft leftOperand.symm
    rw [leftOperand] at left
    exact .longer left isOperator right allowed

end Chains

variable (placed : Placement)

/-- The phrases of a level if chains are allowed on every level that has operators between
operands. -/
def Loose (expr : Phrase) : Level → Phrase
  | .equality =>
    Chain placed (Chain placed (Derives placed expr .concatenation) Level.comparison.operators)
      Level.equality.operators
  | .comparison => Chain placed (Derives placed expr .concatenation) Level.comparison.operators
  | level => Derives placed expr level

/-- The expressions with chains on all levels in which brackets are nested less than so deep. -/
def Chained : Nat → Phrase
  | 0 => fun _ _ => False
  | depth + 1 => Loose placed (Chained depth) .equality

variable {placed} {expr : Phrase} {level : Level} {tokens : List Token} {node : Node}

namespace Loose

/-- A phrase of the next tighter level is one of the level. -/
theorem operand (notPrimary : level ≠ .primary) (h : Loose placed expr level.tighter tokens node) :
    Loose placed expr level tokens node := by
  cases level with
  | equality | comparison => exact .single h
  | primary => exact absurd rfl notPrimary
  | _ => exact .operand notPrimary h

/-- A phrase of the level goes on with an operator and an operand. -/
theorem binary {op : Token} {leftTokens rightTokens : List Token} {left right : Node} {span : Span}
    (isLeft : Loose placed expr level leftTokens left) (isOperator : op.kind ∈ level.operators)
    (isRight : Loose placed expr level.tighter rightTokens right)
    (allowed : placed (leftTokens ++ [op] ++ rightTokens) span) :
    Loose placed expr level (leftTokens ++ [op] ++ rightTokens)
      (.binary span op.value left right) := by
  cases level with
  | equality | comparison => exact .longer isLeft isOperator isRight allowed
  | prefixed | primary => cases isOperator
  | _ => exact .binary isLeft isOperator isRight allowed

/-- A primary is a phrase of the loosest level. -/
theorem of_primary (h : Primary placed expr tokens node) :
    Loose placed expr .equality tokens node :=
  .single (.single ((Derives.primary h).loosen (by decide)))

end Loose

namespace Chained

variable {depth : Nat}

/-- A chain begins with a token that an expression may begin with. -/
theorem exists_head (h : Chained placed depth tokens node) :
    ∃ first rest, tokens = first :: rest ∧ first.kind ∈ starters := by
  cases depth with
  | zero => exact h.elim
  | succ depth =>
    exact Chain.exists_head h fun _ _ inner =>
      inner.exists_head fun _ _ derived => derived.exists_head

/-- A chain has a token. -/
theorem ne_nil (h : Chained placed depth tokens node) : tokens ≠ [] := by
  obtain ⟨_, _, rfl, _⟩ := h.exists_head
  exact List.cons_ne_nil _ _

/-- The span of a chain is one that its tokens may be placed at. -/
theorem placed_span (h : Chained placed depth tokens node) : placed tokens node.span := by
  cases depth with
  | zero => exact h.elim
  | succ depth =>
    exact Chain.placed_span h fun _ _ inner =>
      inner.placed_span fun _ _ derived => derived.placed_span

end Chained

namespace Carrying

variable {placed' : Placement} {good : List Token → Prop} {f : Token → Token} {g g' : Span → Span}
  (carry : Carrying placed placed' good f g g')
include carry

/-- The tree of a binary operator has a counterpart if its operands have. -/
theorem chain {operand operand' : Phrase} (ops : List TokenKind)
    (inner : Carries good f g g' operand operand') :
    Carries good f g g' (Chain placed operand ops) (Chain placed' operand' ops) := by
  intro tokens node ok h
  induction h with
  | single derived =>
    obtain ⟨node', derived', same⟩ := inner _ _ ok derived
    exact ⟨node', .single derived', same⟩
  | @longer leftTokens rightTokens op left right span _ isOperator right_derived allowed ih =>
    obtain ⟨span', allowed', sameSpan⟩ := carry.place _ _ ok (by simp) allowed
    obtain ⟨left', left_derived', sameLeft⟩ := ih (carry.good_left _ _ (carry.good_left _ _ ok))
    obtain ⟨right', right_derived', sameRight⟩ := inner _ _ (carry.good_right _ _ ok) right_derived
    refine ⟨.binary span' (f op).value left' right', ?_, ?_⟩
    · simp only [List.map_append, List.map_cons, List.map_nil] at allowed' ⊢
      exact .longer left_derived' ((carry.kind_eq op).symm ▸ isOperator) right_derived' allowed'
    · rw [carry.value_eq, Node.mapSpans, Node.mapSpans, sameSpan, sameLeft, sameRight]

/-- Expressions with chains have counterparts. -/
theorem chained (depth : Nat) :
    Carries good f g g' (Chained placed depth) (Chained placed' depth) := by
  induction depth with
  | zero =>
    intro tokens node _ h
    exact h.elim
  | succ depth ih =>
    exact carry.chain _ (carry.chain _ (carry.derives (fun _ _ derived => derived.ne_nil) ih _))

end Carrying

end SinosLang.Grammar
