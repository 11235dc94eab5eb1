import SinosLang.Parse.Grammar

/-!
# The grammar under a clock

The rules take the number of rounds of a loop from the readings still to come. Here they take it as
a parameter, a function of the cursor, and the depth of brackets as another one, so that it can be
asked how many rounds and how much depth a parse needs. With the rounds of the budget they are the
rules of the grammar.

Main statement: `Rule.action_eq_clocked`.
-/

set_option autoImplicit false

namespace SinosLang

namespace Parse

/-- The rules of the grammar that a parse can start with. -/
inductive Rule
  | program
  | statement
  | letStatement
  | block
  | expression
  | equality
  | comparison
  | concatenation
  | sum
  | product
  | unary
  | primary
deriving DecidableEq, Repr

/-- Answers with a number of rounds that depends on the cursor alone. -/
def allot (rounds : Cursor → Nat) : Parse Nat := fun cursor =>
  (.ok (rounds cursor), cursor)

end Parse

/-- Carries heights along with the trees, and takes the rounds of loops from a clock. -/
abbrev Builder.clocked (limits : Limits) (rounds : Cursor → Nat) : Builder Parse Measured :=
  { measuring limits with rounds := Parse.allot rounds }

namespace Parse

namespace Rule

/-- A rule, given the action for the expressions in it. -/
def body {m : Type → Type} [Monad m] {Tree : Type} (builder : Builder m Tree) (inner : m Tree) :
    Rule → m Tree
  | program => builder.program inner
  | statement => builder.statement inner
  | letStatement => builder.letStatement inner
  | block => builder.block inner
  | expression => inner
  | equality => builder.equality inner
  | comparison => builder.comparison inner
  | concatenation => builder.concatenation inner
  | sum => builder.sum inner
  | product => builder.product inner
  | unary => builder.unary inner
  | primary => builder.primary inner

/-- A rule as it is called. An expression is an equality. -/
def call {m : Type → Type} [Monad m] {Tree : Type} (builder : Builder m Tree) : Rule → m Tree
  | expression => builder.withBrackets builder.equality
  | rule => builder.withBrackets fun inner => rule.body builder inner

variable (limits : Limits)

/-- A rule of the grammar. -/
def action (rule : Rule) : Parse Measured :=
  rule.call (.measuring limits)

/-- A rule with so many rounds for its loops and so much depth for its expressions. -/
def clocked (rounds : Cursor → Nat) (depth : Nat) (rule : Rule) : Parse Measured :=
  rule.body (.clocked limits rounds) ((Builder.clocked limits rounds).expressionWithin depth)

end Rule

/-- The number of rounds that the rules of the grammar take for their loops. -/
def budgeted (cursor : Cursor) : Nat :=
  cursor.upcoming.length + 2

/-- A rule of the grammar is the one whose clock is set to the budget. An expression as a whole
takes one level more, itself. -/
theorem Rule.action_eq_clocked (limits : Limits) (rule : Rule) (cursor : Cursor) :
    ∃ depth, budgeted cursor ≤ depth ∧
      rule.action limits cursor = rule.clocked limits budgeted depth cursor := by
  cases rule with
  | expression => exact ⟨budgeted cursor + 1, Nat.le_succ _, rfl⟩
  | _ => exact ⟨budgeted cursor, Nat.le_refl _, rfl⟩

/-! ## Loops under a clock

A loop is given its rounds, so what it does is the same under every clock.
-/

section Loops

variable (limits : Limits) (rounds : Cursor → Nat) (expression operand : Parse Measured)

/-- Operators and operands are gone through alike under every clock. -/
theorem clocked_extendLeft (ops : List TokenKind) (fuel : Nat) (left : Measured) :
    (Builder.clocked limits rounds).extendLeft operand ops fuel left =
      extendLeft limits operand ops fuel left := by
  induction fuel generalizing left with
  | zero => rfl
  | succ fuel ih => simp only [extendLeft, Builder.extendLeft, Builder.binaryNode, ih]

/-- What a block holds is gone through alike under every clock. -/
theorem clocked_blockItems (fuel : Nat) :
    (Builder.clocked limits rounds).blockItems expression fuel =
      blockItems limits expression fuel := by
  induction fuel with
  | zero => rfl
  | succ fuel ih =>
    simp only [blockItems, Builder.blockItems, Builder.letStatement, Builder.expressionStatement,
      ih]

/-- The statements of a program are gone through alike under every clock. -/
theorem clocked_statements (fuel : Nat) :
    (Builder.clocked limits rounds).statements expression fuel =
      statements limits expression fuel := by
  induction fuel with
  | zero => rfl
  | succ fuel ih =>
    simp only [statements, Builder.statements, Builder.statement, Builder.letStatement,
      Builder.expressionStatement, ih]

/-- Prefix operators are applied alike under every clock. -/
theorem clocked_applyPrefixes (operand : Measured) (ops : List Token) :
    (Builder.clocked limits rounds).applyPrefixes operand ops =
      applyPrefixes limits operand ops := by
  induction ops with
  | nil => rfl
  | cons op ops ih => simp only [applyPrefixes, Builder.applyPrefixes, ih]

end Loops

end Parse

end SinosLang
