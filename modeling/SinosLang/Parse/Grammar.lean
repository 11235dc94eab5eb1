import SinosLang.Parse.Rules

/-!
# The grammar

The rules of the grammar, carried out by a parser that carries the height of every tree along with it.
A loop takes as many rounds as there can be tokens still to come.
-/

set_option autoImplicit false

namespace SinosLang

/-- Carries heights along with the trees. -/
abbrev Builder.measuring (limits : Limits) : Builder Parse Measured where
  limits := limits
  onCursor action := action
  node := Measured.node
  leaf node := pure (Parse.leaf node)
  build := Parse.build limits
  rounds := Parse.budget

namespace Parse

open Builder (measuring)

variable (limits : Limits)

/-- The rest of a let statement from its keyword on. -/
abbrev letStatement (expression : Parse Measured) : Parse Measured :=
  (measuring limits).letStatement expression

/-- The statement that a parsed expression forms with its semicolon. -/
abbrev expressionStatement (expr : Measured) : Parse Measured :=
  (measuring limits).expressionStatement expr

/-- A statement. -/
abbrev statement (expression : Parse Measured) : Parse Measured :=
  (measuring limits).statement expression

/-- What a block holds up to its closing brace or the end. -/
abbrev blockItems (expression : Parse Measured) (rounds : Nat) :
    Parse (List Measured × Option Measured) :=
  (measuring limits).blockItems expression rounds

/-- A block. -/
abbrev block (expression : Parse Measured) : Parse Measured :=
  (measuring limits).block expression

/-- A parenthesised expression. -/
abbrev group (expression : Parse Measured) (opening : Token) : Parse Measured :=
  (measuring limits).group expression opening

/-- A primary. -/
abbrev primary (expression : Parse Measured) : Parse Measured :=
  (measuring limits).primary expression

/-- Applies prefix operators to an operand. -/
abbrev applyPrefixes (operand : Measured) (ops : List Token) : Parse Measured :=
  (measuring limits).applyPrefixes operand ops

/-- A primary behind any run of prefix operators. -/
abbrev unary (expression : Parse Measured) : Parse Measured :=
  (measuring limits).unary expression

/-- The tree of a binary operator. -/
abbrev binaryNode (op : Token) (left right : Measured) : Parse Measured :=
  (measuring limits).binaryNode op left right

/-- Goes on with operators and operands behind a first operand. -/
abbrev extendLeft (operand : Parse Measured) (ops : List TokenKind) (rounds : Nat)
    (left : Measured) : Parse Measured :=
  (measuring limits).extendLeft operand ops rounds left

/-- A level whose operators group to the left. -/
abbrev leftAssociative (operand : Parse Measured) (ops : List TokenKind) : Parse Measured :=
  (measuring limits).leftAssociative operand ops

/-- A level with at most one operator. -/
abbrev nonAssociative (operand : Parse Measured) (ops : List TokenKind) (chain : Fault) :
    Parse Measured :=
  (measuring limits).nonAssociative operand ops chain

/-- A product. -/
abbrev product (expression : Parse Measured) : Parse Measured :=
  (measuring limits).product expression

/-- A sum. -/
abbrev sum (expression : Parse Measured) : Parse Measured :=
  (measuring limits).sum expression

/-- A concatenation. -/
abbrev concatenation (expression : Parse Measured) : Parse Measured :=
  (measuring limits).concatenation expression

/-- A comparison. -/
abbrev comparison (expression : Parse Measured) : Parse Measured :=
  (measuring limits).comparison expression

/-- An equality. -/
abbrev equality (expression : Parse Measured) : Parse Measured :=
  (measuring limits).equality expression

/-- An expression in which brackets are nested less than so deep. -/
abbrev expressionWithin (depth : Nat) : Parse Measured :=
  (measuring limits).expressionWithin depth

/-- A rule with the action for the expressions inside its brackets. -/
abbrev withBrackets {α : Type} (rule : Parse Measured → Parse α) : Parse α :=
  (measuring limits).withBrackets rule

/-- An expression. -/
def expression : Parse Measured :=
  withBrackets limits (equality limits)

/-- Statements up to the end. -/
abbrev statements (expression : Parse Measured) (rounds : Nat) : Parse (List Measured) :=
  (measuring limits).statements expression rounds

/-- A whole program. -/
def program : Parse Measured :=
  withBrackets limits (measuring limits).program

end Parse

/-- The tree of a source, or what stopped its parse, under the given limits. -/
def Source.parseWithin (limits : Limits) (source : Source) : Except Failure Node :=
  ((Parse.program limits (Cursor.start source)).1).map Measured.node

/-- The tree of a source, or what stopped its parse. -/
def Source.parse (source : Source) : Except Failure Node :=
  source.parseWithin Limits.standard

end SinosLang
