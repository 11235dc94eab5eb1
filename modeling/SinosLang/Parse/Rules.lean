import SinosLang.Parse.Cursor

/-!
# The rules of the grammar

One action per rule of the grammar. The rules are written down once for every builder, that is for
every way to carry them out: the cursor is moved by actions of its own, and the builder says how a
tree is made and how many rounds a loop may take. The rules below brackets are given the action for
the expression inside, so that brackets are the only place of recursion, and `expressionWithin`
bounds how deep they go. From loosest to tightest the levels are: equality and comparison, with at
most one operator each; concatenation, sums and products, grouping to the left; prefix operators; and
primaries.
-/

set_option autoImplicit false

namespace SinosLang

namespace Parse

/-- The operators of equality. -/
def equalityOps : List TokenKind :=
  [.eq, .ne]

/-- The operators of comparison. -/
def comparisonOps : List TokenKind :=
  [.lt, .le, .gt, .ge]

/-- The operator of concatenation. -/
def concatenationOps : List TokenKind :=
  [.cat]

/-- The operators of sums. -/
def sumOps : List TokenKind :=
  [.plus, .sub]

/-- The operators of products. -/
def productOps : List TokenKind :=
  [.mult, .div, .mod]

/-- The prefix operators. -/
def prefixOps : List TokenKind :=
  [.not, .sub, .plus]

/-- The name of a type behind a colon, if there is a colon. -/
def typePart : Parse (Option Token) := do
  match ← accept [.colon] with
  | some _ => some <$> expect .ident .expectName
  | none => return none

/-- The span that a statement ends with when it is made of the given expression: that of its
semicolon, or that of the expression itself if it is a block and no semicolon follows. -/
def statementEnd (expr : Node) : Parse Span := do
  if expr.isBlock then
    match ← accept [.semi] with
    | some semi => return semi.span
    | none => return expr.span
  else
    let semi ← expect .semi .expectSemi
    return semi.span

/-- The leaf that a token stands for by itself. -/
def leafNode? (token : Token) : Option Node :=
  match token.kind with
  | .int => some (.integer token.span (Text.toNat token.value))
  | .float => some (.float token.span (Binary64.ofLiteral token.value))
  | .bool => some (.boolean token.span (token.value == "true".toList))
  | .string => some (.string token.span token.value)
  | .ident => some (.name token.span token.value)
  | _ => none

/-- A run of prefix operators. -/
def prefixRun : Nat → Parse (List Token)
  | 0 => fail .depthExhausted
  | rounds + 1 => do
    if prefixOps.contains (← current).kind then
      let op ← advance
      let ops ← prefixRun rounds
      return op :: ops
    else
      return []

end Parse

/-- A way to carry out the rules of the grammar: the limits that are kept, what is done on the cursor
alone, the trees and how they are made, and the number of rounds that a loop may take. -/
structure Builder (m : Type → Type) (Tree : Type) where
  limits : Limits
  onCursor {α : Type} : Parse α → m α
  node : Tree → Node
  leaf : Node → m Tree
  build : Node → List Tree → m Tree
  rounds : m Nat

namespace Builder

open Parse

variable {m : Type → Type} [Monad m] {Tree : Type} (builder : Builder m Tree)

/-- The rest of a let statement from its keyword on: `let name [: Type] = expression ;`. Any token
is taken for the keyword. -/
def letStatement (expression : m Tree) : m Tree := do
  let keyword ← builder.onCursor advance
  let binding ← builder.onCursor (expect .ident .expectName)
  let type? ← builder.onCursor typePart
  let _ ← builder.onCursor (expect .assign .expectEqual)
  let value ← expression
  let semi ← builder.onCursor (expect .semi .expectSemi)
  let span ← builder.onCursor (cover keyword.span semi.span)
  builder.build (.letStmt span binding.value (type?.map Token.value) (builder.node value)) [value]

/-- The statement that a parsed expression forms with its semicolon, which only a block may do
without. -/
def expressionStatement (expr : Tree) : m Tree := do
  let stop ← builder.onCursor (statementEnd (builder.node expr))
  let span ← builder.onCursor (cover (builder.node expr).span stop)
  builder.build (.exprStmt span (builder.node expr)) [expr]

/-- A statement. -/
def statement (expression : m Tree) : m Tree := do
  if (← builder.onCursor current).kind = .letKeyword then
    builder.letStatement expression
  else
    let expr ← expression
    builder.expressionStatement expr

/-- What a block holds up to its closing brace or the end: its statements, and the expression that
stands directly before the brace. -/
def blockItems (expression : m Tree) : Nat → m (List Tree × Option Tree)
  | 0 => builder.onCursor (fail .depthExhausted)
  | rounds + 1 => do
    let kind := (← builder.onCursor current).kind
    if kind = .rbrace ∨ kind = .eof then
      return ([], none)
    else if kind = .letKeyword then
      let stmt ← builder.letStatement expression
      let (stmts, last?) ← blockItems expression rounds
      return (stmt :: stmts, last?)
    else
      let expr ← expression
      if (← builder.onCursor current).kind = .rbrace then
        return ([], some expr)
      else
        let stmt ← builder.expressionStatement expr
        let (stmts, last?) ← blockItems expression rounds
        return (stmt :: stmts, last?)

/-- A block. Its brace counts as open once it has been consumed. -/
def block (expression : m Tree) : m Tree := do
  let opening ← builder.onCursor (expect .lbrace .expectExpr)
  builder.onCursor (openBracket builder.limits opening)
  let (stmts, last?) ← builder.blockItems expression (← builder.rounds)
  let closing ← builder.onCursor (expect .rbrace .expectBraceClose)
  builder.onCursor closeBracket
  let span ← builder.onCursor (cover opening.span closing.span)
  builder.build (.block span (stmts.map builder.node) (last?.map builder.node))
    (stmts ++ last?.toList)

/-- A parenthesised expression. Its parenthesis counts as open before it is consumed. -/
def group (expression : m Tree) (opening : Token) : m Tree := do
  builder.onCursor (openBracket builder.limits opening)
  let _ ← builder.onCursor advance
  let inner ← expression
  let closing ← builder.onCursor (expect .rparen .expectParenClose)
  builder.onCursor closeBracket
  let span ← builder.onCursor (cover opening.span closing.span)
  builder.build (.group span (builder.node inner)) [inner]

/-- A primary: a literal, a name, a block or a parenthesised expression. -/
def primary (expression : m Tree) : m Tree := do
  let token ← builder.onCursor current
  match leafNode? token with
  | some node =>
    let _ ← builder.onCursor advance
    builder.leaf node
  | none =>
    if token.kind = .lbrace then
      builder.block expression
    else if token.kind = .lparen then
      builder.group expression token
    else
      builder.onCursor (report .expectExpr token.span)

/-- Applies prefix operators to an operand, the last one first. -/
def applyPrefixes (operand : Tree) : List Token → m Tree
  | [] => pure operand
  | op :: ops => do
    let inner ← applyPrefixes operand ops
    let span ← builder.onCursor (cover op.span (builder.node inner).span)
    builder.build (.unary span op.value (builder.node inner)) [inner]

/-- A primary behind any run of prefix operators. -/
def unary (expression : m Tree) : m Tree := do
  let ops ← builder.onCursor (prefixRun (← builder.rounds))
  let operand ← builder.primary expression
  builder.applyPrefixes operand ops

/-- The tree of a binary operator. -/
def binaryNode (op : Token) (left right : Tree) : m Tree := do
  let span ← builder.onCursor (cover (builder.node left).span (builder.node right).span)
  builder.build (.binary span op.value (builder.node left) (builder.node right)) [left, right]

/-- Goes on with operators and operands behind a first operand, grouping to the left. -/
def extendLeft (operand : m Tree) (ops : List TokenKind) : Nat → Tree → m Tree
  | 0, _ => builder.onCursor (fail .depthExhausted)
  | rounds + 1, left => do
    if ops.contains (← builder.onCursor current).kind then
      let op ← builder.onCursor advance
      let right ← operand
      let whole ← builder.binaryNode op left right
      extendLeft operand ops rounds whole
    else
      return left

/-- A level whose operators group to the left. -/
def leftAssociative (operand : m Tree) (ops : List TokenKind) : m Tree := do
  let first ← operand
  builder.extendLeft operand ops (← builder.rounds) first

/-- A level with at most one operator. A second one is reported together with both of its operands,
from the start of the first to the end of the second. -/
def nonAssociative (operand : m Tree) (ops : List TokenKind) (chain : Fault) : m Tree := do
  let left ← operand
  if ops.contains (← builder.onCursor current).kind then
    let op ← builder.onCursor advance
    let right ← operand
    if ops.contains (← builder.onCursor current).kind then
      let _ ← builder.onCursor advance
      let chained ← operand
      let span ← builder.onCursor (cover (builder.node right).span (builder.node chained).span)
      builder.onCursor (report chain span)
    else
      builder.binaryNode op left right
  else
    return left

/-- A product. -/
def product (expression : m Tree) : m Tree :=
  builder.leftAssociative (builder.unary expression) productOps

/-- A sum. -/
def sum (expression : m Tree) : m Tree :=
  builder.leftAssociative (builder.product expression) sumOps

/-- A concatenation. -/
def concatenation (expression : m Tree) : m Tree :=
  builder.leftAssociative (builder.sum expression) concatenationOps

/-- A comparison. -/
def comparison (expression : m Tree) : m Tree :=
  builder.nonAssociative (builder.concatenation expression) comparisonOps .cmpChain

/-- An equality, the loosest level. -/
def equality (expression : m Tree) : m Tree :=
  builder.nonAssociative (builder.comparison expression) equalityOps .eqChain

/-- An expression in which brackets are nested less than so deep. -/
def expressionWithin : Nat → m Tree
  | 0 => builder.onCursor (fail .depthExhausted)
  | depth + 1 => builder.equality (expressionWithin depth)

/-- A rule with the action for the expressions inside its brackets. Every bracket consumes a token,
so the tokens still to come bound their depth. -/
def withBrackets {α : Type} (rule : m Tree → m α) : m α := do
  rule (builder.expressionWithin (← builder.onCursor budget))

/-- Statements up to the end. -/
def statements (expression : m Tree) : Nat → m (List Tree)
  | 0 => builder.onCursor (fail .depthExhausted)
  | rounds + 1 => do
    if (← builder.onCursor current).kind = .eof then
      return []
    else
      let stmt ← builder.statement expression
      let stmts ← statements expression rounds
      return stmt :: stmts

/-- A whole program. Its span runs from the start of the text to its end. -/
def program (expression : m Tree) : m Tree := do
  let stmts ← builder.statements expression (← builder.rounds)
  let finish ← builder.onCursor current
  let span ← builder.onCursor (cover ⟨0, 0⟩ finish.span)
  builder.build (.module span (stmts.map builder.node)) stmts

end Builder

end SinosLang
