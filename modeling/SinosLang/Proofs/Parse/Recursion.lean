import SinosLang.Proofs.Parse.Clocked

/-!
# The recursion of the grammar

The grammar is a recursion without bounds: rules call each other and themselves, and loops go on for
as long as they find something. It is given here as it stands, by what each rule does in terms of
the calls it makes. Its finite approximations are found by allowing no calls at first, and then
those that have an outcome already; the recursion itself has the outcome that all late
approximations agree on.

The run is watched: how many calls of the rule for expressions have not returned yet, the most of
them there have been at once, and how many tokens were consumed.

Main definitions: `Calls.step`, `Calls.within` and `Settles`.
-/

set_option autoImplicit false

namespace SinosLang

/-- A cursor with what is watched of the run that has come to it: the calls of the rule for
expressions that have not returned, the most of them at once, and the number of tokens consumed. A
failure ends all calls, which then do not return. -/
structure Probe where
  cursor : Cursor
  active : Nat
  peak : Nat
  taken : Nat

/-- The probe of a run that begins at a cursor. -/
def Probe.start (cursor : Cursor) : Probe where
  cursor := cursor
  active := 0
  peak := 0
  taken := 0

/-- A watched action. It has no outcome where it makes a call that has none. -/
abbrev Watched (α : Type) : Type :=
  ExceptT Failure (StateT Probe Option) α

namespace Watched

variable {α : Type}

/-- An action that consumes no token and calls no rule. -/
def watch (action : Parse α) : Watched α := fun probe =>
  let (outcome, after) := action probe.cursor
  some (outcome, { probe with cursor := after })

/-- Consumes the lookahead token, which counts unless it is the end. -/
def take : Watched Token := fun probe =>
  match Parse.advance probe.cursor with
  | (.ok token, after) =>
    let count := if token.kind = .eof then 0 else 1
    some (.ok token, { probe with cursor := after, taken := probe.taken + count })
  | (.error failure, after) => some (.error failure, { probe with cursor := after })

/-- A call of the rule for expressions begins. -/
def enter : Watched Unit := fun probe =>
  let active := probe.active + 1
  some (.ok (), { probe with active := active, peak := max probe.peak active })

/-- A call of the rule for expressions returns. -/
def leave : Watched Unit := fun probe =>
  some (.ok (), { probe with active := probe.active - 1 })

/-- An action that is a call of the rule for expressions. -/
def called (action : Watched α) : Watched α := do
  enter
  let result ← action
  leave
  return result

/-- Consumes the lookahead token if it is of one of the kinds. -/
def accept (kinds : List TokenKind) : Watched (Option Token) := do
  let token ← watch Parse.current
  if kinds.contains token.kind then
    return some (← take)
  else
    return none

/-- Consumes a token of a kind, or reports a fault at the lookahead token. -/
def expect (kind : TokenKind) (fault : Fault) : Watched Token := do
  match ← accept [kind] with
  | some token => return token
  | none => watch (Parse.report fault (← watch Parse.current).span)

/-- The name of a type behind a colon, if there is a colon. -/
def typePart : Watched (Option Token) := do
  match ← accept [.colon] with
  | some _ => some <$> expect .ident .expectName
  | none => return none

/-- The span that a statement ends with when it is made of the given expression. -/
def statementEnd (expr : Node) : Watched Span := do
  if expr.isBlock then
    match ← accept [.semi] with
    | some semi => return semi.span
    | none => return expr.span
  else
    let semi ← expect .semi .expectSemi
    return semi.span

/-- The statement that a parsed expression forms with its semicolon. -/
def expressionStatement (limits : Limits) (expr : Measured) : Watched Measured := do
  let stop ← statementEnd expr.node
  let span ← watch (Parse.cover expr.node.span stop)
  watch (Parse.build limits (.exprStmt span expr.node) [expr])

/-- A level with at most one operator. -/
def nonAssociative (limits : Limits) (operand : Watched Measured) (ops : List TokenKind)
    (chain : Fault) : Watched Measured := do
  let left ← operand
  if ops.contains (← watch Parse.current).kind then
    let op ← take
    let right ← operand
    if ops.contains (← watch Parse.current).kind then
      let _ ← take
      let chained ← operand
      let span ← watch (Parse.cover right.node.span chained.node.span)
      watch (Parse.report chain span)
    else
      watch (Parse.binaryNode limits op left right)
  else
    return left

/-- A watched action does to the cursor what the action does. -/
theorem watch_eq {action : Parse α} {probe : Probe} {outcome : Except Failure α} {after : Cursor}
    (run : action probe.cursor = (outcome, after)) :
    watch action probe = some (outcome, { probe with cursor := after }) := by
  unfold watch
  rw [run]

/-- Taking a token counts it, unless it is the end. -/
theorem take_of_ok {probe : Probe} {token : Token} {after : Cursor}
    (run : Parse.advance probe.cursor = (.ok token, after)) :
    take probe = some (.ok token, ⟨after, probe.active, probe.peak,
      probe.taken + if token.kind = .eof then 0 else 1⟩) := by
  unfold take
  rw [run]

/-- A token that cannot be consumed is not counted. -/
theorem take_of_error {probe : Probe} {failure : Failure} {after : Cursor}
    (run : Parse.advance probe.cursor = (.error failure, after)) :
    take probe = some (.error failure, { probe with cursor := after }) := by
  unfold take
  rw [run]

end Watched

open Parse (Rule)

/-- What the rules and the loops of the grammar do when they are called. A loop is called again for
each of its rounds: over operators and operands behind a first one, over prefix operators, over what
a block holds, and over statements up to the end. -/
structure Calls where
  rule : Rule → Watched Measured
  operators : Rule → List TokenKind → Measured → Watched Measured
  prefixes : Watched (List Token)
  items : Watched (List Measured × Option Measured)
  statements : Watched (List Measured)

namespace Calls

open Watched
open Parse (current openBracket closeBracket cover build report)

/-- No call has an outcome. -/
def nowhere : Calls where
  rule _ _ := none
  operators _ _ _ _ := none
  prefixes _ := none
  items _ := none
  statements _ := none

variable (limits : Limits) (calls : Calls)

/-- A rule, in terms of the calls it makes. -/
def stepRule : Rule → Watched Measured
  | .program => do
    let stmts ← calls.statements
    let finish ← watch current
    let span ← watch (cover ⟨0, 0⟩ finish.span)
    watch (build limits (.module span (stmts.map Measured.node)) stmts)
  | .statement => do
    if (← watch current).kind = .letKeyword then
      calls.rule .letStatement
    else
      let expr ← calls.rule .expression
      expressionStatement limits expr
  | .letStatement => do
    let keyword ← take
    let binding ← expect .ident .expectName
    let type? ← typePart
    let _ ← expect .assign .expectEqual
    let value ← calls.rule .expression
    let semi ← expect .semi .expectSemi
    let span ← watch (cover keyword.span semi.span)
    watch (build limits (.letStmt span binding.value (type?.map Token.value) value.node) [value])
  | .block => do
    let opening ← expect .lbrace .expectExpr
    watch (openBracket limits opening)
    let (stmts, last?) ← calls.items
    let closing ← expect .rbrace .expectBraceClose
    watch closeBracket
    let span ← watch (cover opening.span closing.span)
    watch (build limits (.block span (stmts.map Measured.node) (last?.map Measured.node))
      (stmts ++ last?.toList))
  | .expression => called (calls.rule .equality)
  | .equality => nonAssociative limits (calls.rule .comparison) Parse.equalityOps .eqChain
  | .comparison => nonAssociative limits (calls.rule .concatenation) Parse.comparisonOps .cmpChain
  | .concatenation => do
    let first ← calls.rule .sum
    calls.operators .sum Parse.concatenationOps first
  | .sum => do
    let first ← calls.rule .product
    calls.operators .product Parse.sumOps first
  | .product => do
    let first ← calls.rule .unary
    calls.operators .unary Parse.productOps first
  | .unary => do
    let ops ← calls.prefixes
    let operand ← calls.rule .primary
    watch (Parse.applyPrefixes limits operand ops)
  | .primary => do
    let token ← watch current
    match Parse.leafNode? token with
    | some node =>
      let _ ← take
      return Parse.leaf node
    | none =>
      if token.kind = .lbrace then
        calls.rule .block
      else if token.kind = .lparen then
        watch (openBracket limits token)
        let _ ← take
        let inner ← calls.rule .expression
        let closing ← expect .rparen .expectParenClose
        watch closeBracket
        let span ← watch (cover token.span closing.span)
        watch (build limits (.group span inner.node) [inner])
      else
        watch (report .expectExpr token.span)

/-- What the rules and the loops do in terms of the calls they make. -/
def step : Calls where
  rule := stepRule limits calls
  operators operand ops left := do
    if ops.contains (← watch current).kind then
      let op ← take
      let right ← calls.rule operand
      let whole ← watch (Parse.binaryNode limits op left right)
      calls.operators operand ops whole
    else
      return left
  prefixes := do
    if Parse.prefixOps.contains (← watch current).kind then
      let op ← take
      let ops ← calls.prefixes
      return op :: ops
    else
      return []
  items := do
    let kind := (← watch current).kind
    if kind = .rbrace ∨ kind = .eof then
      return ([], none)
    else if kind = .letKeyword then
      let stmt ← calls.rule .letStatement
      let (stmts, last?) ← calls.items
      return (stmt :: stmts, last?)
    else
      let expr ← calls.rule .expression
      if (← watch current).kind = .rbrace then
        return ([], some expr)
      else
        let stmt ← expressionStatement limits expr
        let (stmts, last?) ← calls.items
        return (stmt :: stmts, last?)
  statements := do
    if (← watch current).kind = .eof then
      return []
    else
      let stmt ← calls.rule .statement
      let stmts ← calls.statements
      return stmt :: stmts

/-- The calls that have an outcome when none is nested deeper than so often. -/
def within : Nat → Calls
  | 0 => nowhere
  | count + 1 => step limits (within count)

end Calls

/-- The outcome that the approximations of a run come to from some one on. -/
def Settles {α : Type} (runs : Nat → Watched α) (probe : Probe)
    (outcome : Except Failure α × Probe) : Prop :=
  ∃ enough, ∀ count ≥ enough, runs count probe = some outcome

/-- There is one outcome at most. -/
theorem Settles.unique {α : Type} {runs : Nat → Watched α} {probe : Probe}
    {outcome outcome' : Except Failure α × Probe} (settles : Settles runs probe outcome)
    (settles' : Settles runs probe outcome') : outcome = outcome' := by
  obtain ⟨enough, agree⟩ := settles
  obtain ⟨enough', agree'⟩ := settles'
  have first := agree (max enough enough') (Nat.le_max_left _ _)
  rw [agree' (max enough enough') (Nat.le_max_right _ _)] at first
  exact (Option.some.inj first).symm

end SinosLang
