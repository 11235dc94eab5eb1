import SinosLang.Proofs.Parse.Simulation

/-!
# Loops and their rounds

The grammar has four loops: one over the operators of a level, one over prefix operators, one over
what a block holds and one over the statements of a program. Each of them is the repetition of a
round, which either is done or goes on; what the later rounds answer with is completed by what this
one has found. So whatever holds of every loop is shown once, of the repetition of a round, and what
a loop does in between is what its round does.

Main statements: `extendLeft_eq_cycle`, `prefixRun_eq_cycle`, `blockItems_eq_cycle` and
`statements_eq_cycle`.
-/

set_option autoImplicit false

namespace SinosLang.Parse

/-- What a round of a loop comes to: the loop is done, or it goes on with another state and
completes what it will answer with then. -/
inductive Turn (State Answer : Type) : Type
  | done (answer : Answer)
  | again (next : State) (complete : Answer → Answer)

/-- The repetition of a round until it is done, at most so many times. -/
def cycle {State Answer : Type} (round : State → Parse (Turn State Answer)) :
    Nat → State → Parse Answer
  | 0, _ => fail .depthExhausted
  | rounds + 1, state => do
    match ← round state with
    | .done answer => return answer
    | .again next complete => complete <$> cycle round rounds next

variable (limits : Limits) (expression : Parse Measured)

/-- A round over the operators of a level: an operator and its right operand, if an operator is
ahead. -/
def operatorRound (operand : Parse Measured) (ops : List TokenKind) (left : Measured) :
    Parse (Turn Measured Measured) := do
  if ops.contains (← current).kind then
    let op ← advance
    let right ← operand
    let whole ← binaryNode limits op left right
    return .again whole id
  else
    return .done left

/-- A round over prefix operators: one of them, if there is one ahead. -/
def prefixRound (_ : Unit) : Parse (Turn Unit (List Token)) := do
  if prefixOps.contains (← current).kind then
    let op ← advance
    return .again () (op :: ·)
  else
    return .done []

/-- A round over what a block holds: a statement, or the expression before the closing brace. -/
def itemRound (_ : Unit) : Parse (Turn Unit (List Measured × Option Measured)) := do
  let kind := (← current).kind
  if kind = .rbrace ∨ kind = .eof then
    return .done ([], none)
  else if kind = .letKeyword then
    let stmt ← letStatement limits expression
    return .again () (Prod.map (stmt :: ·) id)
  else
    let expr ← expression
    if (← current).kind = .rbrace then
      return .done ([], some expr)
    else
      let stmt ← expressionStatement limits expr
      return .again () (Prod.map (stmt :: ·) id)

/-- A round over the statements of a program. -/
def statementRound (_ : Unit) : Parse (Turn Unit (List Measured)) := do
  if (← current).kind = .eof then
    return .done []
  else
    let stmt ← statement limits expression
    return .again () (stmt :: ·)

/-! ## The loops -/

/-- The loop over the operators of a level repeats the round over them. -/
theorem extendLeft_eq_cycle (operand : Parse Measured) (ops : List TokenKind) (rounds : Nat)
    (left : Measured) :
    extendLeft limits operand ops rounds left =
      cycle (operatorRound limits operand ops) rounds left := by
  induction rounds generalizing left with
  | zero => rfl
  | succ rounds ih =>
    rw [extendLeft, Builder.extendLeft, cycle, operatorRound, bind_assoc]
    congr
    funext token
    split
    · simp only [bind_assoc, pure_bind, id_map, ih]
    · simp only [pure_bind]

/-- The loop over prefix operators repeats the round over them. -/
theorem prefixRun_eq_cycle (rounds : Nat) : prefixRun rounds = cycle prefixRound rounds () := by
  induction rounds with
  | zero => rfl
  | succ rounds ih =>
    rw [prefixRun, cycle, prefixRound, bind_assoc]
    congr
    funext token
    split
    · simp only [bind_assoc, pure_bind, map_eq_pure_bind, ih]
    · simp only [pure_bind]

/-- The loop over what a block holds repeats the round over it. -/
theorem blockItems_eq_cycle (rounds : Nat) :
    blockItems limits expression rounds = cycle (itemRound limits expression) rounds () := by
  induction rounds with
  | zero => rfl
  | succ rounds ih =>
    rw [blockItems, Builder.blockItems, cycle, itemRound, bind_assoc]
    congr
    funext token
    dsimp only
    split
    · simp only [pure_bind]
    · split
      · simp only [bind_assoc, pure_bind, map_eq_pure_bind, ih]
        rfl
      · rw [bind_assoc]
        congr
        funext expr
        rw [bind_assoc]
        congr
        funext next
        split
        · simp only [pure_bind]
        · simp only [bind_assoc, pure_bind, map_eq_pure_bind, ih]
          rfl

/-- The loop over the statements of a program repeats the round over them. -/
theorem statements_eq_cycle (rounds : Nat) :
    statements limits expression rounds = cycle (statementRound limits expression) rounds () := by
  induction rounds with
  | zero => rfl
  | succ rounds ih =>
    rw [statements, Builder.statements, cycle, statementRound, bind_assoc]
    congr
    funext token
    split
    · simp only [pure_bind]
    · simp only [bind_assoc, pure_bind, map_eq_pure_bind, ih]

end SinosLang.Parse
