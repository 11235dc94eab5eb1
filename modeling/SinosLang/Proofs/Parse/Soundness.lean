import SinosLang.Parse.Grammar
import SinosLang.Proofs.Parse.Limits

/-!
# What was parsed is derived

An action of the parser is sound for a phrase if, whenever it succeeds, the tokens that it consumed
stand for the tree that it answers with: every span is in place, the recorded height is the real one
and the brackets fit. It also leaves a token ahead at which the phrase had to stop, since the loop
of every level goes on as long as it sees one of its operators.

Main statement: a program that is parsed is a program of the grammar.
-/

set_option autoImplicit false

namespace SinosLang

open Grammar Cursor

/-- The kinds of token at which an expression of a level has to stop: none of the operators of this
level and of the tighter ones. -/
def Grammar.Level.Stops (level : Level) (kind : TokenKind) : Prop :=
  ∀ tight : Level, level.rank ≤ tight.rank → kind ∉ tight.operators

namespace Grammar.Level

/-- A level stops where the next tighter one does, but not at its own operators. -/
theorem stops_of_tighter {level : Level} {kind : TokenKind} (here : kind ∉ level.operators)
    (below : level.tighter.Stops kind) : level.Stops kind := by
  intro tight le
  by_cases same : level.rank = tight.rank
  · rw [← rank_injective same]
    exact here
  · by_cases isPrimary : level = primary
    · subst isPrimary
      exact below tight le
    · apply below
      rw [level.rank_tighter isPrimary]
      omega

/-- Primary expressions may stop at any token. -/
theorem stops_primary (kind : TokenKind) : primary.Stops kind := by
  intro tight le
  cases tight <;> first | exact List.not_mem_nil | exact absurd le (by decide)

/-- A whole expression stops where no operator follows that stands between operands. -/
theorem stops_equality_iff {kind : TokenKind} :
    equality.Stops kind ↔ kind ∉ binaryOperators := by
  constructor
  · intro stops
    have all := fun level => stops level (by cases level <;> decide)
    have h₁ := all equality
    have h₂ := all comparison
    have h₃ := all concatenation
    have h₄ := all sum
    have h₅ := all product
    revert h₁ h₂ h₃ h₄ h₅
    cases kind <;> decide
  · intro outside tight _
    revert outside
    cases tight <;> cases kind <;> decide

end Grammar.Level

namespace Parse

variable (limits : Limits)

/-- Whenever an action succeeds, it has consumed the yield of a tree of a phrase, and it sees a
token at which the phrase may stop. -/
def Sound (rule : Parse Measured) (phrase : Phrase) (stops : TokenKind → Prop) : Prop :=
  ∀ ⦃cursor after : Cursor⦄ ⦃result : Measured⦄, cursor.Consistent →
    rule cursor = (.ok result, after) →
    ∃ tokens node, result = node.measured ∧ Moves cursor tokens after ∧ phrase tokens node ∧
      limits.Fits cursor.nesting node ∧ ∃ next, after.lookahead = some next ∧ stops next.kind

variable {limits} {expr : Phrase} {cursor after : Cursor} {result : Measured}

/-- A node that is built of measured parts is measured, and its height is allowed. -/
theorem build_measured {node : Node} (parts : List Node)
    (children_eq : node.children = parts)
    (run : build limits node (parts.map Node.measured) cursor = (.ok result, after)) :
    cursor = after ∧ result = node.measured ∧ limits.allows node.height = true := by
  obtain ⟨same, allowed, answer⟩ := build_ok run
  rw [Node.recorded_height children_eq] at allowed answer
  exact ⟨same, answer, allowed⟩

/-- The tree of a binary operator stands for its operands with the operator between them. -/
theorem binaryNode_ok {level : Level} {op : Token} {left right : Node}
    {leftTokens rightTokens : List Token}
    (leftDerived : Derives InPlace expr level.leftOperand leftTokens left)
    (isOperator : op.kind ∈ level.operators)
    (rightDerived : Derives InPlace expr level.tighter rightTokens right)
    (run : binaryNode limits op left.measured right.measured cursor = (.ok result, after)) :
    cursor = after ∧ ∃ node, result = node.measured ∧
      Derives InPlace expr level (leftTokens ++ [op] ++ rightTokens) node ∧
      node.children = [left, right] ∧ node.isBracket = false := by
  unfold binaryNode Builder.binaryNode at run
  obtain ⟨span, middle, covered, run⟩ := bind_eq_ok.mp run
  obtain ⟨rfl, index_eq, stop_eq⟩ := cover_ok covered
  obtain ⟨same, answer, _⟩ := build_measured [left, right] rfl run
  refine ⟨same, _, answer, ?_, rfl, rfl⟩
  exact .binary leftDerived isOperator rightDerived
    (leftDerived.placed_span.join rightDerived.placed_span index_eq stop_eq)

/-- Going on with operators and operands extends the yield of what was parsed before. -/
theorem extendLeft_ok {level : Level} {operand : Parse Measured}
    (groups : level.groups = true)
    (sound : Sound limits operand (Derives InPlace expr level.tighter) level.tighter.Stops)
    {rounds : Nat} {front : List Token} {left : Node} (consistent : cursor.Consistent)
    (derived : Derives InPlace expr level front left) (fits : limits.Fits cursor.nesting left)
    (seen : ∃ next, cursor.lookahead = some next ∧ level.tighter.Stops next.kind)
    (run : extendLeft limits operand level.operators rounds left.measured cursor =
      (.ok result, after)) :
    ∃ tokens node, result = node.measured ∧ Moves cursor tokens after ∧
      Derives InPlace expr level (front ++ tokens) node ∧ limits.Fits cursor.nesting node ∧
      ∃ next, after.lookahead = some next ∧ level.Stops next.kind := by
  induction rounds generalizing cursor front left with
  | zero => cases run
  | succ rounds ih =>
    unfold extendLeft Builder.extendLeft at run
    obtain ⟨next, ahead, stops⟩ := seen
    rw [bind_apply_of_ok (current_of_lookahead ahead)] at run
    split at run
    next isOperator =>
      have isOperator : next.kind ∈ level.operators := List.contains_iff_mem.mp isOperator
      obtain ⟨op, c₁, advanced, run⟩ := bind_eq_ok.mp run
      obtain rfl := advance_eq_lookahead ahead advanced
      have notEnd : op.kind ≠ .eof := by
        revert isOperator
        cases level <;> cases op.kind <;> decide
      obtain ⟨step, _⟩ := advance_ok consistent advanced notEnd
      obtain ⟨_, c₂, parsed, run⟩ := bind_eq_ok.mp run
      obtain ⟨rightTokens, right, rfl, moves, rightDerived, rightFits, seen⟩ :=
        sound step.consistent parsed
      obtain ⟨_, c₃, built, run⟩ := bind_eq_ok.mp run
      have leftOperand : level.leftOperand = level := by
        rw [Level.leftOperand, if_pos groups]
      obtain ⟨rfl, whole, rfl, wholeDerived, children_eq, plain⟩ :=
        binaryNode_ok (leftOperand.symm ▸ derived) isOperator rightDerived built
      have consumed : Moves cursor ([op] ++ rightTokens) c₂ := step.trans moves
      have wholeFits : limits.Fits c₂.nesting whole := by
        rw [consumed.nesting_eq]
        refine Limits.fits_of_children plain fun child isChild => ?_
        rw [children_eq] at isChild
        rcases List.mem_cons.mp isChild with rfl | isRight
        · exact fits
        · rw [List.mem_singleton.mp isRight, ← step.nesting_eq]
          exact rightFits
      obtain ⟨tokens, node, rfl, moves', nodeDerived, nodeFits, seen'⟩ :=
        ih moves.consistent wholeDerived wholeFits seen run
      refine ⟨[op] ++ rightTokens ++ tokens, node, rfl, consumed.trans moves', ?_, ?_, seen'⟩
      · rw [List.append_assoc front] at nodeDerived
        rw [← List.append_assoc]
        exact nodeDerived
      · rw [← consumed.nesting_eq]
        exact nodeFits
    next noOperator =>
      cases run
      refine ⟨[], left, rfl, Moves.refl consistent, ?_, fits, next, ahead, ?_⟩
      · rw [List.append_nil]
        exact derived
      · exact Level.stops_of_tighter (fun isOperator =>
          noOperator (List.contains_iff_mem.mpr isOperator)) stops

/-- A level with any number of operators is sound if its operands are. -/
theorem leftAssociative_sound (level : Level) {operand : Parse Measured}
    (groups : level.groups = true)
    (sound : Sound limits operand (Derives InPlace expr level.tighter) level.tighter.Stops) :
    Sound limits (leftAssociative limits operand level.operators) (Derives InPlace expr level)
      level.Stops := by
  intro cursor after result consistent run
  unfold leftAssociative Builder.leftAssociative at run
  obtain ⟨_, c₁, parsed, run⟩ := bind_eq_ok.mp run
  obtain ⟨tokens, first, rfl, moves, derived, fits, seen⟩ := sound consistent parsed
  obtain ⟨rounds, c₂, budgeted, run⟩ := bind_eq_ok.mp run
  cases budgeted
  have notPrimary : level ≠ .primary := by
    rintro rfl
    cases groups
  obtain ⟨tokens', node, rfl, moves', derived', fits', seen'⟩ :=
    extendLeft_ok groups sound moves.consistent (.operand notPrimary derived)
      (moves.nesting_eq ▸ fits) seen run
  exact ⟨tokens ++ tokens', node, rfl, moves.trans moves', derived', moves.nesting_eq ▸ fits', seen'⟩

/-- A level with at most one operator is sound if its operands are. -/
theorem nonAssociative_sound (level : Level) {operand : Parse Measured} {chain : Fault}
    (isSingle : level = .equality ∨ level = .comparison)
    (sound : Sound limits operand (Derives InPlace expr level.tighter) level.tighter.Stops) :
    Sound limits (nonAssociative limits operand level.operators chain)
      (Derives InPlace expr level) level.Stops := by
  have leftOperand : level.leftOperand = level.tighter := by
    rcases isSingle with rfl | rfl <;> rfl
  have notPrimary : level ≠ .primary := by
    rcases isSingle with rfl | rfl <;> decide
  intro cursor after result consistent run
  unfold nonAssociative Builder.nonAssociative at run
  obtain ⟨_, c₁, parsed, run⟩ := bind_eq_ok.mp run
  obtain ⟨leftTokens, left, rfl, moves, leftDerived, leftFits, next, ahead, stops⟩ :=
    sound consistent parsed
  rw [bind_apply_of_ok (current_of_lookahead ahead)] at run
  split at run
  next isOperator =>
    have isOperator : next.kind ∈ level.operators := List.contains_iff_mem.mp isOperator
    obtain ⟨op, c₂, advanced, run⟩ := bind_eq_ok.mp run
    obtain rfl := advance_eq_lookahead ahead advanced
    have notEnd : op.kind ≠ .eof := by
      revert isOperator
      cases level <;> cases op.kind <;> decide
    obtain ⟨step, _⟩ := advance_ok moves.consistent advanced notEnd
    obtain ⟨_, c₃, parsed', run⟩ := bind_eq_ok.mp run
    obtain ⟨rightTokens, right, rfl, moves', rightDerived, rightFits, next', ahead', stops'⟩ :=
      sound step.consistent parsed'
    rw [bind_apply_of_ok (current_of_lookahead ahead')] at run
    split at run
    next =>
      obtain ⟨_, _, _, run⟩ := bind_eq_ok.mp run
      obtain ⟨_, _, _, run⟩ := bind_eq_ok.mp run
      obtain ⟨_, _, _, run⟩ := bind_eq_ok.mp run
      cases run
    next noSecond =>
      obtain ⟨rfl, whole, rfl, wholeDerived, children_eq, plain⟩ :=
        binaryNode_ok (leftOperand.symm ▸ leftDerived) isOperator rightDerived run
      have consumed : Moves cursor (leftTokens ++ [op] ++ rightTokens) c₃ :=
        (moves.trans step).trans moves'
      refine ⟨_, whole, rfl, consumed, wholeDerived, ?_, next', ahead', ?_⟩
      · refine Limits.fits_of_children plain fun child isChild => ?_
        rw [children_eq] at isChild
        rcases List.mem_cons.mp isChild with rfl | isRight
        · exact leftFits
        · rw [List.mem_singleton.mp isRight, ← (moves.trans step).nesting_eq]
          exact rightFits
      · exact Level.stops_of_tighter (fun isSecond =>
          noSecond (List.contains_iff_mem.mpr isSecond)) stops'
  next noOperator =>
    cases run
    refine ⟨leftTokens, left, rfl, moves, .operand notPrimary leftDerived, leftFits, next, ahead, ?_⟩
    exact Level.stops_of_tighter (fun isOperator =>
      noOperator (List.contains_iff_mem.mpr isOperator)) stops

/-! ## Prefix operators -/

/-- The loop over prefix operators consumes prefix operators. -/
theorem prefixRun_ok {rounds : Nat} {ops : List Token} (consistent : cursor.Consistent)
    (run : prefixRun rounds cursor = (.ok ops, after)) :
    Moves cursor ops after ∧ ∀ op ∈ ops, op.kind ∈ Grammar.prefixOperators := by
  induction rounds generalizing cursor ops with
  | zero => cases run
  | succ rounds ih =>
    unfold prefixRun at run
    obtain ⟨next, c₁, looked, run⟩ := bind_eq_ok.mp run
    obtain ⟨moves, ahead⟩ := current_ok consistent looked
    split at run
    next isPrefix =>
      have isPrefix : next.kind ∈ Grammar.prefixOperators := List.contains_iff_mem.mp isPrefix
      obtain ⟨op, c₂, advanced, run⟩ := bind_eq_ok.mp run
      obtain rfl := advance_eq_lookahead ahead advanced
      have notEnd : op.kind ≠ .eof := by
        revert isPrefix
        cases op.kind <;> decide
      obtain ⟨step, _⟩ := advance_ok moves.consistent advanced notEnd
      obtain ⟨later, c₃, rest, run⟩ := bind_eq_ok.mp run
      cases run
      obtain ⟨moves', arePrefixes⟩ := ih step.consistent rest
      refine ⟨(moves.trans step).trans moves', ?_⟩
      intro other isIn
      rcases List.mem_cons.mp isIn with rfl | isLater
      · exact isPrefix
      · exact arePrefixes other isLater
    next =>
      cases run
      exact ⟨moves, fun _ isIn => absurd isIn List.not_mem_nil⟩

/-- Applying prefix operators puts them in front of the yield of the operand. -/
theorem applyPrefixes_ok {ops tokens : List Token} {operand : Node}
    (arePrefixes : ∀ op ∈ ops, op.kind ∈ Grammar.prefixOperators)
    (derived : Derives InPlace expr .prefixed tokens operand) {nesting : Int}
    (fits : limits.Fits nesting operand)
    (run : applyPrefixes limits operand.measured ops cursor = (.ok result, after)) :
    cursor = after ∧ ∃ node, result = node.measured ∧
      Derives InPlace expr .prefixed (ops ++ tokens) node ∧ limits.Fits nesting node := by
  induction ops generalizing after result with
  | nil =>
    cases run
    exact ⟨rfl, operand, rfl, derived, fits⟩
  | cons op ops ih =>
    unfold applyPrefixes Builder.applyPrefixes at run
    obtain ⟨_, c₁, applied, run⟩ := bind_eq_ok.mp run
    obtain ⟨rfl, inner, rfl, innerDerived, innerFits⟩ :=
      ih (fun other isIn => arePrefixes other (List.mem_cons_of_mem _ isIn)) applied
    obtain ⟨span, c₂, covered, run⟩ := bind_eq_ok.mp run
    obtain ⟨rfl, index_eq, stop_eq⟩ := cover_ok covered
    obtain ⟨rfl, rfl, _⟩ := build_measured [inner] rfl run
    refine ⟨rfl, _, rfl, ?_, ?_⟩
    · have inPlace : InPlace ([op] ++ [] ++ (ops ++ tokens)) span :=
        (inPlace_singleton op).join innerDerived.placed_span index_eq stop_eq
      exact .unary (arePrefixes op List.mem_cons_self) innerDerived inPlace
    · refine Limits.fits_of_children rfl fun child isChild => ?_
      rw [List.mem_singleton.mp isChild]
      exact innerFits

/-- Unary expressions are sound if primary ones are. -/
theorem unary_sound {expression : Parse Measured}
    (sound : Sound limits (primary limits expression) (Derives InPlace expr .primary)
      Level.primary.Stops) :
    Sound limits (unary limits expression) (Derives InPlace expr .prefixed)
      Level.prefixed.Stops := by
  intro cursor after result consistent run
  unfold unary Builder.unary at run
  obtain ⟨rounds, c₁, budgeted, run⟩ := bind_eq_ok.mp run
  cases budgeted
  obtain ⟨ops, c₂, before, run⟩ := bind_eq_ok.mp run
  obtain ⟨moves, arePrefixes⟩ := prefixRun_ok consistent before
  obtain ⟨_, c₃, parsed, run⟩ := bind_eq_ok.mp run
  obtain ⟨tokens, operand, rfl, moves', derived, fits, next, ahead, _⟩ :=
    sound moves.consistent parsed
  have derived' : Derives InPlace expr .prefixed tokens operand := .operand (by decide) derived
  obtain ⟨rfl, node, rfl, nodeDerived, nodeFits⟩ :=
    applyPrefixes_ok arePrefixes derived' (moves.nesting_eq ▸ fits) run
  refine ⟨ops ++ tokens, node, rfl, moves.trans moves', nodeDerived, nodeFits, next, ahead, ?_⟩
  exact Level.stops_of_tighter List.not_mem_nil (Level.stops_primary _)

/-! ## Statements and brackets -/

/-- The token ahead is the first one that is consumed, or the one that is ahead afterwards. -/
theorem Moves.nextKind_eq {tokens : List Token} {next final : Token}
    (moves : Moves cursor tokens after) (ahead : cursor.lookahead = some next)
    (behind : after.lookahead = some final) : next.kind = nextKind tokens final.kind := by
  have pending := moves.pending_eq
  unfold Cursor.pending at pending
  rw [ahead, behind] at pending
  simp only at pending
  cases tokens with
  | nil =>
    show next.kind = final.kind
    split at pending
    next isEnd =>
      split at pending
      next isFinal => exact isEnd.trans isFinal.symm
      next => cases pending
    next =>
      split at pending
      next => cases pending
      next =>
        injection pending with same _
        rw [Except.ok.inj same]
  | cons first tokens =>
    show next.kind = first.kind
    split at pending
    next => cases pending
    next =>
      injection pending with same _
      rw [Except.ok.inj same]

section Inside

variable {expression : Parse Measured}

/-- The type of a let statement, with its colon, or nothing. -/
theorem typePart_ok {type? : Option Token} (consistent : cursor.Consistent)
    (run : typePart cursor = (.ok type?, after)) :
    ∃ tokens, TypePart tokens (type?.map Token.value) ∧ Moves cursor tokens after := by
  unfold typePart at run
  obtain ⟨colon?, c₁, accepted, run⟩ := bind_eq_ok.mp run
  cases colon? with
  | none =>
    cases run
    obtain ⟨moves, _⟩ := accept_none consistent accepted
    exact ⟨[], .absent, moves⟩
  | some colon =>
    obtain ⟨isColon, moves, _⟩ := accept_some consistent (by decide) accepted
    obtain ⟨type, c₂, found, run⟩ := bind_eq_ok.mp run
    cases run
    obtain ⟨isType, moves', _⟩ := expect_ok moves.consistent (by decide) found
    exact ⟨[colon, type], .present (List.mem_singleton.mp isColon) isType, moves.trans moves'⟩

/-- A let statement, keyword included. -/
theorem letStatement_ok {keyword : Token}
    (sound : Sound limits expression expr Level.equality.Stops)
    (consistent : cursor.Consistent) (ahead : cursor.lookahead = some keyword)
    (isLet : keyword.kind = .letKeyword)
    (run : letStatement limits expression cursor = (.ok result, after)) :
    ∃ tokens node, result = node.measured ∧ Moves cursor tokens after ∧
      (∀ inside next, Statement InPlace expr inside next tokens node) ∧
      limits.Fits cursor.nesting node ∧ ∃ next, after.lookahead = some next := by
  unfold letStatement Builder.letStatement at run
  obtain ⟨taken, c₁, advanced, run⟩ := bind_eq_ok.mp run
  obtain rfl := advance_eq_lookahead ahead advanced
  obtain ⟨step, _⟩ := advance_ok consistent advanced (by rw [isLet]; decide)
  obtain ⟨name, c₂, named, run⟩ := bind_eq_ok.mp run
  obtain ⟨isName, step', _⟩ := expect_ok step.consistent (by decide) named
  obtain ⟨type?, c₃, typed, run⟩ := bind_eq_ok.mp run
  obtain ⟨typeTokens, typePart, typeMoves⟩ := typePart_ok step'.consistent typed
  obtain ⟨assign, c₄, assigned, run⟩ := bind_eq_ok.mp run
  obtain ⟨isAssign, assignMoves, _⟩ := expect_ok typeMoves.consistent (by decide) assigned
  obtain ⟨_, c₅, parsed, run⟩ := bind_eq_ok.mp run
  obtain ⟨valueTokens, value, rfl, valueMoves, derived, fits, _⟩ :=
    sound assignMoves.consistent parsed
  obtain ⟨semi, c₆, ended, run⟩ := bind_eq_ok.mp run
  obtain ⟨isSemi, semiMoves, seen⟩ := expect_ok valueMoves.consistent (by decide) ended
  obtain ⟨span, _, covered, run⟩ := bind_eq_ok.mp run
  obtain ⟨rfl, index_eq, stop_eq⟩ := cover_ok covered
  obtain ⟨rfl, rfl, _⟩ := build_measured [value] rfl run
  have front := ((step.trans step').trans typeMoves).trans assignMoves
  have consumed := (front.trans valueMoves).trans semiMoves
  refine ⟨[taken] ++ (name :: typeTokens ++ assign :: valueTokens) ++ [semi], _, rfl, ?_, ?_, ?_,
    seen⟩
  · simpa using consumed
  · intro inside next
    exact .binding isLet isName typePart isAssign derived isSemi
      ((inPlace_singleton taken).join (inPlace_singleton semi) index_eq stop_eq)
  · refine Limits.fits_of_children rfl fun child isChild => ?_
    rw [List.mem_singleton.mp isChild, ← front.nesting_eq]
    exact fits

/-- The statement that an expression forms, with its semicolon or without. -/
theorem expressionStatement_ok (inside : Bool) {tokens : List Token} {node : Node} {held : Token}
    (placed : InPlace tokens node.span) (consistent : cursor.Consistent) (derived : expr tokens node)
    (fits : limits.Fits cursor.nesting node) (ahead : cursor.lookahead = some held)
    (stops : Level.equality.Stops held.kind) (notBrace : inside = true → held.kind ≠ .rbrace)
    (run : expressionStatement limits node.measured cursor = (.ok result, after)) :
    ∃ tokens' stmt, result = stmt.measured ∧ Moves cursor tokens' after ∧
      limits.Fits cursor.nesting stmt ∧ ∃ next, after.lookahead = some next ∧
        Statement InPlace expr inside next.kind (tokens ++ tokens') stmt := by
  unfold expressionStatement Builder.expressionStatement at run
  obtain ⟨stop, c₁, stopped, run⟩ := bind_eq_ok.mp run
  obtain ⟨span, _, covered, run⟩ := bind_eq_ok.mp run
  obtain ⟨rfl, index_eq, stop_eq⟩ := cover_ok covered
  obtain ⟨rfl, rfl, _⟩ := build_measured [node] rfl run
  unfold statementEnd at stopped
  have fitsStmt : limits.Fits cursor.nesting (.exprStmt span node) := by
    refine Limits.fits_of_children rfl fun child isChild => ?_
    rw [List.mem_singleton.mp isChild]
    exact fits
  have withSemi {semi : Token} (isSemi : semi.kind = .semi) (same : stop = semi.span)
      (next : TokenKind) : Statement InPlace expr inside next (tokens ++ [semi])
        (.exprStmt span node) := by
    refine .terminated derived isSemi ?_
    have inPlace : InPlace (tokens ++ [] ++ [semi]) span :=
      placed.join (inPlace_singleton semi) index_eq (same ▸ stop_eq)
    rwa [List.append_nil] at inPlace
  split at stopped
  next isBlock =>
    obtain ⟨semi?, _, accepted, stopped⟩ := bind_eq_ok.mp stopped
    cases semi? with
    | some semi =>
      cases stopped
      obtain ⟨isSemi, moves, next, seen⟩ := accept_some consistent (by decide) accepted
      exact ⟨[semi], _, rfl, moves, fitsStmt, next, seen,
        withSemi (List.mem_singleton.mp isSemi) rfl _⟩
    | none =>
      cases stopped
      obtain ⟨moves, next, seen, notSemi⟩ := accept_none consistent accepted
      have same : held.kind = next.kind := Moves.nextKind_eq moves ahead seen
      refine ⟨[], _, rfl, moves, fitsStmt, next, seen, ?_⟩
      rw [List.append_nil]
      rw [same] at stops notBrace
      refine .standing derived isBlock (fun isSemi => notSemi (List.mem_singleton.mpr isSemi))
        (Level.stops_equality_iff.mp stops) notBrace ?_
      obtain ⟨first, last, head, tail, start, finish⟩ := placed
      exact ⟨first, last, head, tail, index_eq.trans start, stop_eq.trans finish⟩
  next =>
    obtain ⟨semi, _, ended, stopped⟩ := bind_eq_ok.mp stopped
    cases stopped
    obtain ⟨isSemi, moves, next, seen⟩ := expect_ok consistent (by decide) ended
    exact ⟨[semi], _, rfl, moves, fitsStmt, next, seen, withSemi isSemi rfl _⟩

/-- From one cursor to another the items of a block were consumed, up to the token ahead. -/
def TakesItems (limits : Limits) (expr : Phrase) (cursor after : Cursor) (stmts : List Measured)
    (last? : Option Measured) : Prop :=
  ∃ stmtTokens lastTokens nodes node?, stmts = nodes.map Node.measured ∧
    last? = node?.map Node.measured ∧ Moves cursor (stmtTokens ++ lastTokens) after ∧
    (∀ node ∈ nodes ++ node?.toList, limits.Fits cursor.nesting node) ∧
    Ending expr lastTokens node? ∧ ∃ next, after.lookahead = some next ∧
      Statements InPlace expr true (nextKind lastTokens next.kind) stmtTokens nodes

/-- A statement in front of the items that come after it. -/
theorem TakesItems.cons {tokens : List Token} {stmt : Node} {middle : Cursor} {next : Token}
    {stmts : List Measured} {last? : Option Measured} (moves : Moves cursor tokens middle)
    (fits : limits.Fits cursor.nesting stmt) (seen : middle.lookahead = some next)
    (derived : Statement InPlace expr true next.kind tokens stmt)
    (later : TakesItems limits expr middle after stmts last?) :
    TakesItems limits expr cursor after (stmt.measured :: stmts) last? := by
  obtain ⟨stmtTokens, lastTokens, nodes, node?, rfl, rfl, moves', allFit, ending, final, behind,
    derived'⟩ := later
  refine ⟨tokens ++ stmtTokens, lastTokens, stmt :: nodes, node?, rfl, rfl, ?_, ?_, ending, final,
    behind, ?_⟩
  · rw [List.append_assoc]
    exact moves.trans moves'
  · rw [moves.nesting_eq] at allFit
    exact List.forall_mem_cons.mpr ⟨fits, allFit⟩
  · rw [Moves.nextKind_eq moves' seen behind, nextKind_append] at derived
    exact .cons derived derived'

variable (sound : Sound limits expression expr Level.equality.Stops)
  (placed : ∀ tokens node, expr tokens node → InPlace tokens node.span)
include sound placed

/-- A statement that is answered with is the tree of the tokens that were consumed. -/
theorem statement_ok (consistent : cursor.Consistent)
    (run : statement limits expression cursor = (.ok result, after)) :
    ∃ tokens stmt, result = stmt.measured ∧ Moves cursor tokens after ∧
      limits.Fits cursor.nesting stmt ∧ ∃ next, after.lookahead = some next ∧
        Statement InPlace expr false next.kind tokens stmt := by
  unfold statement Builder.statement at run
  obtain ⟨held, c₁, looked, run⟩ := bind_eq_ok.mp run
  obtain ⟨start, ahead⟩ := current_ok consistent looked
  split at run
  next isLet =>
    obtain ⟨tokens, stmt, rfl, moves, derived, fits, next, seen⟩ :=
      letStatement_ok sound start.consistent ahead isLet run
    exact ⟨tokens, stmt, rfl, start.trans moves, start.nesting_eq ▸ fits, next, seen, derived _ _⟩
  next =>
    obtain ⟨_, c₂, parsed, run⟩ := bind_eq_ok.mp run
    obtain ⟨tokens, node, rfl, moves, derived, fits, held', ahead', stops⟩ :=
      sound start.consistent parsed
    have consumed := start.trans moves
    obtain ⟨tokens', stmt, rfl, moves', fitsStmt, next, seen, derived'⟩ :=
      expressionStatement_ok false (placed _ _ derived) moves.consistent derived
        (moves.nesting_eq ▸ fits) ahead' stops (fun isInside => by cases isInside) run
    exact ⟨tokens ++ tokens', stmt, rfl, consumed.trans moves', consumed.nesting_eq ▸ fitsStmt, next,
      seen, derived'⟩

/-- What a block holds: statements, and an expression where the block ends with one. -/
theorem blockItems_ok {rounds : Nat} {stmts : List Measured} {last? : Option Measured}
    (consistent : cursor.Consistent)
    (run : blockItems limits expression rounds cursor = (.ok (stmts, last?), after)) :
    TakesItems limits expr cursor after stmts last? := by
  induction rounds generalizing cursor stmts last? with
  | zero => cases run
  | succ rounds ih =>
    unfold blockItems Builder.blockItems at run
    obtain ⟨held, c₁, looked, run⟩ := bind_eq_ok.mp run
    obtain ⟨start, ahead⟩ := current_ok consistent looked
    split at run
    next =>
      cases run
      exact ⟨[], [], [], none, rfl, rfl, start, fun _ isIn => absurd isIn List.not_mem_nil, .absent,
        held, ahead, .nil⟩
    next =>
      split at run
      next isLet =>
        obtain ⟨_, c₂, parsed, run⟩ := bind_eq_ok.mp run
        obtain ⟨tokens, stmt, rfl, moves, derived, fits, next, seen⟩ :=
          letStatement_ok sound start.consistent ahead isLet parsed
        obtain ⟨_, _, later, run⟩ := bind_eq_ok.mp run
        cases run
        exact .cons (start.trans moves) (start.nesting_eq ▸ fits) seen (derived _ _)
          (ih moves.consistent later)
      next =>
        obtain ⟨_, c₂, parsed, run⟩ := bind_eq_ok.mp run
        obtain ⟨tokens, node, rfl, moves, derived, fits, held', ahead', stops⟩ :=
          sound start.consistent parsed
        have consumed := start.trans moves
        rw [bind_apply_of_ok (current_of_lookahead ahead')] at run
        split at run
        next =>
          cases run
          refine ⟨[], tokens, [], some node, rfl, rfl, consumed, ?_, .present derived, held', ahead',
            .nil⟩
          intro other isIn
          rw [List.mem_singleton.mp isIn, ← start.nesting_eq]
          exact fits
        next notBrace =>
          obtain ⟨_, c₃, formed, run⟩ := bind_eq_ok.mp run
          obtain ⟨tokens', stmt, rfl, moves', fitsStmt, next, seen, derived'⟩ :=
            expressionStatement_ok true (placed _ _ derived) moves.consistent derived
              (moves.nesting_eq ▸ fits) ahead' stops (fun _ => notBrace) formed
          obtain ⟨_, _, later, run⟩ := bind_eq_ok.mp run
          cases run
          exact .cons (consumed.trans moves') (consumed.nesting_eq ▸ fitsStmt) seen derived'
            (ih moves'.consistent later)

/-- A block has its braces around what it holds, and opens one bracket more. -/
theorem block_ok (consistent : cursor.Consistent)
    (run : block limits expression cursor = (.ok result, after)) :
    ∃ tokens node, result = node.measured ∧ Moves cursor tokens after ∧
      Primary InPlace expr tokens node ∧ limits.Fits cursor.nesting node ∧
      ∃ next, after.lookahead = some next := by
  unfold block Builder.block at run
  obtain ⟨opening, c₁, opened, run⟩ := bind_eq_ok.mp run
  obtain ⟨isOpening, step, _⟩ := expect_ok consistent (by decide) opened
  obtain ⟨_, c₂, entered, run⟩ := bind_eq_ok.mp run
  obtain ⟨notFull, rfl⟩ := openBracket_eq_ok entered
  obtain ⟨rounds, _, budgeted, run⟩ := bind_eq_ok.mp run
  cases budgeted
  obtain ⟨⟨stmts, last?⟩, c₃, held, run⟩ := bind_eq_ok.mp run
  obtain ⟨stmtTokens, lastTokens, nodes, node?, rfl, rfl, moves, allFit, ending, next, ahead,
    derived⟩ := blockItems_ok sound placed
      (step.consistent.withNesting (c₁.nesting + 1)) held
  obtain ⟨closing, c₄, closed, run⟩ := bind_eq_ok.mp run
  obtain ⟨isClosing, step', final, seen⟩ := expect_ok moves.consistent (by decide) closed
  obtain ⟨_, c₅, left, run⟩ := bind_eq_ok.mp run
  cases left
  obtain ⟨span, _, covered, run⟩ := bind_eq_ok.mp run
  obtain ⟨rfl, index_eq, stop_eq⟩ := cover_ok covered
  have isNext : next.kind = .rbrace :=
    (Moves.nextKind_eq step' ahead seen).trans isClosing
  rw [isNext] at derived
  have children_eq : (Node.block span nodes node?).children = nodes ++ node?.toList := rfl
  rw [measured_toList, measured_nodes, measured_node?] at run
  obtain ⟨rfl, rfl, _⟩ := build_measured _ children_eq run
  have inner : Moves (c₁.withNesting (c₁.nesting + 1)) (stmtTokens ++ lastTokens ++ [closing]) c₄ :=
    moves.trans step'
  have consumed := step.trans inner.enclosed
  refine ⟨[opening] ++ (stmtTokens ++ lastTokens) ++ [closing], _, rfl, ?_, ?_, ?_, final, seen⟩
  · rw [List.append_assoc]
    exact consumed
  · exact .block isOpening derived ending isClosing
      ((inPlace_singleton opening).join (inPlace_singleton closing) index_eq stop_eq)
  · rw [← step.nesting_eq]
    exact Limits.fits_of_bracket rfl notFull allFit

omit placed in
/-- A group has its parentheses around an expression, and opens one bracket more. -/
theorem group_ok {opening : Token} (consistent : cursor.Consistent)
    (ahead : cursor.lookahead = some opening) (isOpening : opening.kind = .lparen)
    (run : group limits expression opening cursor = (.ok result, after)) :
    ∃ tokens node, result = node.measured ∧ Moves cursor tokens after ∧
      Primary InPlace expr tokens node ∧ limits.Fits cursor.nesting node ∧
      ∃ next, after.lookahead = some next := by
  unfold group Builder.group at run
  obtain ⟨_, c₁, entered, run⟩ := bind_eq_ok.mp run
  obtain ⟨notFull, rfl⟩ := openBracket_eq_ok entered
  obtain ⟨taken, c₂, advanced, run⟩ := bind_eq_ok.mp run
  obtain rfl : taken = opening := advance_eq_lookahead (by exact ahead) advanced
  obtain ⟨step, _⟩ := advance_ok (consistent.withNesting (cursor.nesting + 1)) advanced
    (by rw [isOpening]; decide)
  obtain ⟨_, c₃, parsed, run⟩ := bind_eq_ok.mp run
  obtain ⟨tokens, node, rfl, moves, derived, fits, _⟩ := sound step.consistent parsed
  obtain ⟨closing, c₄, closed, run⟩ := bind_eq_ok.mp run
  obtain ⟨isClosing, step', final, seen⟩ := expect_ok moves.consistent (by decide) closed
  obtain ⟨_, c₅, left, run⟩ := bind_eq_ok.mp run
  cases left
  obtain ⟨span, _, covered, run⟩ := bind_eq_ok.mp run
  obtain ⟨rfl, index_eq, stop_eq⟩ := cover_ok covered
  obtain ⟨rfl, rfl, _⟩ := build_measured [node] rfl run
  have consumed : Moves (cursor.withNesting (cursor.nesting + 1)) ([taken] ++ tokens ++ [closing])
      c₄ := (step.trans moves).trans step'
  refine ⟨[taken] ++ tokens ++ [closing], _, rfl, consumed.enclosed, ?_, ?_, final, seen⟩
  · exact .group isOpening derived isClosing
      ((inPlace_singleton taken).join (inPlace_singleton closing) index_eq stop_eq)
  · refine Limits.fits_of_bracket rfl notFull fun child isChild => ?_
    rw [List.mem_singleton.mp isChild]
    have nesting : c₂.nesting = cursor.nesting + 1 := step.nesting_eq
    rw [← nesting]
    exact fits

omit sound placed in
/-- A token that is a leaf by itself is a primary of no height and no brackets. -/
theorem leafNode?_eq_some {token : Token} {node : Node} (found : leafNode? token = some node) :
    Primary InPlace expr [token] node ∧ node.children = [] ∧ node.isBracket = false ∧
      token.kind ≠ .eof := by
  have inPlace := inPlace_singleton token
  unfold leafNode? at found
  split at found
  next isKind => cases found; exact ⟨.integer isKind inPlace, rfl, rfl, by rw [isKind]; decide⟩
  next isKind => cases found; exact ⟨.float isKind inPlace, rfl, rfl, by rw [isKind]; decide⟩
  next isKind => cases found; exact ⟨.boolean isKind inPlace, rfl, rfl, by rw [isKind]; decide⟩
  next isKind => cases found; exact ⟨.string isKind inPlace, rfl, rfl, by rw [isKind]; decide⟩
  next isKind => cases found; exact ⟨.name isKind inPlace, rfl, rfl, by rw [isKind]; decide⟩
  next => cases found

/-- Primary expressions are sound if nested ones are. -/
theorem primary_sound :
    Sound limits (primary limits expression) (Derives InPlace expr .primary)
      Level.primary.Stops := by
  intro cursor after result consistent run
  unfold primary Builder.primary at run
  obtain ⟨held, c₁, looked, run⟩ := bind_eq_ok.mp run
  obtain ⟨start, ahead⟩ := current_ok consistent looked
  have whole : ∃ tokens node, result = node.measured ∧ Moves c₁ tokens after ∧
      Primary InPlace expr tokens node ∧ limits.Fits c₁.nesting node ∧
      ∃ next, after.lookahead = some next := by
    cases found : leafNode? held with
    | some node =>
      rw [found] at run
      obtain ⟨derived, leaf, plain, notEnd⟩ := leafNode?_eq_some found
      obtain ⟨taken, c₂, advanced, run⟩ := bind_eq_ok.mp run
      cases run
      obtain rfl := advance_eq_lookahead ahead advanced
      obtain ⟨step, seen⟩ := advance_ok start.consistent advanced notEnd
      refine ⟨[taken], node, ?_, step, derived, ?_, seen⟩
      · rw [Node.measured, Node.height_eq, leaf]
        rfl
      · refine Limits.fits_of_children plain fun child isChild => ?_
        rw [leaf] at isChild
        cases isChild
    | none =>
      rw [found] at run
      dsimp only at run
      split at run
      next => exact block_ok sound placed start.consistent run
      next =>
        split at run
        next isOpening => exact group_ok sound start.consistent ahead isOpening run
        next => cases run
  obtain ⟨tokens, node, rfl, moves, derived, fits, next, seen⟩ := whole
  exact ⟨tokens, node, rfl, start.trans moves, .primary derived, start.nesting_eq ▸ fits, next, seen,
    Level.stops_primary _⟩

/-- The levels up to concatenation are sound if the expressions inside brackets are. -/
theorem concatenation_sound :
    Sound limits (concatenation limits expression) (Derives InPlace expr .concatenation)
      Level.concatenation.Stops := by
  have prefixed : Sound limits (unary limits expression) (Derives InPlace expr .prefixed)
      Level.prefixed.Stops := unary_sound (primary_sound sound placed)
  have product : Sound limits (product limits expression) (Derives InPlace expr .product)
      Level.product.Stops := leftAssociative_sound .product rfl prefixed
  have sum : Sound limits (sum limits expression) (Derives InPlace expr .sum)
      Level.sum.Stops := leftAssociative_sound .sum rfl product
  exact leftAssociative_sound .concatenation rfl sum

/-- Comparisons are sound if nested expressions are. -/
theorem comparison_sound :
    Sound limits (comparison limits expression) (Derives InPlace expr .comparison)
      Level.comparison.Stops :=
  nonAssociative_sound .comparison (Or.inr rfl) (concatenation_sound sound placed)

/-- All levels are sound if the expressions inside brackets are. -/
theorem equality_sound :
    Sound limits (equality limits expression) (Derives InPlace expr .equality)
      Level.equality.Stops :=
  nonAssociative_sound .equality (Or.inl rfl) (comparison_sound sound placed)

end Inside

/-! ## Expressions and programs -/

/-- Expressions of any depth are sound. -/
theorem expressionWithin_sound (depth : Nat) :
    Sound limits (expressionWithin limits depth) (Expression InPlace depth .equality)
      Level.equality.Stops := by
  induction depth with
  | zero =>
    intro cursor after result _ run
    cases run
  | succ depth ih => exact equality_sound ih fun _ _ derived => derived.placed_span

/-- The statements up to the end, of which nothing is left. -/
theorem statements_ok {expression : Parse Measured}
    (sound : Sound limits expression expr Level.equality.Stops)
    (placed : ∀ tokens node, expr tokens node → InPlace tokens node.span) {rounds : Nat}
    {results : List Measured} (consistent : cursor.Consistent)
    (run : statements limits expression rounds cursor = (.ok results, after)) :
    ∃ tokens nodes, results = nodes.map Node.measured ∧ Moves cursor tokens after ∧
      (∀ node ∈ nodes, limits.Fits cursor.nesting node) ∧
      Statements InPlace expr false .eof tokens nodes ∧
      ∃ next, after.lookahead = some next ∧ next.kind = .eof := by
  induction rounds generalizing cursor results with
  | zero => cases run
  | succ rounds ih =>
    unfold statements Builder.statements at run
    obtain ⟨held, c₁, looked, run⟩ := bind_eq_ok.mp run
    obtain ⟨start, ahead⟩ := current_ok consistent looked
    split at run
    next isEnd =>
      cases run
      exact ⟨[], [], rfl, start, fun _ isIn => absurd isIn List.not_mem_nil, .nil, held, ahead, isEnd⟩
    next =>
      obtain ⟨_, c₂, parsed, run⟩ := bind_eq_ok.mp run
      obtain ⟨tokens, stmt, rfl, moves, fits, next, seen, derived⟩ :=
        statement_ok sound placed start.consistent parsed
      obtain ⟨_, _, later, run⟩ := bind_eq_ok.mp run
      cases run
      obtain ⟨tokens', nodes, rfl, moves', allFit, derived', final, behind, isEnd⟩ :=
        ih moves.consistent later
      have consumed := start.trans moves
      refine ⟨tokens ++ tokens', stmt :: nodes, rfl, consumed.trans moves', ?_, ?_, final, behind,
        isEnd⟩
      · rw [consumed.nesting_eq] at allFit
        rw [start.nesting_eq] at fits
        exact List.forall_mem_cons.mpr ⟨fits, allFit⟩
      · rw [Moves.nextKind_eq moves' seen behind, isEnd] at derived
        exact .cons derived derived'

/-- A program that is parsed is one of the grammar: every token was consumed, the spans are in place
and the tree keeps within the limits. -/
theorem program_ok (consistent : cursor.Consistent)
    (run : program limits cursor = (.ok result, after)) :
    ∃ tokens node, result = node.measured ∧ cursor.pending = tokens.map .ok ∧
      Program InPlace tokens node ∧ node.span = ⟨0, cursor.source.size⟩ ∧
      limits.Fits cursor.nesting node ∧ limits.allows node.height = true := by
  unfold program Builder.program withBrackets Builder.withBrackets at run
  obtain ⟨depth, _, budgeted, run⟩ := bind_eq_ok.mp run
  cases budgeted
  obtain ⟨rounds, _, budgeted, run⟩ := bind_eq_ok.mp run
  cases budgeted
  obtain ⟨_, c₁, parsed, run⟩ := bind_eq_ok.mp run
  obtain ⟨tokens, nodes, rfl, moves, allFit, derived, next, ahead, isEnd⟩ :=
    statements_ok (expressionWithin_sound _) (fun _ _ derived => derived.placed_span) consistent
      parsed
  rw [bind_apply_of_ok (current_of_lookahead ahead)] at run
  obtain ⟨span, _, covered, run⟩ := bind_eq_ok.mp run
  obtain ⟨rfl, index_eq, stop_eq⟩ := cover_ok covered
  rw [measured_nodes] at run
  obtain ⟨_, rfl, allowed⟩ := build_measured nodes rfl run
  obtain ⟨noneLeft, isEndToken⟩ := moves.consistent.finish next ahead isEnd
  refine ⟨tokens, _, rfl, ?_, ⟨_, span, nodes, rfl, derived⟩, ?_, ?_, allowed⟩
  · have nothing : c₁.pending = [] := by
      unfold Cursor.pending
      rw [ahead]
      simp [isEnd]
    rw [moves.pending_eq, nothing, List.append_nil]
  · rw [isEndToken] at stop_eq
    obtain ⟨index, length⟩ := span
    simp only [Span.stop, Cursor.endToken, moves.source_eq] at index_eq stop_eq
    simp only [Node.span, Span.mk.injEq]
    omega
  · exact Limits.fits_of_children rfl allFit

end Parse

end SinosLang
