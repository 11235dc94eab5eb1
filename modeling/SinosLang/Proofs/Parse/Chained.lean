import SinosLang.Proofs.Parse.Operands
import SinosLang.Proofs.Parse.Unlimited

/-!
# Chained comparisons

Equality and comparison take at most one operator. Where texts that are operands of such a level stand
with operators of the level between them, the parser reads each operand whole: none takes an operator
of the level up, and none leaves anything behind. So two operands with one operator make a tree, which
is rejected for its height only, and with a second operator the parser reports the chain, from the
operand before this operator to the one behind it. It does so before it builds anything from the
operands, so however high they are.

Main statement: `parse_chained`.
-/

set_option autoImplicit false

namespace SinosLang

open Grammar Cursor

/-- The brackets of a program of one binary expression are those of its operands. -/
theorem Node.bracketDepth_module_binary (span outer inner : Span) (op : Text) (left right : Node) :
    (module span [.exprStmt outer (.binary inner op left right)]).bracketDepth =
      max left.bracketDepth right.bracketDepth := by
  simp [bracketDepth, heaviest, heaviestOfAll, isBracket]

/-- The levels that take at most one operator, each with the rule of its operands and the fault of a
second operator. -/
inductive SingleLevel : Level → (Limits → Parse Measured → Parse Measured) → Fault → Prop
  | equality : SingleLevel .equality Parse.comparison .eqChain
  | comparison : SingleLevel .comparison Parse.concatenation .cmpChain

/-- The tokens of a cursor outside of all brackets begin with three operands of a level and two of its
operators between them, and the level stops behind the third one. The tokens are no more than the
bound, and the span covers the last two operands. -/
inductive ChainAhead (depth bound : Nat) (level : Level) (cursor : Cursor) : Span → Prop
  | intro {leftTokens middleTokens rightTokens rest : List Token} {left middle right : Node}
      {op op' : Token} {span : Span} :
    Operand depth level.tighter leftTokens left → op.kind ∈ level.operators →
    Operand depth level.tighter middleTokens middle → op'.kind ∈ level.operators →
    Operand depth level.tighter rightTokens right → level.tighter.Stops (nextKind rest .eof) →
    cursor.Holds (leftTokens ++ op :: (middleTokens ++ op' :: (rightTokens ++ rest))) →
    (leftTokens ++ op :: (middleTokens ++ op' :: (rightTokens ++ rest))).length ≤ bound →
    cursor.nesting = 0 → InPlace (middleTokens ++ [op'] ++ rightTokens) span →
    ChainAhead depth bound level cursor span

namespace Parse

variable {depth bound : Nat} {level : Level} {cursor : Cursor} {span : Span}

/-- An operand outside of all brackets is read up to where its level stops. -/
theorem operand_run {rule : Parse Measured} {tokens rest : List Token} {tree : Node}
    (complete : Complete Limits.standard bound rule (Expression InPlace depth level) level.Stops)
    (operand : Operand depth level tokens tree) (holds : cursor.Holds (tokens ++ rest))
    (short : tokens.length < bound) (stops : level.Stops (nextKind rest .eof))
    (outside : cursor.nesting = 0) :
    ∃ after, rule cursor = (.ok tree.measured, after) ∧ Reaches cursor rest after := by
  refine complete holds short operand.derived stops ?_ (Limits.standard_allows_iff.mpr operand.low)
  rw [outside]
  exact Limits.fits_standard_iff.mpr operand.few

/-- A second operator is reported, with the operands before and behind it. -/
theorem nonAssociative_chained (level : Level) (chain : Fault) {rule : Parse Measured}
    (complete : Complete Limits.standard (bound + 1) rule (Expression InPlace depth level.tighter)
      level.tighter.Stops)
    (ahead : ChainAhead depth bound level cursor span) :
    ∃ after, nonAssociative Limits.standard rule level.operators chain cursor =
      (.error (.diagnostic ⟨chain, span⟩), after) := by
  obtain @⟨leftTokens, middleTokens, rightTokens, rest, left, middle, right, op, op', _, first,
    isOperator, second, isOperator', third, stops, holds, short, outside, inPlace⟩ := ahead
  simp only [List.length_append, List.length_cons] at short
  obtain ⟨c₁, run, reaches⟩ :=
    operand_run complete first holds (by omega) (Level.tighter_stops isOperator) outside
  obtain ⟨c₂, advanced, reaches₂⟩ := exists_advance reaches.holds
  have front := reaches.trans reaches₂
  obtain ⟨c₃, run', reaches₃⟩ := operand_run complete second reaches₂.holds (by omega)
    (Level.tighter_stops isOperator') (front.nesting_eq.trans outside)
  obtain ⟨c₄, advanced', reaches₄⟩ := exists_advance reaches₃.holds
  have behind := (front.trans reaches₃).trans reaches₄
  obtain ⟨c₅, run'', reaches₅⟩ := operand_run complete third reaches₄.holds (by omega) stops
    (behind.nesting_eq.trans outside)
  have source := (behind.trans reaches₅).source_eq
  have inside : ∀ token ∈ middleTokens ++ [op'] ++ rightTokens,
      token.span.stop ≤ c₅.source.size := by
    intro token isIn
    rw [source]
    refine holds.inside token ?_
    simp only [List.mem_append, List.mem_cons] at isIn ⊢
    tauto
  obtain ⟨index_eq, stop_eq⟩ := inPlace.ends second.derived.placed_span third.derived.placed_span
  have covered : cover middle.measured.node.span right.measured.node.span c₅ = (.ok span, c₅) :=
    cover_eq index_eq stop_eq (inPlace.stop_le inside)
  obtain ⟨held, sees⟩ := reaches.sees
  obtain rfl := reaches.holds.lookahead_eq sees
  obtain ⟨held', sees'⟩ := reaches₃.sees
  obtain rfl := reaches₃.holds.lookahead_eq sees'
  refine ⟨c₅, ?_⟩
  unfold nonAssociative Builder.nonAssociative
  rw [bind_apply_of_ok run, bind_apply_of_ok (current_of_lookahead sees),
    if_pos (List.contains_iff_mem.mpr isOperator), bind_apply_of_ok advanced, bind_apply_of_ok run',
    bind_apply_of_ok (current_of_lookahead sees'),
    if_pos (List.contains_iff_mem.mpr isOperator'), bind_apply_of_ok advanced',
    bind_apply_of_ok run'', bind_apply_of_ok covered]
  rfl

/-- A chain of a level ends the whole expression. -/
theorem equality_chained {rule : Limits → Parse Measured → Parse Measured} {chain : Fault}
    (single : SingleLevel level rule chain) (ahead : ChainAhead (depth + 1) bound level cursor span) :
    ∃ after, equality Limits.standard (expressionWithin Limits.standard bound) cursor =
      (.error (.diagnostic ⟨chain, span⟩), after) := by
  have inner : Complete Limits.standard bound (expressionWithin Limits.standard bound)
      (Expression InPlace depth .equality) Level.equality.Stops := expressionWithin_complete depth bound
  cases single with
  | equality =>
    exact nonAssociative_chained .equality .eqChain (comparison_complete inner
      (fun _ _ derived => derived.placed_span) fun _ _ derived => derived.exists_head) ahead
  | comparison =>
    -- the comparison is the first operand of the equality
    obtain ⟨after, failed⟩ := nonAssociative_chained .comparison .cmpChain
      (concatenation_complete inner (fun _ _ derived => derived.placed_span)
        fun _ _ derived => derived.exists_head) ahead
    exact ⟨after, bind_apply_of_error failed⟩

/-- A program that begins with an expression that fails is rejected for the same reason. -/
theorem program_of_expression_error {tokens : List Token} {failure : Failure}
    (holds : cursor.Holds tokens) (starts : nextKind tokens .eof ∈ starters)
    (failed : ∀ bound middle, tokens.length ≤ bound → Reaches cursor tokens middle →
      ∃ after, equality Limits.standard (expressionWithin Limits.standard bound) middle =
        (.error failure, after)) :
    (program Limits.standard cursor).1 = .error failure := by
  obtain ⟨rounds, budgeted, enough⟩ := exists_budget holds
  obtain ⟨bound, rfl⟩ : ∃ bound, rounds = bound + 1 := ⟨rounds - 1, by omega⟩
  obtain ⟨held, middle, looked, reaches, full, kind⟩ := exists_current holds
  rw [← kind] at starts
  obtain ⟨notLet, notEnd⟩ := ne_of_mem_starters starts
  obtain ⟨after, run⟩ := failed bound middle (by omega) reaches
  have stopped : statement Limits.standard (expressionWithin Limits.standard (bound + 1)) middle =
      (.error failure, after) := by
    unfold statement Builder.statement
    rw [bind_apply_of_ok (current_of_lookahead full), if_neg notLet]
    exact bind_apply_of_error run
  have items : statements Limits.standard (expressionWithin Limits.standard (bound + 1)) (bound + 1)
      cursor = (.error failure, after) := by
    rw [statements, Builder.statements, bind_apply_of_ok looked,
      if_neg fun isEnd => notEnd (.inr isEnd)]
    exact bind_apply_of_error stopped
  unfold program withBrackets Builder.withBrackets Builder.program
  rw [bind_apply_of_ok budgeted]
  dsimp only
  rw [bind_apply_of_ok budgeted, bind_apply_of_error items]

end Parse

namespace Source

variable {level : Level} {rule : Limits → Parse Measured → Parse Measured} {chain : Fault}

/-- A text that is read by the rule for the operands of a level has the tokens of such an
operand. -/
theorem Consumed.operand_of_single {source : Source} {tree : Node}
    (consumed : source.Consumed (rule Limits.standard) tree) (single : SingleLevel level rule chain) :
    ∃ depth tokens, Lexes 0 source.text tokens ∧ Operand depth level.tighter tokens tree := by
  cases single with
  | equality =>
    exact consumed.operand (fun _ => Parse.comparison_sound (Parse.expressionWithin_sound _)
      fun _ _ derived => derived.placed_span) fun _ => Parse.comparison_allowed rfl
  | comparison =>
    exact consumed.operand (fun _ => Parse.concatenation_sound (Parse.expressionWithin_sound _)
      fun _ _ derived => derived.placed_span) fun _ => Parse.concatenation_allowed rfl

/-- A source that consists of a chain of a level is rejected for it. -/
theorem parse_of_chain (single : SingleLevel level rule chain) (source : Source) {depth : Nat}
    {leftTokens middleTokens rightTokens : List Token} {left middle right : Node}
    {op op' semi : Token}
    (lexes : Lexes 0 source.text
      (leftTokens ++ op :: (middleTokens ++ op' :: (rightTokens ++ [semi]))))
    (first : Operand (depth + 1) level.tighter leftTokens left)
    (isOperator : op.kind ∈ level.operators)
    (second : Operand (depth + 1) level.tighter middleTokens middle)
    (isOperator' : op'.kind ∈ level.operators)
    (third : Operand (depth + 1) level.tighter rightTokens right) (isSemi : semi.kind = .semi) :
    ∃ span, InPlace (middleTokens ++ [op'] ++ rightTokens) span ∧
      source.parse = .error (.diagnostic ⟨chain, span⟩) := by
  have holds := holds_start lexes
  obtain ⟨span, inPlace⟩ : ∃ span, InPlace (middleTokens ++ [op'] ++ rightTokens) span := by
    have behind := (List.pairwise_cons.mp (List.pairwise_append.mp lexes.ordered).2.1).2
    rw [List.append_cons, ← List.append_assoc] at behind
    exact exists_inPlace_of_ordered (List.pairwise_append.mp behind).1 (by simp)
  have starts : nextKind (leftTokens ++ op :: (middleTokens ++ op' :: (rightTokens ++ [semi]))) .eof ∈
      starters := by
    obtain ⟨token, more, rfl, isStarter⟩ := first.derived.exists_head
    exact isStarter
  have stops : level.tighter.Stops (nextKind [semi] .eof) := by
    have isStop : Level.equality.Stops semi.kind := by
      rw [isSemi]
      exact Level.stops_equality_iff.mpr (by decide)
    exact fun tight _ => isStop tight (by cases tight <;> decide)
  have failed := Parse.program_of_expression_error holds starts fun bound middle short reaches =>
    Parse.equality_chained single ⟨first, isOperator, second, isOperator', third, stops,
      reaches.holds, short, reaches.nesting_eq, inPlace⟩
  refine ⟨span, inPlace, ?_⟩
  rw [parse, parseWithin, failed]
  rfl

/-- A source that consists of two operands of a level with one of its operators between them is read
as this comparison, unless that is too high. -/
theorem parse_of_pair (single : SingleLevel level rule chain) (source : Source) {depth : Nat}
    {leftTokens rightTokens : List Token} {left right : Node} {op semi : Token}
    (lexes : Lexes 0 source.text (leftTokens ++ op :: (rightTokens ++ [semi])))
    (first : Operand (depth + 1) level.tighter leftTokens left)
    (isOperator : op.kind ∈ level.operators)
    (second : Operand (depth + 1) level.tighter rightTokens right) (isSemi : semi.kind = .semi) :
    ∃ inner outer,
      let tree := Node.module ⟨0, source.size⟩
        [.exprStmt outer (.binary inner op.value left right)]
      (tree.height ≤ 256 → source.parse = .ok tree) ∧
      (256 < tree.height → ∃ deep, source.parse = .error (.diagnostic ⟨.tooDeep, deep⟩)) := by
  have lexes' : Lexes 0 source.text (leftTokens ++ [op] ++ rightTokens ++ [semi]) := by
    simpa using lexes
  have ordered := lexes'.ordered
  obtain ⟨inner, placed⟩ := exists_inPlace_of_ordered (List.pairwise_append.mp ordered).1 (by simp)
  obtain ⟨outer, placed'⟩ := exists_inPlace_of_ordered ordered (by simp)
  have leftOperand : level.leftOperand = level.tighter := by cases single <;> rfl
  have binary : Expression InPlace (depth + 1) level (leftTokens ++ [op] ++ rightTokens)
      (.binary inner op.value left right) :=
    .binary (leftOperand ▸ first.derived) isOperator second.derived placed
  have whole : Expression InPlace (depth + 1) .equality (leftTokens ++ [op] ++ rightTokens)
      (.binary inner op.value left right) := Derives.loosen binary (by cases single <;> decide)
  have program : Program InPlace (leftTokens ++ [op] ++ rightTokens ++ [semi])
      (.module ⟨0, source.size⟩ [.exprStmt outer (.binary inner op.value left right)]) := by
    have stmts : Statements InPlace (Expression InPlace (depth + 1) .equality) false .eof _ _ :=
      .cons (.terminated whole isSemi placed') .nil
    rw [List.append_nil] at stmts
    exact ⟨depth + 1, _, _, rfl, stmts⟩
  refine ⟨inner, outer, fun low => ?_, fun high => ?_⟩
  · have few : (Node.module ⟨0, source.size⟩
        [.exprStmt outer (.binary inner op.value left right)]).bracketDepth ≤ 40 := by
      rw [Node.bracketDepth_module_binary]
      exact max_le first.few second.few
    exact parse_eq_ok_iff.mpr ⟨_, lexes', program, rfl, few, low⟩
  · have unlimited := parseWithin_eq_ok_iff.mpr
      ⟨_, lexes', program, rfl, Limits.fits_unlimited, rfl⟩
    rcases parseWithin_eq_unlimited_or source Limits.standard with same | deep
    · rw [unlimited] at same
      obtain ⟨_, _, _, _, _, low⟩ := parse_eq_ok_iff.mp same
      omega
    · exact deep

/-- The tokens of a source that consists of some tokens, up to the first and the last one. -/
theorem tokens_of_lexes {source : Source} {tokens : List Token} (lexes : Lexes 0 source.text tokens) :
    source.tokenize.tokens = tokens ++ [source.endToken] :=
  (Tokenization.result_eq_ok_iff.mp (tokenize_eq_ok_iff.mpr ⟨tokens, lexes, rfl⟩)).2

/-- Set on lines of their own with operators of a level between them, texts that the rule of its
operands reads as a whole are operands: two of them with a semicolon are read as a comparison of their
trees, if that is low enough, and three are reported as a chain, from the first token of the second one
to the last token of the third one. -/
theorem parse_chained (single : SingleLevel level rule chain) {first second : Source}
    {left middle : Node} (consumed : first.Consumed (rule Limits.standard) left)
    (consumed' : second.Consumed (rule Limits.standard) middle) {op : Text} {kind : TokenKind}
    (isSymbol : (op, kind) ∈ TokenKind.symbols) (isOperator : kind ∈ level.operators) (name : Text) :
    let start := first.text.length + 1 + (op.length + 1)
    (∀ (third : Source) (right : Node) (op' : Text) (kind' : TokenKind),
      third.Consumed (rule Limits.standard) right → (op', kind') ∈ TokenKind.symbols →
      kind' ∈ level.operators →
      let start' := start + (second.text.length + 1) + (op'.length + 1)
      ∃ firstToken lastToken span, second.tokenize.tokens.head? = some firstToken ∧
        third.tokenize.tokens.dropLast.getLast? = some lastToken ∧
        span.index = firstToken.span.index + start ∧ span.stop = lastToken.span.stop + start' ∧
        (ofText name (Text.joinLines [first.text, op, second.text, op', third.text, [';']])).parse =
          .error (.diagnostic ⟨chain, span⟩)) ∧
    ∃ inner outer,
      let source := ofText name (Text.joinLines [first.text, op, second.text, [';']])
      let tree := Node.module ⟨0, source.size⟩
        [.exprStmt outer (.binary inner op left (middle.forth start))]
      (tree.height ≤ 256 → source.parse = .ok tree) ∧
      (256 < tree.height → ∃ deep, source.parse = .error (.diagnostic ⟨.tooDeep, deep⟩)) := by
  intro start
  obtain ⟨depth, leftTokens, lexes, operand⟩ := consumed.operand_of_single single
  obtain ⟨depth', middleTokens, lexes', operand'⟩ := consumed'.operand_of_single single
  have opLexes := lexes_symbol isSymbol
  have semiLexes := lexes_symbol (show ([';'], TokenKind.semi) ∈ TokenKind.symbols by decide)
  constructor
  · intro third right op' kind' consumed'' isSymbol' isOperator' start'
    obtain ⟨depth'', rightTokens, lexes'', operand''⟩ := consumed''.operand_of_single single
    have opLexes' := lexes_symbol isSymbol'
    have whole := @lexes_joinLines [(first.text, leftTokens), (op, _), (second.text, middleTokens),
      (op', _), (third.text, rightTokens), ([';'], _)] (by
        simp only [List.forall_mem_cons]
        exact ⟨lexes, opLexes, lexes', opLexes', lexes'', semiLexes, fun _ isIn => by cases isIn⟩)
      (List.cons_ne_nil _ _)
    simp only [placedTokens, Token.forth_zero, List.map_id, List.map_cons, List.map_nil,
      List.cons_append, List.nil_append, Nat.zero_add] at whole
    obtain ⟨deep, le, le', le''⟩ : ∃ deep, depth ≤ deep + 1 ∧ depth' ≤ deep + 1 ∧ depth'' ≤ deep + 1 :=
      ⟨depth + depth' + depth'', by omega, by omega, by omega⟩
    obtain ⟨span, inPlace, failed⟩ := parse_of_chain single (ofText name _) whole
      (operand.deeper le) isOperator (operand'.forth le' start) isOperator'
      (operand''.forth le'' start') rfl
    obtain ⟨firstToken, lastToken, head, tail, index_eq, stop_eq⟩ :=
      inPlace.of_forth operand'.filled operand''.filled
    refine ⟨firstToken, lastToken, span, ?_, ?_, index_eq, stop_eq, failed⟩
    · rw [tokens_of_lexes lexes', List.head?_append, head]
      rfl
    · rw [tokens_of_lexes lexes'', List.dropLast_concat, tail]
  · have whole := @lexes_joinLines [(first.text, leftTokens), (op, _), (second.text, middleTokens),
      ([';'], _)] (by
        simp only [List.forall_mem_cons]
        exact ⟨lexes, opLexes, lexes', semiLexes, fun _ isIn => by cases isIn⟩)
      (List.cons_ne_nil _ _)
    simp only [placedTokens, Token.forth_zero, List.map_id, List.map_cons, List.map_nil,
      List.cons_append, List.nil_append, Nat.zero_add] at whole
    obtain ⟨deep, le, le'⟩ : ∃ deep, depth ≤ deep + 1 ∧ depth' ≤ deep + 1 :=
      ⟨depth + depth', by omega, by omega⟩
    exact parse_of_pair single (ofText name _) whole (operand.deeper le) isOperator
      (operand'.forth le' start) rfl

/-- An equality of a comparison and a negation is no operand of another one, and the comment behind the
negation ends with its line. -/
theorem parse_chained_negation :
    (ofText [] "a < b".toList).Consumed (Parse.comparison Limits.standard)
      (.binary ⟨0, 5⟩ ['<'] (.name ⟨0, 1⟩ ['a']) (.name ⟨4, 1⟩ ['b'])) ∧
    (ofText [] "-x // y".toList).Consumed (Parse.comparison Limits.standard)
      (.unary ⟨0, 2⟩ ['-'] (.name ⟨1, 1⟩ ['x'])) ∧
    ∃ span, span.index = 9 ∧ span.stop = 25 ∧
      (ofText [] "a < b\n==\n-x // y\n!=\na < b\n;".toList).parse =
        .error (.diagnostic ⟨.eqChain, span⟩) := by
  have consumed : (ofText [] "a < b".toList).Consumed (Parse.comparison Limits.standard)
      (.binary ⟨0, 5⟩ ['<'] (.name ⟨0, 1⟩ ['a']) (.name ⟨4, 1⟩ ['b'])) := ⟨by cbv, by cbv⟩
  have consumed' : (ofText [] "-x // y".toList).Consumed (Parse.comparison Limits.standard)
      (.unary ⟨0, 2⟩ ['-'] (.name ⟨1, 1⟩ ['x'])) := ⟨by cbv, by cbv⟩
  obtain ⟨chained, -⟩ := parse_chained .equality consumed consumed'
    (show (['=', '='], TokenKind.eq) ∈ TokenKind.symbols by decide) (by decide) []
  obtain ⟨firstToken, lastToken, span, head, last, index_eq, stop_eq, rejected⟩ :=
    chained (ofText [] "a < b".toList) _ ['!', '='] .ne consumed (by decide) (by decide)
  refine ⟨consumed, consumed', span, ?_, ?_, rejected⟩
  · obtain rfl : firstToken = ⟨.sub, ['-'], ⟨0, 1⟩⟩ := Option.some.inj (head.symm.trans (by cbv))
    exact index_eq
  · obtain rfl : lastToken = ⟨.ident, ['b'], ⟨4, 1⟩⟩ := Option.some.inj (last.symm.trans (by cbv))
    exact stop_eq

end Source

end SinosLang
