import SinosLang.Parse.Grammar
import SinosLang.Proofs.Node.Spans
import Mathlib.Data.List.Forall2

/-!
# Two runs side by side

The rules of the grammar look at the kinds and the values of tokens and at the shapes of trees; spans
are only put together and handed on. So two runs of a rule go the same way from cursors that have
tokens of the same kinds and values, and what they answer with differs in the spans alone. This is
shown here once for every relation between actions that holds of the few actions on the cursor and is
kept by sequencing. What it takes for two spans to be alike is left open: their starts and their ends
have to be.

Main statement: `Simulation.allStatements`, the statements of a program are read side by side.
-/

set_option autoImplicit false

namespace SinosLang

/-- What makes spans of two runs alike: how their starts and their ends are related, and what can be
seen of both that then is the same. -/
structure Likeness where
  start : Nat → Nat → Prop
  stop : Nat → Nat → Prop
  view : Span → Span
  view' : Span → Span
  view_eq : ∀ span span' : Span, start span.index span'.index → stop span.stop span'.stop →
    view span = view' span'

namespace Likeness

variable (like : Likeness)

/-- Two spans are alike. -/
def Spans (span span' : Span) : Prop :=
  like.start span.index span'.index ∧ like.stop span.stop span'.stop

/-- Two tokens are of the same kind and value, at spans that are alike. -/
structure Tokens (token token' : Token) : Prop where
  kind_eq : token.kind = token'.kind
  value_eq : token.value = token'.value
  spans : like.Spans token.span token'.span

/-- Two trees are the same but for their spans, which are alike, and their heights were recorded as
the same. -/
structure Trees (result result' : Measured) : Prop where
  node : result.node.mapSpans like.view = result'.node.mapSpans like.view'
  height_eq : result.height = result'.height
  spans : like.Spans result.node.span result'.node.span

/-- The items of two blocks are alike, one by one. -/
structure Items (found found' : List Measured × Option Measured) : Prop where
  stmts : List.Forall₂ like.Trees found.1 found'.1
  last : Option.Rel like.Trees found.2 found'.2

variable {like}

/-- Spans that are alike look the same. -/
theorem Spans.eq {span span' : Span} (alike : like.Spans span span') :
    like.view span = like.view' span' :=
  like.view_eq _ _ alike.1 alike.2

/-- Trees that are alike are both blocks or neither is. -/
theorem Trees.isBlock_eq {result result' : Measured} (alike : like.Trees result result') :
    result.node.isBlock = result'.node.isBlock := by
  rw [← Node.isBlock_mapSpans like.view, alike.node, Node.isBlock_mapSpans]

/-- The nodes of trees that are alike look the same. -/
theorem map_node {results results' : List Measured}
    (alike : List.Forall₂ like.Trees results results') :
    (results.map Measured.node).map (Node.mapSpans like.view) =
      (results'.map Measured.node).map (Node.mapSpans like.view') := by
  induction alike with
  | nil => rfl
  | cons first _ ih => simp only [List.map_cons, first.node, ih]

/-- The nodes of optional trees that are alike look the same. -/
theorem map_node? {result? result'? : Option Measured}
    (alike : Option.Rel like.Trees result? result'?) :
    (result?.map Measured.node).map (Node.mapSpans like.view) =
      (result'?.map Measured.node).map (Node.mapSpans like.view') := by
  cases alike with
  | some inner => exact congrArg some inner.node
  | none => rfl

/-- Trees that are alike have the same heights. -/
theorem map_height {results results' : List Measured}
    (alike : List.Forall₂ like.Trees results results') :
    results.map Measured.height = results'.map Measured.height := by
  induction alike with
  | nil => rfl
  | cons first _ ih => simp only [List.map_cons, first.height_eq, ih]

/-- The parts of two blocks that are alike are alike one by one. -/
theorem Items.parts {found found' : List Measured × Option Measured}
    (alike : like.Items found found') :
    List.Forall₂ like.Trees (found.1 ++ found.2.toList) (found'.1 ++ found'.2.toList) := by
  obtain ⟨stmts, last?⟩ := found
  obtain ⟨stmts', last'?⟩ := found'
  obtain ⟨allStmts, last⟩ := alike
  refine List.rel_append allStmts ?_
  dsimp only at last ⊢
  cases last with
  | some inner => exact .cons inner .nil
  | none => exact .nil

/-- Tokens that are alike stand for leaves that are alike. -/
theorem Tokens.leafNode? {token token' : Token} (alike : like.Tokens token token') :
    Option.Rel (fun node node' => like.Trees (Parse.leaf node) (Parse.leaf node'))
      (Parse.leafNode? token) (Parse.leafNode? token') := by
  obtain ⟨kind_eq, value_eq, span⟩ := alike
  unfold Parse.leafNode?
  rw [← kind_eq]
  split <;> first
    | exact .none
    | exact .some ⟨by simp only [Parse.leaf, Node.mapSpans, span.eq, value_eq], rfl, span⟩

end Likeness

namespace Parse

section Sequences

variable {α β γ : Type}

/-- Changing no answer changes nothing. -/
theorem id_map_eq (action : Parse α) : id <$> action = action := by
  funext cursor
  match run : action cursor with
  | (.ok value, after) => exact bind_apply_of_ok run
  | (.error failure, after) => exact bind_apply_of_error run

/-- It does not matter where three actions in a row are taken apart. -/
theorem bind_bind (action : Parse α) (next : α → Parse β) (last : β → Parse γ) :
    action >>= next >>= last = action >>= fun value => next value >>= last := by
  funext cursor
  match run : action cursor with
  | (.ok value, after) =>
    rw [bind_apply_of_ok run]
    show andThen (action >>= next) last cursor = andThen (next value) last after
    rw [andThen, andThen, bind_apply_of_ok run]
  | (.error failure, after) =>
    rw [bind_apply_of_error run, bind_apply_of_error (bind_apply_of_error run)]

instance : LawfulMonad Parse :=
  LawfulMonad.mk' Parse id_map_eq (fun _ _ => rfl) bind_bind

end Sequences

/-- A relation between actions, one side under each of two limits, given how their answers are
related. It holds of the actions on the cursor, whose answers are alike, and is kept when actions are
put together. The rules themselves report no fault of the lexer. -/
structure Simulation (like : Likeness) (first second : Limits)
    (rel : ∀ ⦃α β : Type⦄, (α → β → Prop) → Parse α → Parse β → Prop) : Prop where
  pure {α β : Type} {R : α → β → Prop} {value : α} {value' : β} :
    R value value' → rel R (Pure.pure value) (Pure.pure value')
  bind {α α' β β' : Type} {R : α → α' → Prop} {S : β → β' → Prop} {action : Parse α}
    {action' : Parse α'} {next : α → Parse β} {next' : α' → Parse β'} :
    rel R action action' → (∀ value value', R value value' → rel S (next value) (next' value')) →
    rel S (action >>= next) (action' >>= next')
  current : rel like.Tokens Parse.current Parse.current
  pull : rel like.Tokens Parse.pull Parse.pull
  report {α β : Type} {R : α → β → Prop} {fault : Fault} {span span' : Span} :
    fault.isLexical = false → like.Spans span span' →
    rel R (Parse.report fault span) (Parse.report fault span')
  openBracket {bracket bracket' : Token} : like.Tokens bracket bracket' →
    rel Eq (Parse.openBracket first bracket) (Parse.openBracket second bracket')
  closeBracket : rel Eq Parse.closeBracket Parse.closeBracket
  cover {start start' stop stop' : Span} : like.Spans start start' → like.Spans stop stop' →
    rel like.Spans (Parse.cover start stop) (Parse.cover start' stop')
  build {node node' : Node} {parts parts' : List Measured} :
    node.mapSpans like.view = node'.mapSpans like.view' → like.Spans node.span node'.span →
    List.Forall₂ like.Trees parts parts' →
    rel like.Trees (Parse.build first node parts) (Parse.build second node' parts')
  budget {α β : Type} {R : α → β → Prop} {next : Nat → Parse α} {next' : Nat → Parse β} :
    (∀ rounds rounds', rel R (next rounds) (next' rounds')) →
    rel R (Parse.budget >>= next) (Parse.budget >>= next')
  exhausted {α β : Type} {R : α → β → Prop} :
    rel R (fail .depthExhausted : Parse α) (fail .depthExhausted : Parse β)
  exhausted_left {α β : Type} {R : α → β → Prop} {action : Parse α} {action' : Parse β} :
    rel R action action' → rel R (fail .depthExhausted) action'
  exhausted_right {α β : Type} {R : α → β → Prop} {action : Parse α} {action' : Parse β} :
    rel R action action' → rel R action (fail .depthExhausted)

/-- The statements of a whole program, with rounds and depth from its tokens. -/
def allStatements (limits : Limits) : Parse (List Measured) :=
  withBrackets limits fun expression => do
    statements limits expression (← budget)

/-- The tree of a whole program, once its statements have been read. -/
def wholeProgram (limits : Limits) (stmts : List Measured) : Parse Measured := do
  let finish ← current
  let span ← cover ⟨0, 0⟩ finish.span
  build limits (.module span (stmts.map Measured.node)) stmts

/-- A program is the tree of its statements. -/
theorem program_eq (limits : Limits) :
    program limits = allStatements limits >>= wholeProgram limits := by
  unfold program allStatements
  rfl

/-- A failure of the statements is one of the whole program. -/
theorem program_of_failure {limits : Limits} {cursor after : Cursor} {failure : Failure}
    (run : allStatements limits cursor = (.error failure, after)) :
    program limits cursor = (.error failure, after) := by
  rw [program_eq, bind_apply_of_error run]

namespace Simulation

variable {like : Likeness} {first second : Limits}
  {rel : ∀ ⦃α β : Type⦄, (α → β → Prop) → Parse α → Parse β → Prop}
  (sim : Simulation like first second rel)
include sim

/-- Loops are related, whatever their numbers of rounds, if one more round on both sides keeps them
related. -/
theorem rounds {ι ι' α β : Type} {I : ι → ι' → Prop} {R : α → β → Prop} {loop : Nat → ι → Parse α}
    {loop' : Nat → ι' → Parse β} (zero : ∀ i, loop 0 i = fail .depthExhausted)
    (zero' : ∀ i, loop' 0 i = fail .depthExhausted)
    (step : ∀ n n', (∀ i i', I i i' → rel R (loop n i) (loop' n' i')) →
      ∀ i i', I i i' → rel R (loop (n + 1) i) (loop' (n' + 1) i')) (n n' : Nat) :
    ∀ i i', I i i' → rel R (loop n i) (loop' n' i') := by
  induction n generalizing n' with
  | zero =>
    induction n' with
    | zero =>
      intro i i' _
      rw [zero, zero']
      exact sim.exhausted
    | succ n' ih =>
      intro i i' alike
      rw [zero]
      exact sim.exhausted_left (step 0 n' ih i i' alike)
  | succ n ih =>
    cases n' with
    | zero =>
      intro i i' alike
      rw [zero']
      exact sim.exhausted_right (step n 0 (ih 0) i i' alike)
    | succ n' => exact step n n' (ih n')

/-- The same for loops without a state. -/
theorem turns {α β : Type} {R : α → β → Prop} {loop : Nat → Parse α} {loop' : Nat → Parse β}
    (zero : loop 0 = fail .depthExhausted) (zero' : loop' 0 = fail .depthExhausted)
    (step : ∀ n n', rel R (loop n) (loop' n') → rel R (loop (n + 1)) (loop' (n' + 1)))
    (n n' : Nat) : rel R (loop n) (loop' n') := by
  have all := @rounds _ _ _ _ sim Unit Unit α β (fun _ _ => True) R (fun n _ => loop n)
    (fun n _ => loop' n) (fun _ => zero) (fun _ => zero')
    (fun n n' related i i' _ => step n n' (related i i' trivial))
  exact all n n' () () trivial

/-! ## The cursor -/

/-- Consuming a token simulates consuming one. -/
theorem advance : rel like.Tokens Parse.advance Parse.advance := by
  unfold Parse.advance
  refine sim.bind sim.current fun token token' alike => ?_
  rw [← alike.kind_eq]
  split
  · exact sim.pure alike
  · exact sim.bind sim.pull fun _ _ _ => sim.pure alike

/-- A match simulates the match of the same kinds. -/
theorem accept (kinds : List TokenKind) :
    rel (Option.Rel like.Tokens) (Parse.accept kinds) (Parse.accept kinds) := by
  unfold Parse.accept
  refine sim.bind sim.current fun token token' alike => ?_
  rw [← alike.kind_eq]
  split
  · exact sim.bind sim.advance fun _ _ taken => sim.pure (.some taken)
  · exact sim.pure .none

/-- An expectation simulates the expectation of the same kind. -/
theorem expect (kind : TokenKind) {fault : Fault} (notLexical : fault.isLexical = false) :
    rel like.Tokens (Parse.expect kind fault) (Parse.expect kind fault) := by
  unfold Parse.expect Parse.expectAny
  refine sim.bind (sim.accept _) fun taken? taken'? alike => ?_
  cases alike with
  | some taken => exact sim.pure taken
  | none => exact sim.bind sim.current fun _ _ seen => sim.report notLexical seen.spans

/-! ## Levels of operators -/

/-- The nodes of operators are alike if the operators and their operands are. -/
theorem binaryNode {op op' : Token} {left left' right right' : Measured}
    (ops : like.Tokens op op') (lefts : like.Trees left left') (rights : like.Trees right right') :
    rel like.Trees (Parse.binaryNode first op left right)
      (Parse.binaryNode second op' left' right') := by
  refine sim.bind (sim.cover lefts.spans rights.spans) fun span span' spans => ?_
  refine sim.build ?_ spans (.cons lefts (.cons rights .nil))
  simp only [Node.mapSpans, spans.eq, ops.value_eq, lefts.node, rights.node]

section Levels

variable {operand operand' : Parse Measured} (related : rel like.Trees operand operand')
include related

/-- The loops over the operators of a level simulate each other. -/
theorem extendLeft (ops : List TokenKind) (n n' : Nat) {left left' : Measured}
    (lefts : like.Trees left left') :
    rel like.Trees (Parse.extendLeft first operand ops n left)
      (Parse.extendLeft second operand' ops n' left') := by
  refine sim.rounds (fun _ => rfl) (fun _ => rfl) (fun n n' ih left left' lefts => ?_) n n' left
    left' lefts
  unfold Parse.extendLeft Builder.extendLeft
  refine sim.bind sim.current fun token token' alike => ?_
  rw [← alike.kind_eq]
  split
  · refine sim.bind sim.advance fun op op' ops => sim.bind related fun right right' rights => ?_
    exact sim.bind (sim.binaryNode ops lefts rights) fun whole whole' wholes =>
      ih whole whole' wholes
  · exact sim.pure lefts

/-- Levels with any number of operators simulate each other if their operands do. -/
theorem leftAssociative (ops : List TokenKind) :
    rel like.Trees (Parse.leftAssociative first operand ops)
      (Parse.leftAssociative second operand' ops) :=
  sim.bind related fun _ _ lefts => sim.budget fun n n' => sim.extendLeft related ops n n' lefts

/-- Levels with at most one operator simulate each other if their operands do. -/
theorem nonAssociative (ops : List TokenKind) {chain : Fault} (notLexical : chain.isLexical = false) :
    rel like.Trees (Parse.nonAssociative first operand ops chain)
      (Parse.nonAssociative second operand' ops chain) := by
  unfold Parse.nonAssociative Builder.nonAssociative
  refine sim.bind related fun left left' lefts => ?_
  refine sim.bind sim.current fun token token' alike => ?_
  rw [← alike.kind_eq]
  split
  · refine sim.bind sim.advance fun op op' ops => sim.bind related fun right right' rights => ?_
    refine sim.bind sim.current fun next next' alike' => ?_
    rw [← alike'.kind_eq]
    split
    · refine sim.bind sim.advance fun _ _ _ => sim.bind related fun _ _ chained => ?_
      exact sim.bind (sim.cover rights.spans chained.spans) fun _ _ spans => sim.report notLexical spans
    · exact sim.binaryNode ops lefts rights
  · exact sim.pure lefts

end Levels

/-! ## Prefix operators -/

/-- The loops over prefix operators simulate each other. -/
theorem prefixRun (n n' : Nat) :
    rel (List.Forall₂ like.Tokens) (Parse.prefixRun n) (Parse.prefixRun n') := by
  refine sim.turns rfl rfl (fun n n' ih => ?_) n n'
  unfold Parse.prefixRun
  refine sim.bind sim.current fun token token' alike => ?_
  rw [← alike.kind_eq]
  split
  · exact sim.bind sim.advance fun _ _ op => sim.bind ih fun _ _ ops => sim.pure (.cons op ops)
  · exact sim.pure .nil

/-- Prefix operators that are alike are put before operands that are alike in the same way. -/
theorem applyPrefixes {operand operand' : Measured} {ops ops' : List Token}
    (operands : like.Trees operand operand') (alike : List.Forall₂ like.Tokens ops ops') :
    rel like.Trees (Parse.applyPrefixes first operand ops)
      (Parse.applyPrefixes second operand' ops') := by
  induction alike with
  | nil => exact sim.pure operands
  | cons op _ ih =>
    refine sim.bind ih fun inner inner' inners => ?_
    refine sim.bind (sim.cover op.spans inners.spans) fun span span' spans => ?_
    refine sim.build ?_ spans (.cons inners .nil)
    simp only [Node.mapSpans, spans.eq, op.value_eq, inners.node]

/-! ## Statements and brackets -/

/-- Type annotations simulate each other. -/
theorem typePart : rel (Option.Rel like.Tokens) Parse.typePart Parse.typePart := by
  unfold Parse.typePart
  refine sim.bind (sim.accept _) fun colon? colon'? alike => ?_
  cases alike with
  | some _ => exact sim.bind (sim.expect _ rfl) fun _ _ type => sim.pure (.some type)
  | none => exact sim.pure .none

/-- The ends of statements are alike if their expressions are. -/
theorem statementEnd {expr expr' : Measured} (exprs : like.Trees expr expr') :
    rel like.Spans (Parse.statementEnd expr.node) (Parse.statementEnd expr'.node) := by
  unfold Parse.statementEnd
  rw [← exprs.isBlock_eq]
  split
  · refine sim.bind (sim.accept _) fun semi? semi'? alike => ?_
    cases alike with
    | some semi => exact sim.pure semi.spans
    | none => exact sim.pure exprs.spans
  · exact sim.bind (sim.expect _ rfl) fun _ _ semi => sim.pure semi.spans

/-- Expressions that are alike become statements that are alike. -/
theorem expressionStatement {expr expr' : Measured} (exprs : like.Trees expr expr') :
    rel like.Trees (Parse.expressionStatement first expr)
      (Parse.expressionStatement second expr') := by
  refine sim.bind (sim.statementEnd exprs) fun stop stop' stops => ?_
  refine sim.bind (sim.cover exprs.spans stops) fun span span' spans => ?_
  refine sim.build ?_ spans (.cons exprs .nil)
  simp only [Node.mapSpans, spans.eq, exprs.node]

section Inside

variable {expression expression' : Parse Measured}
  (related : rel like.Trees expression expression')
include related

/-- Bindings simulate each other if expressions do. -/
theorem letStatement :
    rel like.Trees (Parse.letStatement first expression)
      (Parse.letStatement second expression') := by
  unfold Parse.letStatement Builder.letStatement
  refine sim.bind sim.advance fun keyword keyword' keywords => ?_
  refine sim.bind (sim.expect _ rfl) fun binding binding' bindings => ?_
  refine sim.bind sim.typePart fun type? type'? types => ?_
  refine sim.bind (sim.expect _ rfl) fun _ _ _ => sim.bind related fun value value' values => ?_
  refine sim.bind (sim.expect _ rfl) fun semi semi' semis => ?_
  refine sim.bind (sim.cover keywords.spans semis.spans) fun span span' spans => ?_
  refine sim.build ?_ spans (.cons values .nil)
  have types_eq : type?.map Token.value = type'?.map Token.value := by
    cases types with
    | some type => exact congrArg some type.value_eq
    | none => rfl
  simp only [Node.mapSpans, spans.eq, bindings.value_eq, types_eq, values.node]

/-- Statements simulate each other if expressions do. -/
theorem statement :
    rel like.Trees (Parse.statement first expression) (Parse.statement second expression') := by
  unfold Parse.statement Builder.statement
  refine sim.bind sim.current fun token token' alike => ?_
  rw [← alike.kind_eq]
  split
  · exact sim.letStatement related
  · exact sim.bind related fun _ _ exprs => sim.expressionStatement exprs

/-- What blocks hold is alike if expressions are. -/
theorem blockItems (n n' : Nat) :
    rel like.Items (Parse.blockItems first expression n)
      (Parse.blockItems second expression' n') := by
  refine sim.turns rfl rfl (fun n n' ih => ?_) n n'
  -- a statement, and then the items that come after it
  have goOn {stmt stmt' : Measured} (stmts : like.Trees stmt stmt') :
      rel like.Items
        (Parse.blockItems first expression n >>= fun found => Pure.pure (stmt :: found.1, found.2))
        (Parse.blockItems second expression' n' >>= fun found =>
          Pure.pure (stmt' :: found.1, found.2)) :=
    sim.bind ih fun _ _ found => sim.pure ⟨.cons stmts found.stmts, found.last⟩
  unfold Parse.blockItems Builder.blockItems
  refine sim.bind sim.current fun token token' alike => ?_
  rw [← alike.kind_eq]
  dsimp only
  split
  · exact sim.pure ⟨.nil, .none⟩
  · split
    · exact sim.bind (sim.letStatement related) fun _ _ stmts => goOn stmts
    · refine sim.bind related fun expr expr' exprs => ?_
      refine sim.bind sim.current fun next next' alike' => ?_
      rw [← alike'.kind_eq]
      split
      · exact sim.pure ⟨.nil, .some exprs⟩
      · exact sim.bind (sim.expressionStatement exprs) fun _ _ stmts => goOn stmts

/-- Blocks simulate each other if expressions do. -/
theorem block : rel like.Trees (Parse.block first expression) (Parse.block second expression') := by
  unfold Parse.block Builder.block
  refine sim.bind (sim.expect _ rfl) fun opening opening' openings => ?_
  refine sim.bind (sim.openBracket openings) fun _ _ _ => sim.budget fun n n' => ?_
  refine sim.bind (sim.blockItems related n n') fun found found' alike => ?_
  refine sim.bind (sim.expect _ rfl) fun closing closing' closings => ?_
  refine sim.bind sim.closeBracket fun _ _ _ => ?_
  refine sim.bind (sim.cover openings.spans closings.spans) fun span span' spans => ?_
  refine sim.build ?_ spans alike.parts
  simp only [Node.mapSpans, Node.mapSpansAll_eq_map, Node.mapSpansOption_eq_map, spans.eq,
    Likeness.map_node alike.stmts, Likeness.map_node? alike.last]

/-- Groups simulate each other if expressions do. -/
theorem group {opening opening' : Token} (openings : like.Tokens opening opening') :
    rel like.Trees (Parse.group first expression opening)
      (Parse.group second expression' opening') := by
  unfold Parse.group Builder.group
  refine sim.bind (sim.openBracket openings) fun _ _ _ => ?_
  refine sim.bind sim.advance fun _ _ _ => sim.bind related fun inner inner' inners => ?_
  refine sim.bind (sim.expect _ rfl) fun closing closing' closings => ?_
  refine sim.bind sim.closeBracket fun _ _ _ => ?_
  refine sim.bind (sim.cover openings.spans closings.spans) fun span span' spans => ?_
  refine sim.build ?_ spans (.cons inners .nil)
  simp only [Node.mapSpans, spans.eq, inners.node]

/-- Primary expressions simulate each other if nested ones do. -/
theorem primary :
    rel like.Trees (Parse.primary first expression) (Parse.primary second expression') := by
  unfold Parse.primary Builder.primary
  refine sim.bind sim.current fun token token' alike => ?_
  have leaves := alike.leafNode?
  generalize Parse.leafNode? token = leaf? at leaves
  generalize Parse.leafNode? token' = leaf'? at leaves
  cases leaves with
  | some leaf => exact sim.bind sim.advance fun _ _ _ => sim.pure leaf
  | none =>
    dsimp only
    rw [← alike.kind_eq]
    split
    · exact sim.block related
    · split
      · exact sim.group related alike
      · exact sim.report rfl alike.spans

/-- Unary expressions simulate each other if nested ones do. -/
theorem unary : rel like.Trees (Parse.unary first expression) (Parse.unary second expression') :=
  sim.budget fun n n' => sim.bind (sim.prefixRun n n') fun _ _ ops =>
    sim.bind (sim.primary related) fun _ _ operands => sim.applyPrefixes operands ops

/-- Concatenations simulate each other if nested expressions do. -/
theorem concatenation :
    rel like.Trees (Parse.concatenation first expression)
      (Parse.concatenation second expression') :=
  sim.leftAssociative (sim.leftAssociative (sim.leftAssociative (sim.unary related) productOps)
    sumOps) concatenationOps

/-- Expressions of the loosest level simulate each other if nested ones do. -/
theorem equality :
    rel like.Trees (Parse.equality first expression) (Parse.equality second expression') :=
  sim.nonAssociative (sim.nonAssociative (sim.concatenation related) comparisonOps rfl) _ rfl

/-- The statements of programs simulate each other if expressions do. -/
theorem statements (n n' : Nat) :
    rel (List.Forall₂ like.Trees) (Parse.statements first expression n)
      (Parse.statements second expression' n') := by
  refine sim.turns rfl rfl (fun n n' ih => ?_) n n'
  unfold Parse.statements Builder.statements
  refine sim.bind sim.current fun token token' alike => ?_
  rw [← alike.kind_eq]
  split
  · exact sim.pure .nil
  · exact sim.bind (sim.statement related) fun _ _ stmt => sim.bind ih fun _ _ stmts =>
      sim.pure (.cons stmt stmts)

end Inside

/-! ## Expressions and programs -/

/-- Expressions of any depth simulate each other. -/
theorem expressionWithin (n n' : Nat) :
    rel like.Trees (Parse.expressionWithin first n) (Parse.expressionWithin second n') :=
  sim.turns rfl rfl (fun _ _ ih => sim.equality ih) n n'

/-- The statements of two programs are read side by side. -/
theorem allStatements :
    rel (List.Forall₂ like.Trees) (Parse.allStatements first) (Parse.allStatements second) :=
  sim.budget fun n n' => sim.budget fun m m' =>
    sim.statements (sim.expressionWithin n n') m m'

/-- Two programs are parsed side by side if the starts of their sources are alike. -/
theorem program (starts : like.Spans ⟨0, 0⟩ ⟨0, 0⟩) :
    rel like.Trees (Parse.program first) (Parse.program second) := by
  rw [program_eq, program_eq]
  refine sim.bind sim.allStatements fun stmts stmts' alike => ?_
  refine sim.bind sim.current fun finish finish' seen => ?_
  refine sim.bind (sim.cover starts seen.spans) fun span span' spans => sim.build ?_ spans alike
  simp only [Node.mapSpans, Node.mapSpansAll_eq_map, spans.eq, Likeness.map_node alike]

end Simulation

end Parse

end SinosLang
