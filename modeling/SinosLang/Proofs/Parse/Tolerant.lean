import SinosLang.Proofs.Grammar.Sentences
import SinosLang.Proofs.Parse.Abreast
import SinosLang.Proofs.Parse.Derivations

/-!
# A parser that tolerates chains

The tolerant parser takes any number of operators on the levels of equality and of comparison, and
groups them to the left like all others. It is not used by any program. Without limits it parses every
sentence, and it keeps abreast of the parser of the language: up to where that one fails, and if it
fails for a token that it did not expect, the tolerant one rejects that token as well. So what such a
token stands behind is not the beginning of any sentence that goes on with it.

Main statements: `exists_tolerantStatements`, sentences are parsed, and `alongside_tolerant`, the two
parsers keep abreast.
-/

set_option autoImplicit false

namespace SinosLang

open Grammar

/-- What the parser reports for a token that nothing begins or goes on with where it stands. -/
def Fault.isExpectation : Fault → Bool
  | .expectSemi | .expectExpr | .expectParenClose | .expectName | .expectEqual
  | .expectBraceClose => true
  | _ => false

namespace Parse

/-- An expression with any number of operators on every level. -/
def tolerant (limits : Limits) (expression : Parse Measured) : Parse Measured :=
  leftAssociative limits (leftAssociative limits (concatenation limits expression) comparisonOps)
    equalityOps

/-- Such an expression in which brackets are nested less than so deep. -/
def tolerantWithin (limits : Limits) : Nat → Parse Measured
  | 0 => fail .depthExhausted
  | depth + 1 => tolerant limits (tolerantWithin limits depth)

/-- Statements up to the end, made of such expressions. -/
def tolerantStatements (limits : Limits) : Parse (List Measured) := do
  let expression := tolerantWithin limits (← budget)
  statements limits expression (← budget)

/-! ## Sentences are parsed -/

section Complete

variable {limits : Limits}

/-- Expressions with chains are parsed if they have fewer tokens than the depth that is tried. -/
theorem tolerantWithin_complete (depth bound : Nat) :
    Complete limits bound (tolerantWithin limits bound) (Chained InPlace depth)
      Level.equality.Stops := by
  induction bound generalizing depth with
  | zero =>
    intro cursor tokens rest node _ short
    exact absurd short (Nat.not_lt_zero _)
  | succ bound ih =>
    cases depth with
    | zero =>
      intro cursor tokens rest node _ _ derived
      exact derived.elim
    | succ depth =>
      have concatenation : Complete limits (bound + 1)
          (concatenation limits (tolerantWithin limits bound))
          (Derives InPlace (Chained InPlace depth) .concatenation) Level.concatenation.Stops :=
        concatenation_complete (ih depth) (fun _ _ derived => derived.placed_span)
          fun _ _ derived => derived.exists_head
      have comparison := level_complete .comparison concatenation
        fun _ _ derived => derived.placed_span
      exact level_complete .equality comparison
        fun _ _ derived => derived.placed_span fun _ _ inner => inner.placed_span

/-- Without limits, every sentence is parsed. -/
theorem exists_tolerantStatements {tokens : List Token} (isSentence : Sentence tokens) :
    ∃ results after, tolerantStatements Limits.unlimited (Cursor.ahead tokens) =
      (.ok results, after) := by
  obtain ⟨depth, stmts, derived⟩ := isSentence.exists_statements
  obtain ⟨stmts', derived', _⟩ := carrying_plain_flat.statements (fun _ _ inner => inner.ne_nil)
    (carrying_plain_flat.chained depth) trivial derived
  have holds := Cursor.holds_ahead isSentence.endless
  obtain ⟨rounds, budgeted, enough⟩ := exists_budget holds
  obtain ⟨after, run, _⟩ := exists_statements (tolerantWithin_complete depth rounds)
    (fun _ _ inner => inner.placed_span) (fun _ _ inner => inner.exists_head) holds enough derived'
    (fun _ _ => Limits.fits_unlimited) (fun _ _ => rfl) enough
  refine ⟨stmts'.map Node.measured, after, ?_⟩
  unfold tolerantStatements
  rw [bind_apply_of_ok budgeted, bind_apply_of_ok budgeted]
  exact run

end Complete

/-! ## The parsers keep abreast -/

/-- Any two spans are alike: tokens are compared by their kinds and values only. -/
def anywhere : Likeness where
  start _ _ := True
  stop _ _ := True
  view _ := Span.origin
  view' _ := Span.origin
  view_eq _ _ _ _ := rfl

/-- All failures are excused but those for a token that was not expected. -/
def Excused (failure : Failure) : Prop :=
  ∀ d, failure = .diagnostic d → d.fault.isExpectation = false

/-- Without limits a parse gets as far as with any, where too deep a nesting is excused. -/
theorem lenient_unlimited (limits : Limits) : Lenient Excused limits Limits.unlimited where
  noDiagnostic failure noDiagnostic d isDiagnostic := absurd isDiagnostic (noDiagnostic d)
  limits_eq := .inr ⟨rfl, by rintro _ _ ⟨⟩; rfl⟩

section Abreast

variable {limits : Limits} {cut : Nat} {α β γ : Type} {R : α → β → Prop} {action : Parse α}

/-- An action that fails in an excused way wherever it is run is abreast of any other. -/
theorem alongside_doomed {action' : Parse β}
    (fails : ∀ cursor, ∃ failure, action cursor = (.error failure, cursor) ∧ Excused failure) :
    Alongside anywhere cut Excused R action action' where
  stays _ cursor := by
    obtain ⟨failure, run, _⟩ := fails cursor
    rw [run]
    exact ⟨le_rfl, by rintro _ ⟨⟩⟩
  keeps first second _ := by
    obtain ⟨failure, run, isExcused⟩ := fails first
    rw [run]
    exact .excused isExcused

/-- The second action may begin with one that leaves the cursor as it is. -/
theorem alongside_skip {skipped : Parse γ} {answers : γ → Prop} {next : γ → Parse β}
    (quiet : ∀ cursor, (∃ value, skipped cursor = (.ok value, cursor) ∧ answers value) ∨
      ∃ failure, skipped cursor = (.error failure, cursor) ∧ ∀ d, failure ≠ .diagnostic d)
    (possible : ∃ value, answers value)
    (related : ∀ value, answers value → Alongside anywhere cut Excused R action (next value)) :
    Alongside anywhere cut Excused R action (skipped >>= next) := by
  constructor
  · obtain ⟨value, isAnswer⟩ := possible
    exact (related value isAnswer).stays
  · intro first second abreast
    rcases quiet second with ⟨value, run, isAnswer⟩ | ⟨failure, run, noDiagnostic⟩
    · rw [bind_apply_of_ok run]
      exact (related value isAnswer).keeps abreast
    · rw [bind_apply_of_error run]
      exact .broken noDiagnostic

/-- The second action may ask for a number of rounds. -/
theorem alongside_budget_right {next : Nat → Parse β}
    (related : ∀ n, Alongside anywhere cut Excused R action (next n)) :
    Alongside anywhere cut Excused R action (budget >>= next) where
  stays := (related 0).stays
  keeps _ _ abreast := (related _).keeps abreast

/-- Rounds that a loop may run out of need not be counted. -/
theorem alongside_rounds (loop : Nat → Parse β) (zero : loop 0 = fail .depthExhausted)
    (step : ∀ n, Alongside anywhere cut Excused R action (loop (n + 1))) (n : Nat) :
    Alongside anywhere cut Excused R action (loop n) := by
  cases n with
  | zero =>
    rw [zero]
    exact alongside_exhausted (step 0)
  | succ n => exact step n

/-- Looking for a span leaves the cursor as it is, and no diagnostic comes of it. -/
theorem cover_quiet (start stop : Span) (cursor : Cursor) :
    (∃ span, cover start stop cursor = (.ok span, cursor)) ∨
      ∃ failure, cover start stop cursor = (.error failure, cursor) ∧
        ∀ d, failure ≠ .diagnostic d := by
  cases run : cover start stop cursor with
  | mk outcome after =>
    obtain rfl : cursor = after := congrArg Prod.snd run
    cases outcome with
    | ok span => exact .inl ⟨span, rfl⟩
    | error failure => exact .inr ⟨failure, rfl, cover_error run⟩

/-- Up to its span, this is the tree of a binary operator. -/
def IsBinary (op : Token) (left right whole : Measured) : Prop :=
  ∃ span, whole = ⟨.binary span op.value left.node right.node,
    max left.height (max right.height 0) + 1⟩

/-- The tree of a binary operator is built where the cursor is, unless it has no span or is too
tall. -/
theorem binaryNode_quiet (limits : Limits) (op : Token) (left right : Measured) (cursor : Cursor) :
    (∃ whole, binaryNode limits op left right cursor = (.ok whole, cursor) ∧
      IsBinary op left right whole) ∨
    ∃ failure, binaryNode limits op left right cursor = (.error failure, cursor) ∧
      Excused failure ∧ (limits = Limits.unlimited → ∀ d, failure ≠ .diagnostic d) := by
  unfold binaryNode Builder.binaryNode
  rcases cover_quiet left.node.span right.node.span cursor with
    ⟨span, run⟩ | ⟨failure, run, noDiagnostic⟩
  · rw [bind_apply_of_ok run]
    by_cases allowed : limits.allows (max left.height (max right.height 0) + 1) = true
    · exact .inl ⟨_, build_eq rfl allowed, span, rfl⟩
    · refine .inr ⟨.diagnostic ⟨.tooDeep, span⟩, ?_, by rintro _ ⟨⟩; rfl, ?_⟩
      · exact congrFun (if_neg allowed) cursor
      · rintro rfl
        exact absurd rfl allowed
  · rw [bind_apply_of_error run]
    exact .inr ⟨failure, rfl, fun d isDiagnostic => absurd isDiagnostic (noDiagnostic d),
      fun _ => noDiagnostic⟩

/-- All rules but those for equality and comparison are the same in both parsers. -/
theorem sim (limits : Limits) :
    Simulation anywhere limits Limits.unlimited fun _ _ R => Alongside anywhere cut Excused R :=
  alongside_simulation (fun _ _ => ⟨trivial, trivial⟩) (lenient_unlimited limits)

/-- A tree that one parser builds was built by the other one before. -/
theorem alongside_binaryNode_pure {op op' : Token} {left left' right right' whole' : Measured}
    (alike : anywhere.Tokens op op') (lefts : anywhere.Trees left left')
    (rights : anywhere.Trees right right') (isWhole : IsBinary op' left' right' whole') :
    Alongside anywhere cut Excused anywhere.Trees (binaryNode limits op left right)
      (pure whole') := by
  have result {whole : Measured} (isWhole' : IsBinary op left right whole) :
      anywhere.Trees whole whole' := by
    obtain ⟨span, rfl⟩ := isWhole
    obtain ⟨span', rfl⟩ := isWhole'
    refine ⟨?_, ?_, trivial, trivial⟩
    · simp only [Node.mapSpans, lefts.node, rights.node, alike.value_eq]
      rfl
    · simp only [lefts.height_eq, rights.height_eq]
  constructor
  · intro _ cursor
    rcases binaryNode_quiet limits op left right cursor with ⟨whole, run, isWhole'⟩ |
      ⟨failure, run, _⟩
    · rw [run]
      refine ⟨le_rfl, ?_⟩
      rintro _ ⟨⟩
      exact ⟨whole', result isWhole'⟩
    · rw [run]
      exact ⟨le_rfl, by rintro _ ⟨⟩⟩
  · intro first second abreast
    rcases binaryNode_quiet limits op left right first with ⟨whole, run, isWhole'⟩ |
      ⟨failure, run, isExcused, _⟩
    · rw [run]
      exact .answers (result isWhole') abreast
    · rw [run]
      exact .excused isExcused

section Levels

variable {operand operand' : Parse Measured} {ops : List TokenKind} {chain : Fault}
  (related : Alongside anywhere cut Excused anywhere.Trees operand operand')
  (isExcused : chain.isExpectation = false)
include related isExcused

/-- Behind one operator and its operands, one parser reports a second operator, and the other takes
it for one more link of the chain. -/
theorem alongside_second {op op' : Token} {left left' right right' whole' : Measured}
    (alike : anywhere.Tokens op op') (lefts : anywhere.Trees left left')
    (rights : anywhere.Trees right right') (isWhole : IsBinary op' left' right' whole') (n : Nat) :
    Alongside anywhere cut Excused anywhere.Trees
      (do
        if ops.contains (← current).kind then
          let _ ← advance
          let chained ← operand
          let span ← cover right.node.span chained.node.span
          report chain span
        else
          binaryNode limits op left right)
      (extendLeft Limits.unlimited operand' ops n whole') := by
  refine alongside_rounds (extendLeft Limits.unlimited operand' ops · whole') rfl (fun n => ?_) n
  unfold extendLeft Builder.extendLeft
  refine alongside_bind (sim limits).current fun token token' seen => ?_
  rw [← seen.kind_eq]
  split
  · refine alongside_bind (sim limits).advance fun _ _ _ => ?_
    refine alongside_bind related fun chained chained' _ => alongside_doomed fun cursor => ?_
    rcases cover_quiet right.node.span chained.node.span cursor with
      ⟨span, run⟩ | ⟨failure, run, noDiagnostic⟩
    · exact ⟨.diagnostic ⟨chain, span⟩, bind_apply_of_ok run, by rintro _ ⟨⟩; exact isExcused⟩
    · exact ⟨failure, bind_apply_of_error run,
        fun d isDiagnostic => absurd isDiagnostic (noDiagnostic d)⟩
  · exact alongside_binaryNode_pure alike lefts rights isWhole

/-- A level that takes one operator at most keeps abreast of one that takes any number of them. -/
theorem alongside_nonAssociative :
    Alongside anywhere cut Excused anywhere.Trees (nonAssociative limits operand ops chain)
      (leftAssociative Limits.unlimited operand' ops) := by
  unfold nonAssociative Builder.nonAssociative leftAssociative Builder.leftAssociative
  refine alongside_bind related fun left left' lefts => ?_
  refine alongside_budget_right fun n =>
    alongside_rounds (extendLeft Limits.unlimited operand' ops · left') rfl (fun n => ?_) n
  unfold extendLeft Builder.extendLeft
  refine alongside_bind (sim limits).current fun token token' seen => ?_
  rw [← seen.kind_eq]
  split
  · refine alongside_bind (sim limits).advance fun op op' alike => ?_
    refine alongside_bind related fun right right' rights => ?_
    refine alongside_skip (fun cursor => ?_) ⟨_, Span.origin, rfl⟩ fun whole' isWhole =>
      alongside_second related isExcused alike lefts rights isWhole n
    rcases binaryNode_quiet Limits.unlimited op' left' right' cursor with
      built | ⟨failure, run, _, noDiagnostic⟩
    · exact .inl built
    · exact .inr ⟨failure, run, noDiagnostic rfl⟩
  · exact alongside_pure lefts

end Levels

/-- Expressions are read side by side, whatever the depths are that are tried. -/
theorem alongside_expressionWithin (n n' : Nat) :
    Alongside anywhere cut Excused anywhere.Trees (expressionWithin limits n)
      (tolerantWithin Limits.unlimited n') :=
  (sim limits).turns rfl rfl (fun _ _ ih =>
    alongside_nonAssociative (alongside_nonAssociative ((sim limits).concatenation ih) rfl) rfl) n n'

/-- The statements of a program are read side by side, up to where the first parser fails. -/
theorem alongside_tolerant :
    Alongside anywhere cut Excused (List.Forall₂ anywhere.Trees) (allStatements limits)
      (tolerantStatements Limits.unlimited) :=
  alongside_budget fun n n' => alongside_budget fun m m' =>
    (sim limits).statements (alongside_expressionWithin n n') m m'

end Abreast

end Parse

end SinosLang
