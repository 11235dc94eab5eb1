import SinosLang.Proofs.Parse.Clocked
import SinosLang.Proofs.Parse.Supply

/-!
# Rules that last

Under a clock that gives every loop more rounds than there are tokens ahead, a rule does not run out
of rounds or depth, and when it answers, it has consumed a token.

Main statement: `Rule.body_yields`.
-/

set_option autoImplicit false

namespace SinosLang

open Cursor (Spends)

namespace Parse

variable {terms : Terms} {cursor : Cursor} {token : Token}

/-- A clock gives a loop more rounds than there are tokens ahead, as long as these are within the
terms. -/
def Provides (rounds : Cursor → Nat) (terms : Terms) : Prop :=
  terms.strict → ∀ cursor : Cursor, cursor.supply < terms.rounds → cursor.supply < rounds cursor

/-- What a clock provides does not depend on the depth. -/
theorem Provides.deeper {rounds : Cursor → Nat} (provides : Provides rounds terms) :
    Provides rounds terms.deeper :=
  provides

namespace Clocked

section Inside

variable {limits : Limits} {rounds : Cursor → Nat} (provides : Provides rounds terms)
include provides

/-- A loop with the rounds of the clock lasts. -/
theorem loop_yields {State Answer : Type} {round : State → Parse (Turn State Answer)}
    (yields : ∀ state, Yields terms (round state) Turn.least) (state : State) :
    Yields terms (allot rounds >>= fun count => cycle round count state) fun _ => 0 := by
  intro cursor supplied
  have ends := cycle_ends yields state supplied fun isStrict =>
    provides isStrict cursor (supplied.few isStrict)
  exact ends

/-- A level with any number of operators consumes a token if its operands do. -/
theorem leftAssociative_yields {operand : Parse Measured} {ops : List TokenKind}
    (yields : Yields terms operand fun _ => 1) :
    Yields terms ((Builder.clocked limits rounds).leftAssociative operand ops) fun _ => 1 := by
  unfold Builder.leftAssociative
  simp only [clocked_extendLeft, extendLeft_eq_cycle]
  refine .bind yields fun first => ?_
  exact loop_yields provides (operatorRound_yields yields) first

omit provides in
/-- A level with at most one operator consumes a token if its operands do. -/
theorem nonAssociative_yields {operand : Parse Measured} {ops : List TokenKind} {chain : Fault}
    (yields : Yields terms operand fun _ => 1) :
    Yields terms ((Builder.clocked limits rounds).nonAssociative operand ops chain) fun _ => 1 := by
  unfold Builder.nonAssociative
  refine .bind yields fun left => .bind current_yields fun token => ?_
  split
  · refine .bind advance_yields fun op => .bind yields fun right => ?_
    refine .bind current_yields fun next => ?_
    split
    · refine .bind advance_yields fun second => .bind yields fun chained => ?_
      exact .bind (cover_yields _ _) fun span => report_yields
    · exact binaryNode_yields _ _ _ _
  · exact .pure rfl

omit provides in
/-- Building the nodes of prefix operators runs out of nothing. -/
theorem applyPrefixes_yields (operand : Measured) (ops : List Token) :
    Yields terms (applyPrefixes limits operand ops) fun _ => 0 := by
  induction ops with
  | nil => exact .pure rfl
  | cons op ops ih =>
    unfold applyPrefixes Builder.applyPrefixes
    refine .bind ih fun inner => ?_
    exact .bind (cover_yields _ _) fun span => build_yields _ _ _

/-- Unary expressions consume a token if primary ones do. -/
theorem unary_yields {inner : Parse Measured}
    (yields : Yields terms ((Builder.clocked limits rounds).primary inner) fun _ => 1) :
    Yields terms ((Builder.clocked limits rounds).unary inner) fun _ => 1 := by
  unfold Builder.unary
  simp only [clocked_applyPrefixes, prefixRun_eq_cycle]
  rw [← bind_assoc]
  refine .bind (loop_yields provides (fun _ => prefixRound_yields) ()) fun ops => ?_
  exact .bind yields fun operand => applyPrefixes_yields _ _

/-! ### Brackets -/

omit provides in
/-- A bracket that is opened has found room. -/
theorem openBracket_ends_room (bracket : Token) :
    Ends (openBracket terms.limits bracket) cursor
      (fun _ after => terms.limits.isFull cursor.nesting = false ∧
        after = cursor.withNesting (cursor.nesting + 1))
      (Lasting terms) := by
  cases room : terms.limits.isFull cursor.nesting with
  | false => exact .of_ok (openBracket_of_not_full room) ⟨rfl, rfl⟩
  | true =>
    unfold Ends openBracket
    rw [if_pos room]
    exact fun _ => by rintro ⟨⟩

omit provides in
/-- The end of a bracket leaves the brackets around it open. -/
theorem closing_ends {least : Nat} {kind : TokenKind} {fault : Fault} {opening : Token}
    {node : Span → Node} {parts : List Measured} {inside : Cursor} (notEnd : kind ≠ .eof)
    (supplied : cursor.Supplied terms.deeper) (within : inside.Supplied terms)
    (consumed : Spends least (cursor.withNesting (cursor.nesting + 1)) inside) :
    Ends
      (do
        let closing ← expect kind fault
        closeBracket
        let span ← cover opening.span closing.span
        build terms.limits (node span) parts)
      inside (fun _ after => Spends least cursor after) (Lasting terms) := by
  refine .bind (expect_yields notEnd within) fun closing last closed => ?_
  have enclosed : Spends least cursor (last.withNesting (last.nesting - 1)) :=
    (consumed.trans closed).enclosed.mono (Nat.le_add_right _ _)
  refine .bind (.of_ok rfl rfl : Ends closeBracket last
    (fun _ after => after = last.withNesting (last.nesting - 1)) _) ?_
  rintro _ _ rfl
  have built : Yields terms.deeper
      (cover opening.span closing.span >>= fun span => build terms.limits (node span) parts)
      fun _ => 0 :=
    .bind (cover_yields _ _) fun span => build_yields _ _ _
  exact (built (supplied.of_consumed enclosed)).mono fun _ _ later => enclosed.trans later

variable {inner : Parse Measured} (yields : Yields terms inner fun _ => 1)
include yields

/-- Blocks consume a token, with one more depth than the expressions in them. -/
theorem block_yields :
    Yields terms.deeper ((Builder.clocked terms.limits rounds).block inner) fun _ => 1 := by
  intro cursor supplied
  unfold Builder.block
  simp only [clocked_blockItems, blockItems_eq_cycle]
  refine .bind (expect_yields (by decide) supplied) fun opening first opened => ?_
  refine .bind (openBracket_ends_room opening) ?_
  rintro _ _ ⟨room, rfl⟩
  -- the brace was consumed before it counts as open, with as many brackets open as at the start
  rw [opened.nesting_eq] at room ⊢
  have consumed := opened.withNesting (cursor.nesting + 1)
  have inside := supplied.enter room consumed
  rw [← bind_assoc]
  refine .bind (loop_yields provides (fun _ => itemRound_yields yields) () inside)
    fun items last items_consumed => ?_
  exact closing_ends (by decide) supplied (inside.of_consumed items_consumed)
    (consumed.trans items_consumed)

omit provides in
/-- Groups consume a token, with one more depth than the expressions in them. -/
theorem group_ends (supplied : cursor.Supplied terms.deeper) (full : cursor.lookahead = some token)
    (isOpening : token.kind = .lparen) :
    Ends ((Builder.clocked terms.limits rounds).group inner token) cursor
      (fun _ after => Spends 1 cursor after) (Lasting terms) := by
  have notEnd : token.kind ≠ .eof := by
    rw [isOpening]
    decide
  unfold Builder.group
  refine .bind (openBracket_ends_room token) ?_
  rintro _ _ ⟨room, rfl⟩
  refine .bind (@advance_ends_full terms.deeper _ _ (supplied.opened room) full notEnd) ?_
  rintro opening first ⟨rfl, consumed⟩
  have inside := supplied.enter room consumed
  refine .bind (yields inside) fun value last more => ?_
  exact (closing_ends (by decide) supplied (inside.of_consumed more)
    (consumed.trans more)).mono fun _ _ kept => kept.mono (Nat.le_add_right _ _)

/-- Primary expressions consume a token, with one more depth than those in brackets. -/
theorem primary_yields :
    Yields terms.deeper ((Builder.clocked terms.limits rounds).primary inner) fun _ => 1 := by
  unfold Builder.primary
  apply current_bind_yields
  intro token middle supplied full
  split
  next node found =>
    obtain ⟨_, notEnd⟩ := leafNode?_span found
    refine .bind (advance_ends_full supplied full notEnd) ?_
    rintro taken after ⟨rfl, consumed⟩
    exact .pure consumed
  next =>
    split
    next => exact block_yields provides yields supplied
    next =>
      split
      next isOpening => exact group_ends yields supplied full isOpening
      next => exact report_yields supplied

/-- Products consume a token, with one more depth than the expressions in brackets. -/
theorem product_yields :
    Yields terms.deeper ((Builder.clocked terms.limits rounds).product inner) fun _ => 1 :=
  leftAssociative_yields provides.deeper
    (unary_yields provides.deeper (primary_yields provides yields))

/-- Concatenations consume a token, with one more depth than the expressions in brackets. -/
theorem concatenation_yields :
    Yields terms.deeper ((Builder.clocked terms.limits rounds).concatenation inner) fun _ => 1 :=
  leftAssociative_yields provides.deeper
    (leftAssociative_yields provides.deeper (product_yields provides yields))

/-- Expressions of the loosest level consume a token, with one more depth than those in brackets. -/
theorem equality_yields :
    Yields terms.deeper ((Builder.clocked terms.limits rounds).equality inner) fun _ => 1 :=
  nonAssociative_yields (nonAssociative_yields (concatenation_yields provides yields))

/-- A program runs out of nothing if the expressions in it do not. -/
theorem program_yields :
    Yields terms ((Builder.clocked terms.limits rounds).program inner) fun _ => 0 := by
  unfold Builder.program
  simp only [clocked_statements, statements_eq_cycle]
  rw [← bind_assoc]
  refine .bind (loop_yields provides (fun _ => statementRound_yields yields) ()) fun stmts => ?_
  refine .bind current_yields fun finish => .bind (cover_yields _ _) fun span => ?_
  exact build_yields _ _ _

end Inside

/-- Expressions of any depth consume a token, and last as long as the clock provides. -/
theorem expression_yields {limits : Limits} {strict : Prop} {most : Nat} {rounds : Cursor → Nat}
    (depth : Nat) (provides : Provides rounds ⟨limits, strict, most, depth⟩) :
    Yields ⟨limits, strict, most, depth⟩ ((Builder.clocked limits rounds).expressionWithin depth)
      fun _ => 1 := by
  induction depth with
  | zero =>
    intro cursor supplied
    refine .fail fun isStrict => ?_
    rcases supplied.shallow isStrict with few | ⟨_, _, le, lt⟩ <;> simp only at * <;> omega
  | succ depth ih =>
    exact @equality_yields ⟨limits, strict, most, depth⟩ rounds provides _ (ih provides)

end Clocked

/-- Every rule that answers has consumed a token, but for a program, which may be empty. -/
theorem Rule.body_yields {rounds : Cursor → Nat} {inner : Parse Measured}
    (provides : Provides rounds terms) (yields : Yields terms inner fun _ => 1) (rule : Rule) :
    Yields terms (rule.body (.clocked terms.limits rounds) inner)
      fun _ => if rule = .program then 0 else 1 := by
  cases rule with
  | program => exact Clocked.program_yields provides yields
  | statement => exact statement_yields yields
  | letStatement => exact letStatement_yields yields
  | block => exact (Clocked.block_yields provides yields).of_deeper
  | expression => exact yields
  | equality => exact (Clocked.equality_yields provides yields).of_deeper
  | comparison =>
    exact (Clocked.nonAssociative_yields (Clocked.concatenation_yields provides yields)).of_deeper
  | concatenation => exact (Clocked.concatenation_yields provides yields).of_deeper
  | sum =>
    exact (Clocked.leftAssociative_yields provides.deeper
      (Clocked.product_yields provides yields)).of_deeper
  | product => exact (Clocked.product_yields provides yields).of_deeper
  | unary =>
    exact (Clocked.unary_yields provides.deeper
      (Clocked.primary_yields provides yields)).of_deeper
  | primary => exact (Clocked.primary_yields provides yields).of_deeper

end Parse

end SinosLang
