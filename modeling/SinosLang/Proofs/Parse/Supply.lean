import SinosLang.Proofs.Parse.Rounds
import SinosLang.Proofs.Parse.Viable

/-!
# What is ahead and what is consumed of it

A loop lasts if it has more rounds than there are tokens ahead, for a round after which the loop goes
on has consumed a token. Expressions last if they have more depth than there are tokens ahead, or
than brackets that may still be opened, for every bracket consumes a token and takes up one of those.

Both are shown at once, by one statement for each action on what it consumes at least. Whether rounds
and depth last is asked only where the terms of the parse are strict.

Main statements: `cycle_ends` for loops, and `Cursor.Supplied.enter` for brackets.
-/

set_option autoImplicit false

namespace SinosLang

open Cursor (Moves)

namespace Cursor

/-- The number of tokens ahead, up to the end or to the first fault. -/
def supply (cursor : Cursor) : Nat :=
  (cursor.pending.takeWhile Except.isOk).length

/-- A run from one cursor to another spends so many tokens at least. -/
def Spends (least : Nat) (cursor after : Cursor) : Prop :=
  ∃ tokens, least ≤ tokens.length ∧ Moves cursor tokens after

variable {cursor middle after : Cursor} {least more : Nat}

/-- Consuming tokens leaves as many fewer ahead. -/
theorem Moves.supply_eq {tokens : List Token} (moves : Moves cursor tokens after) :
    cursor.supply = tokens.length + after.supply := by
  have areTokens : ∀ outcome ∈ (tokens.map .ok : List (Except Failure Token)),
      outcome.isOk = true := by
    simp [Except.isOk, Except.toBool]
  unfold supply
  rw [moves.pending_eq, List.takeWhile_append_of_pos areTokens, List.length_append, List.length_map]

namespace Spends

/-- Staying where it is, a cursor spends nothing. -/
theorem refl (consistent : cursor.Consistent) : Spends 0 cursor cursor :=
  ⟨[], Nat.le_refl _, Moves.refl consistent⟩

/-- Consuming a token spends one. -/
theorem token {token : Token} (moves : Moves cursor [token] after) : Spends 1 cursor after :=
  ⟨[token], Nat.le_refl _, moves⟩

/-- What two runs in a row spend adds up. -/
theorem trans (first : Spends least cursor middle) (second : Spends more middle after) :
    Spends (least + more) cursor after := by
  obtain ⟨tokens, le, moves⟩ := first
  obtain ⟨tokens', le', moves'⟩ := second
  refine ⟨tokens ++ tokens', ?_, moves.trans moves'⟩
  rw [List.length_append]
  exact Nat.add_le_add le le'

/-- What spends so many tokens at least spends fewer at least. -/
theorem mono (consumed : Spends least cursor after) (le : more ≤ least) :
    Spends more cursor after := by
  obtain ⟨tokens, enough, moves⟩ := consumed
  exact ⟨tokens, le.trans enough, moves⟩

/-- The number of open brackets has nothing to do with what is spent. -/
theorem withNesting (consumed : Spends least cursor after) (nesting : Int) :
    Spends least (cursor.withNesting nesting) (after.withNesting nesting) := by
  obtain ⟨tokens, enough, moves⟩ := consumed
  exact ⟨tokens, enough, moves.consistent.withNesting _, moves.pending_eq, rfl, moves.source_eq⟩

/-- What is spent inside a bracket is spent from outside once the bracket is closed. -/
theorem enclosed (consumed : Spends least (cursor.withNesting (cursor.nesting + 1)) after) :
    Spends least cursor (after.withNesting (after.nesting - 1)) := by
  obtain ⟨tokens, enough, moves⟩ := consumed
  exact ⟨tokens, enough, moves.enclosed⟩

/-- What only spends tokens leaves as many brackets open as before. -/
theorem nesting_eq (consumed : Spends least cursor after) : after.nesting = cursor.nesting := by
  obtain ⟨_, _, moves⟩ := consumed
  exact moves.nesting_eq

/-- What was spent and what is still ahead was ahead before. -/
theorem supply_le (consumed : Spends least cursor after) :
    least + after.supply ≤ cursor.supply := by
  obtain ⟨tokens, enough, moves⟩ := consumed
  rw [moves.supply_eq]
  exact Nat.add_le_add_right enough _

end Spends

end Cursor

open Cursor (Spends)

/-- So much depth is enough: it exceeds the number of tokens ahead, or that of the brackets that may
still be opened. -/
def Limits.Suffices (limits : Limits) (depth : Nat) (cursor : Cursor) : Prop :=
  cursor.supply < depth ∨
    ∃ most : Nat, limits.brackets = some most ∧ cursor.nesting ≤ most ∧
      (most : Int) < cursor.nesting + depth

/-- The terms of a parse: its limits, a number of rounds and a depth, and whether these have to
last. -/
structure Terms where
  limits : Limits
  strict : Prop
  rounds : Nat
  depth : Nat

/-- The same terms with more depth by one. -/
def Terms.deeper (terms : Terms) : Terms :=
  { terms with depth := terms.depth + 1 }

/-- What is ahead of a cursor is within the terms of the parse. -/
structure Cursor.Supplied (terms : Terms) (cursor : Cursor) : Prop where
  consistent : cursor.Consistent
  clean : terms.strict → .error .depthExhausted ∉ cursor.pending
  few : terms.strict → cursor.supply < terms.rounds
  shallow : terms.strict → terms.limits.Suffices terms.depth cursor

namespace Cursor.Supplied

variable {terms : Terms} {cursor after : Cursor} {least : Nat}

/-- What is ahead stays within the terms when tokens are spent. -/
theorem of_consumed (supplied : cursor.Supplied terms) (consumed : Spends least cursor after) :
    after.Supplied terms := by
  have fewer := consumed.supply_le
  have nesting_eq := consumed.nesting_eq
  obtain ⟨tokens, _, moves⟩ := consumed
  refine ⟨moves.consistent, fun isStrict isIn => ?_, fun isStrict => ?_, fun isStrict => ?_⟩
  · apply supplied.clean isStrict
    rw [moves.pending_eq]
    exact List.mem_append_right _ isIn
  · have := supplied.few isStrict
    omega
  · refine (supplied.shallow isStrict).imp (fun few => by omega) ?_
    rw [nesting_eq]
    exact id

/-- What is ahead within a depth is so within one more. -/
theorem deeper (supplied : cursor.Supplied terms) : cursor.Supplied terms.deeper where
  consistent := supplied.consistent
  clean := supplied.clean
  few := supplied.few
  shallow isStrict := by
    rcases supplied.shallow isStrict with few | ⟨most, isMost, le, lt⟩
    · exact .inl (Nat.lt_succ_of_lt few)
    · refine .inr ⟨most, isMost, le, ?_⟩
      simp only [Terms.deeper]
      omega

/-- A bracket that finds room is below the limit. -/
theorem nesting_lt (room : terms.limits.isFull cursor.nesting = false) {most : Nat}
    (isMost : terms.limits.brackets = some most) : cursor.nesting < most := by
  unfold Limits.isFull at room
  rw [isMost] at room
  simpa using room

/-- Another bracket may be opened, for which there is depth. -/
theorem opened (supplied : cursor.Supplied terms.deeper)
    (room : terms.limits.isFull cursor.nesting = false) :
    (cursor.withNesting (cursor.nesting + 1)).Supplied terms.deeper where
  consistent := supplied.consistent.withNesting _
  clean := supplied.clean
  few := supplied.few
  shallow isStrict := by
    refine (supplied.shallow isStrict).imp_right ?_
    rintro ⟨most, isMost, le, lt⟩
    have := nesting_lt room isMost
    refine ⟨most, isMost, ?_⟩
    simp only [withNesting]
    omega

/-- Behind a bracket that was opened and consumed, the depth inside is enough. -/
theorem enter (supplied : cursor.Supplied terms.deeper)
    (room : terms.limits.isFull cursor.nesting = false)
    (consumed : Spends 1 (cursor.withNesting (cursor.nesting + 1)) after) :
    after.Supplied terms := by
  have inside := (supplied.opened room).of_consumed consumed
  refine ⟨inside.consistent, inside.clean, inside.few, fun isStrict => ?_⟩
  have fewer : 1 + after.supply ≤ cursor.supply := consumed.supply_le
  have nesting_eq : after.nesting = cursor.nesting + 1 := consumed.nesting_eq
  rcases supplied.shallow isStrict with few | ⟨most, isMost, le, lt⟩
  · left
    simp only [Terms.deeper] at few
    omega
  · have := nesting_lt room isMost
    refine .inr ⟨most, isMost, ?_⟩
    simp only [Terms.deeper] at lt
    omega

end Cursor.Supplied

namespace Parse

variable {α β : Type} {terms : Terms} {cursor after : Cursor} {token : Token}

/-- Where the terms are strict, rounds and depth last. -/
abbrev Lasting (terms : Terms) (failure : Failure) (_ : Cursor) : Prop :=
  terms.strict → failure ≠ .depthExhausted

/-- Within the terms of a parse, an action consumes so many tokens at least, which may depend on its
answer. -/
def Yields (terms : Terms) (action : Parse α) (least : α → Nat) : Prop :=
  ∀ ⦃cursor : Cursor⦄, cursor.Supplied terms →
    Ends action cursor (fun value after => Spends (least value) cursor after) (Lasting terms)

namespace Yields

variable {action : Parse α} {least : α → Nat}

/-- An answer runs out of nothing and consumes nothing. -/
theorem pure {value : α} (nothing : least value = 0) : Yields terms (Pure.pure value) least := by
  intro cursor supplied
  apply Ends.pure
  rw [nothing]
  exact .refl supplied.consistent

/-- A failure that is not for running out is admitted. -/
theorem fail {failure : Failure} (known : failure ≠ .depthExhausted) :
    Yields terms (Parse.fail failure) least :=
  fun _ _ => .fail fun _ => known

/-- What consumes so many tokens at least consumes fewer at least. -/
theorem less {least' : α → Nat} (yields : Yields terms action least)
    (le : ∀ value, least' value ≤ least value) : Yields terms action least' :=
  fun _ supplied => (yields supplied).mono fun value _ consumed => consumed.mono (le value)

/-- Whoever consumes a token consumes nothing at least. -/
theorem zero (yields : Yields terms action fun _ => 1) : Yields terms action fun _ => 0 :=
  yields.less fun _ => Nat.zero_le _

/-- What the first action has consumed, the second one need not. -/
theorem bind {least : β → Nat} {next : α → Parse β} {first : Nat}
    (yields : Yields terms action fun _ => first)
    (goesOn : ∀ value, Yields terms (next value) fun result => least result - first) :
    Yields terms (action >>= next) least := by
  intro cursor supplied
  refine .bind (yields supplied) fun value middle consumed => ?_
  refine (goesOn value (supplied.of_consumed consumed)).mono fun result after later => ?_
  have covers : least result ≤ first + (least result - first) := by omega
  exact (consumed.trans later).mono covers

/-- A change of the answer changes nothing in what is consumed. -/
theorem map {least : β → Nat} {f : α → β}
    (yields : Yields terms action fun value => least (f value)) :
    Yields terms (f <$> action) least :=
  fun _ supplied => .map (yields supplied)

/-- Inside a bracket less depth is enough. -/
theorem of_deeper (yields : Yields terms.deeper action least) : Yields terms action least :=
  fun _ supplied => yields supplied.deeper

end Yields

/-! ## The cursor -/

/-- A failure that is still to be read is not for running out. -/
theorem lasting_of_pending (supplied : cursor.Supplied terms) {failure : Failure}
    (isIn : .error failure ∈ cursor.pending) : Lasting terms failure after := by
  rintro isStrict rfl
  exact supplied.clean isStrict isIn

/-- A look at the token ahead consumes nothing. -/
theorem current_ends_full (supplied : cursor.Supplied terms) :
    Ends current cursor
      (fun token after => Spends 0 cursor after ∧ after.lookahead = some token)
      (Lasting terms) := by
  refine .of_runs (fun token after run => ?_) fun failure after run => ?_
  · obtain ⟨moves, full⟩ := current_ok supplied.consistent run
    exact ⟨⟨[], Nat.le_refl _, moves⟩, full⟩
  · exact lasting_of_pending supplied (current_error run)

/-- Consuming a token that is ahead spends one. -/
theorem advance_ends_full (supplied : cursor.Supplied terms) (full : cursor.lookahead = some token)
    (notEnd : token.kind ≠ .eof) :
    Ends advance cursor (fun taken after => taken = token ∧ Spends 1 cursor after)
      (Lasting terms) := by
  refine .of_runs (fun taken after run => ?_) fun failure after run => ?_
  · obtain rfl := advance_eq_lookahead full run
    exact ⟨rfl, .token (advance_ok supplied.consistent run notEnd).1⟩
  · exact lasting_of_pending supplied (advance_error supplied.consistent run)

/-- What is done about the token ahead is done where it is seen. -/
theorem current_bind_yields {least : α → Nat} {next : Token → Parse α}
    (goesOn : ∀ token (middle : Cursor), middle.Supplied terms → middle.lookahead = some token →
      Ends (next token) middle (fun value after => Spends (least value) middle after)
        (Lasting terms)) :
    Yields terms (current >>= next) least := by
  intro cursor supplied
  refine .bind (current_ends_full supplied) ?_
  rintro token middle ⟨consumed, full⟩
  refine (goesOn token middle (supplied.of_consumed consumed) full).mono fun value after later => ?_
  exact (consumed.trans later).mono (by omega)

/-- A look at the token ahead runs out of nothing. -/
theorem current_yields : Yields terms current fun _ => 0 :=
  fun _ supplied => (current_ends_full supplied).mono fun _ _ kept => kept.1

/-- Consuming a token runs out of nothing. -/
theorem advance_yields : Yields terms advance fun _ => 0 := by
  unfold advance
  apply current_bind_yields
  intro token middle supplied full
  split
  next => exact .pure (.refl supplied.consistent)
  next notEnd =>
    have ends : Ends advance middle (fun _ after => Spends 0 middle after) (Lasting terms) :=
      (advance_ends_full supplied full notEnd).mono fun _ _ kept => kept.2.mono (Nat.zero_le _)
    unfold Ends at ends ⊢
    rwa [advance_of_lookahead full notEnd] at ends

/-- A match consumes a token if it is found. -/
theorem accept_yields {kinds : List TokenKind} (noEnd : TokenKind.eof ∉ kinds) :
    Yields terms (accept kinds) fun taken? => if taken?.isSome then 1 else 0 := by
  unfold accept
  apply current_bind_yields
  intro token middle supplied full
  split
  next isOne =>
    have notEnd : token.kind ≠ .eof :=
      fun isEnd => noEnd (isEnd ▸ List.contains_iff_mem.mp isOne)
    refine .bind (advance_ends_full supplied full notEnd) ?_
    rintro taken after ⟨rfl, consumed⟩
    exact .pure consumed
  next => exact .pure (.refl supplied.consistent)

/-- A report is not for running out. -/
theorem report_yields {fault : Fault} {span : Span} {least : α → Nat} :
    Yields terms (report fault span) least :=
  .fail (by rintro ⟨⟩)

/-- An expectation consumes a token. -/
theorem expect_yields {kind : TokenKind} {fault : Fault} (notEnd : kind ≠ .eof) :
    Yields terms (expect kind fault) fun _ => 1 := by
  have noEnd : TokenKind.eof ∉ [kind] := fun isIn => notEnd (List.mem_singleton.mp isIn).symm
  intro cursor supplied
  unfold expect expectAny
  refine .bind (accept_yields noEnd supplied) fun taken? middle consumed => ?_
  cases taken? with
  | some taken => exact .pure consumed
  | none =>
    refine .bind (current_yields (supplied.of_consumed consumed)) fun token after later => ?_
    exact .fail fun _ => by rintro ⟨⟩

/-- Covering two spans runs out of nothing. -/
theorem cover_yields (first last : Span) : Yields terms (cover first last) fun _ => 0 := by
  intro cursor supplied
  unfold Ends cover
  cases cursor.source.cover first last with
  | ok span => exact .refl supplied.consistent
  | error failure => exact fun _ => by rintro ⟨⟩

/-- Building a node runs out of nothing. -/
theorem build_yields (limits : Limits) (node : Node) (parts : List Measured) :
    Yields terms (build limits node parts) fun _ => 0 := by
  unfold build
  dsimp only
  split
  · exact .pure rfl
  · exact report_yields

/-- Building the node of an operator runs out of nothing. -/
theorem binaryNode_yields (limits : Limits) (op : Token) (left right : Measured) :
    Yields terms (binaryNode limits op left right) fun _ => 0 := by
  unfold binaryNode Builder.binaryNode
  exact .bind (cover_yields _ _) fun span => build_yields _ _ _

/-- A type annotation runs out of nothing. -/
theorem typePart_yields : Yields terms typePart fun _ => 0 := by
  unfold typePart
  refine .bind ((accept_yields (by decide)).less fun _ => Nat.zero_le _) fun colon? => ?_
  cases colon? with
  | none => exact .pure rfl
  | some colon => exact .map (expect_yields (by decide)).zero

/-! ## Statements and loops -/

section Inside

variable {limits : Limits} {inner : Parse Measured} (yields : Yields terms inner fun _ => 1)

include yields in
/-- A binding consumes a token. -/
theorem letStatement_yields : Yields terms (letStatement limits inner) fun _ => 1 := by
  unfold letStatement Builder.letStatement
  refine .bind advance_yields fun keyword => ?_
  refine .bind (expect_yields (by decide)) fun name => ?_
  refine .bind typePart_yields fun type? => ?_
  refine .bind (expect_yields (by decide)) fun assign => ?_
  refine .bind yields fun value => ?_
  refine .bind (expect_yields (by decide)) fun semi => ?_
  exact .bind (cover_yields _ _) fun span => build_yields _ _ _

/-- The end of a statement runs out of nothing. -/
theorem statementEnd_yields (expr : Node) : Yields terms (statementEnd expr) fun _ => 0 := by
  unfold statementEnd
  split
  · refine .bind ((accept_yields (by decide)).less fun _ => Nat.zero_le _) fun semi? => ?_
    cases semi? <;> exact .pure rfl
  · exact .bind (expect_yields (by decide)) fun semi => .pure rfl

/-- Making an expression a statement runs out of nothing. -/
theorem expressionStatement_yields (expr : Measured) :
    Yields terms (expressionStatement limits expr) fun _ => 0 := by
  unfold expressionStatement Builder.expressionStatement
  refine .bind (statementEnd_yields _) fun stop => ?_
  exact .bind (cover_yields _ _) fun span => build_yields _ _ _

include yields in
/-- A statement consumes a token. -/
theorem statement_yields : Yields terms (statement limits inner) fun _ => 1 := by
  unfold statement Builder.statement
  refine .bind current_yields fun token => ?_
  split
  · exact letStatement_yields yields
  · exact .bind yields fun expr => expressionStatement_yields expr

/-- What a round consumes at least: a token if the loop goes on behind it. -/
def Turn.least {State Answer : Type} : Turn State Answer → Nat
  | .done _ => 0
  | .again _ _ => 1

include yields in
/-- A round over the operators of a level consumes a token if the loop goes on. -/
theorem operatorRound_yields {ops : List TokenKind} (left : Measured) :
    Yields terms (operatorRound limits inner ops left) Turn.least := by
  unfold operatorRound
  refine .bind current_yields fun token => ?_
  split
  · refine .bind advance_yields fun op => .bind yields fun right => ?_
    exact .bind (binaryNode_yields _ _ _ _) fun whole => .pure rfl
  · exact .pure rfl

/-- A round over prefix operators consumes a token if the loop goes on. -/
theorem prefixRound_yields : Yields terms (prefixRound ()) Turn.least := by
  unfold prefixRound
  apply current_bind_yields
  intro token middle supplied full
  split
  next isPrefix =>
    have notEnd : token.kind ≠ .eof := by
      intro isEnd
      rw [isEnd] at isPrefix
      revert isPrefix
      decide
    refine .bind (advance_ends_full supplied full notEnd) ?_
    rintro op after ⟨rfl, consumed⟩
    exact .pure consumed
  next => exact .pure (.refl supplied.consistent)

include yields in
/-- A round over what a block holds consumes a token if the loop goes on. -/
theorem itemRound_yields : Yields terms (itemRound limits inner ()) Turn.least := by
  unfold itemRound
  refine .bind current_yields fun token => ?_
  dsimp only
  split
  · exact .pure rfl
  · split
    · exact .bind (letStatement_yields yields) fun stmt => .pure rfl
    · refine .bind yields fun expr => .bind current_yields fun next => ?_
      split
      · exact .pure rfl
      · exact .bind (expressionStatement_yields _) fun stmt => .pure rfl

include yields in
/-- A round over the statements of a program consumes a token if the loop goes on. -/
theorem statementRound_yields : Yields terms (statementRound limits inner ()) Turn.least := by
  unfold statementRound
  refine .bind current_yields fun token => ?_
  split
  · exact .pure rfl
  · exact .bind (statement_yields yields) fun stmt => .pure rfl

/-- If every round that is followed by another one consumes a token, the loop lasts as long as there
are more rounds than tokens ahead. -/
theorem cycle_ends {State Answer : Type} {round : State → Parse (Turn State Answer)}
    (yields : ∀ state, Yields terms (round state) Turn.least) {rounds : Nat} (state : State)
    (supplied : cursor.Supplied terms) (enough : terms.strict → cursor.supply < rounds) :
    Ends (cycle round rounds state) cursor (fun _ after => Spends 0 cursor after)
      (Lasting terms) := by
  -- a round that goes on takes one of the rounds and at least one of the tokens
  induction rounds generalizing cursor state with
  | zero => exact .fail fun isStrict => absurd (enough isStrict) (Nat.not_lt_zero _)
  | succ rounds ih =>
    unfold cycle
    refine .bind (yields state supplied) fun turn middle consumed => ?_
    cases turn with
    | done answer => exact .pure consumed
    | again next complete =>
      have fewer : 1 + middle.supply ≤ cursor.supply := consumed.supply_le
      refine .map ((ih next (supplied.of_consumed consumed) fun isStrict => ?_).mono ?_)
      · have := enough isStrict
        omega
      · exact fun _ after later => (consumed.trans later).mono (Nat.zero_le _)

end Inside

end Parse

end SinosLang
