import SinosLang.Proofs.Parse.Recursion
import SinosLang.Proofs.Parse.Supply

/-!
# The recursion follows the clock

Where a rule under a clock comes to an outcome before its rounds and its depth run out, the
recursion settles at the same outcome. What is watched of it on the way is bounded: no more calls of
the rule for expressions are nested than the clock has depth for, and no more tokens are consumed
than were ahead.

Main statement: `Rule.follows`.
-/

set_option autoImplicit false

namespace SinosLang

/-! ## Tokens ahead -/

namespace Cursor

variable {cursor after : Cursor} {token : Token}

/-- The number of tokens ahead of what is read next. -/
def supplyBehind (cursor : Cursor) : Nat :=
  ((cursor.upcoming.map Reading.outcome).takeWhile Except.isOk).length

/-- With nothing ahead, all tokens are still to be read. -/
theorem supply_of_empty (empty : cursor.lookahead = none) :
    cursor.supply = cursor.supplyBehind := by
  unfold supply pending supplyBehind
  rw [empty]

/-- With a token ahead, that token and those behind it are to come, unless it is the end. -/
theorem supply_of_full (full : cursor.lookahead = some token) :
    cursor.supply = if token.kind = .eof then 0 else cursor.supplyBehind + 1 := by
  unfold supply pending supplyBehind
  rw [full]
  dsimp only
  split
  · rfl
  · rw [List.takeWhile_cons_of_pos rfl, List.length_cons]

/-- A token that is pulled is one of those that were still to be read. -/
theorem supply_pull_le (run : Parse.pull cursor = (.ok token, after)) :
    after.supply ≤ cursor.supplyBehind := by
  rw [supply_of_full (Parse.lookahead_of_pull run)]
  split
  next => exact Nat.zero_le _
  next notEnd =>
    unfold Parse.pull at run
    split at run
    next =>
      cases run
      exact absurd rfl notEnd
    next reading later more =>
      split at run <;> cases run
      next isToken =>
        unfold supplyBehind
        rw [more, List.map_cons, isToken, List.takeWhile_cons_of_pos rfl, List.length_cons]

end Cursor

/-! ## What a run may do to its probe -/

/-- A run that was stopped: it had so many calls of the rule for expressions at once at most, above
those that were active before, and has consumed tokens that were ahead. -/
structure Probe.Stops (depth : Nat) (probe after : Probe) : Prop where
  peak_le : after.peak ≤ max probe.peak (probe.active + depth)
  taken_le : after.taken ≤ probe.taken + probe.cursor.supply

/-- A run that has answered: all calls it has made have returned, and what it has consumed is no
longer ahead. -/
structure Probe.Returns (depth : Nat) (probe after : Probe) : Prop where
  peak_le : after.peak ≤ max probe.peak (probe.active + depth)
  active_eq : after.active = probe.active
  taken_le : after.taken + after.cursor.supply ≤ probe.taken + probe.cursor.supply

namespace Probe

variable {depth : Nat} {probe middle after : Probe}

/-- Two answering runs in a row are one. -/
theorem Returns.trans (first : probe.Returns depth middle) (second : middle.Returns depth after) :
    probe.Returns depth after where
  peak_le := by
    have := first.peak_le
    have := second.peak_le
    rw [first.active_eq] at this
    omega
  active_eq := second.active_eq.trans first.active_eq
  taken_le := second.taken_le.trans first.taken_le

/-- A stopped run behind an answering one is a stopped run. -/
theorem Returns.stops (first : probe.Returns depth middle) (second : middle.Stops depth after) :
    probe.Stops depth after where
  peak_le := by
    have := first.peak_le
    have := second.peak_le
    rw [first.active_eq] at this
    omega
  taken_le := second.taken_le.trans first.taken_le

/-- Nothing is watched but where the cursor comes to. -/
theorem returns_of_supply_le {cursor : Cursor} (le : cursor.supply ≤ probe.cursor.supply) :
    probe.Returns depth { probe with cursor := cursor } :=
  ⟨Nat.le_max_left _ _, rfl, Nat.add_le_add_left le _⟩

/-- A run that has taken no token and called no rule may stop at any cursor. -/
theorem stops_at (cursor : Cursor) : probe.Stops depth { probe with cursor := cursor } :=
  ⟨Nat.le_max_left _ _, Nat.le_add_right _ _⟩

end Probe

/-! ## Runs that follow an action -/

section Settling

variable {α β : Type} {runs : Nat → Watched α} {probe middle : Probe}

/-- Runs in a row settle if the first does with an answer and the second does from there. -/
theorem Settles.bind_ok {next : Nat → α → Watched β} {value : α}
    {outcome : Except Failure β × Probe} (first : Settles runs probe (.ok value, middle))
    (second : Settles (fun count => next count value) middle outcome) :
    Settles (fun count => runs count >>= next count) probe outcome := by
  obtain ⟨enough, agree⟩ := first
  obtain ⟨enough', agree'⟩ := second
  refine ⟨max enough enough', fun count le => ?_⟩
  have ran := agree count ((Nat.le_max_left _ _).trans le)
  have later := agree' count ((Nat.le_max_right _ _).trans le)
  show (runs count probe).bind _ = _
  rw [ran]
  exact later

/-- Runs in a row settle with the failure that the first of them settles with. -/
theorem Settles.bind_error {next : Nat → α → Watched β} {failure : Failure}
    (first : Settles runs probe (.error failure, middle)) :
    Settles (fun count => runs count >>= next count) probe (.error failure, middle) := by
  obtain ⟨enough, agree⟩ := first
  refine ⟨enough, fun count le => ?_⟩
  show (runs count probe).bind _ = _
  rw [agree count le]
  rfl

end Settling

/-- Runs that settle at the outcome of an action, from any probe with its cursor, as long as the
action does not run out of rounds or depth. -/
structure Follows {α : Type} (depth : Nat) (action : Parse α) (runs : Nat → Watched α) : Prop where
  ok : ∀ (probe : Probe) (value : α) (final : Cursor),
    action probe.cursor = (.ok value, final) →
    ∃ after, Settles runs probe (.ok value, after) ∧ after.cursor = final ∧
      probe.Returns depth after
  error : ∀ (probe : Probe) (failure : Failure) (final : Cursor),
    action probe.cursor = (.error failure, final) → failure ≠ .depthExhausted →
    ∃ after, Settles runs probe (.error failure, after) ∧ after.cursor = final ∧
      probe.Stops depth after

namespace Follows

open Watched (watch take called)

variable {α β : Type} {depth : Nat} {action : Parse α} {runs : Nat → Watched α}

/-- Runs in a row follow actions in a row. -/
theorem bind {next : α → Parse β} {later : Nat → α → Watched β} (first : Follows depth action runs)
    (second : ∀ value, Follows depth (next value) fun count => later count value) :
    Follows depth (action >>= next) fun count => runs count >>= later count where
  ok probe result final run := by
    obtain ⟨value, between, ran, run⟩ := Parse.bind_eq_ok.mp run
    obtain ⟨middle, settles, rfl, returns⟩ := first.ok probe value between ran
    obtain ⟨after, settles', rfl, returns'⟩ := (second value).ok middle result final run
    exact ⟨after, settles.bind_ok settles', rfl, returns.trans returns'⟩
  error probe failure final run known := by
    match ran : action probe.cursor with
    | (.ok value, between) =>
      rw [Parse.bind_apply_of_ok ran] at run
      obtain ⟨middle, settles, rfl, returns⟩ := first.ok probe value between ran
      obtain ⟨after, settles', rfl, stops⟩ := (second value).error middle failure final run known
      exact ⟨after, settles.bind_ok settles', rfl, returns.stops stops⟩
    | (.error failure', between) =>
      rw [Parse.bind_apply_of_error ran] at run
      cases run
      obtain ⟨after, settles, rfl, stops⟩ := first.error probe failure _ ran known
      exact ⟨after, settles.bind_error, rfl, stops⟩

/-- An answer is followed. -/
theorem pure (value : α) : Follows depth (Pure.pure value) fun _ => Pure.pure value where
  ok probe _ _ run := by
    cases run
    exact ⟨probe, ⟨0, fun _ _ => rfl⟩, rfl, Probe.returns_of_supply_le (Nat.le_refl _)⟩
  error _ _ _ run _ := by cases run

/-- What follows an action follows it through a change of its answer. -/
theorem map (f : α → β) (first : Follows depth action runs) :
    Follows depth (f <$> action) fun count => f <$> runs count :=
  first.bind fun value => pure (f value)

/-- What comes behind a step may take one call more. -/
theorem succ {steps : Nat → Watched α} (unfolds : ∀ count, runs (count + 1) = steps count)
    (follows : Follows depth action steps) : Follows depth action runs := by
  have shift {probe : Probe} {outcome : Except Failure α × Probe}
      (settles : Settles steps probe outcome) : Settles runs probe outcome := by
    obtain ⟨enough, agree⟩ := settles
    refine ⟨enough + 1, fun count le => ?_⟩
    obtain ⟨count, rfl⟩ := Nat.exists_eq_add_of_le' le
    rw [← Nat.add_assoc, unfolds]
    exact agree _ (Nat.le_add_left _ _)
  constructor
  · intro probe value final run
    obtain ⟨after, settles, rest⟩ := follows.ok probe value final run
    exact ⟨after, shift settles, rest⟩
  · intro probe failure final run known
    obtain ⟨after, settles, rest⟩ := follows.error probe failure final run known
    exact ⟨after, shift settles, rest⟩

/-- A choice between runs follows the choice between the actions. -/
theorem ite {condition : Prop} [Decidable condition] {other : Parse α} {others : Nat → Watched α}
    (isTrue : condition → Follows depth action runs)
    (isFalse : ¬condition → Follows depth other others) :
    Follows depth (if condition then action else other)
      fun count => if condition then runs count else others count := by
  by_cases holds : condition
  · simp only [if_pos holds]
    exact isTrue holds
  · simp only [if_neg holds]
    exact isFalse holds

/-- Nothing is claimed of an action that runs out. -/
theorem exhausted : Follows depth (Parse.fail .depthExhausted) runs where
  ok _ _ _ run := by cases run
  error _ _ _ run known := by
    cases run
    exact absurd rfl known

/-- An action that puts no token back is followed by itself. -/
theorem watch (keeps : ∀ cursor value after, action cursor = (.ok value, after) →
      after.supply ≤ cursor.supply) :
    Follows depth action fun _ => Watched.watch action where
  ok probe value final run := by
    refine ⟨{ probe with cursor := final }, ⟨0, fun _ _ => ?_⟩, rfl,
      Probe.returns_of_supply_le (keeps _ _ _ run)⟩
    show Watched.watch action probe = _
    rw [Watched.watch_eq run]
  error probe failure final run _ := by
    refine ⟨{ probe with cursor := final }, ⟨0, fun _ _ => ?_⟩, rfl, Probe.stops_at _⟩
    show Watched.watch action probe = _
    rw [Watched.watch_eq run]

end Follows

/-! ## The cursor -/

namespace Parse

variable {α β : Type} {cursor after : Cursor} {token : Token}

/-- An action that puts no token back. -/
def AddsNone (action : Parse α) : Prop :=
  ∀ (cursor : Cursor) (value : α) (after : Cursor), action cursor = (.ok value, after) →
    after.supply ≤ cursor.supply

/-- Actions in a row put no token back if neither does. -/
theorem AddsNone.bind {action : Parse α} {next : α → Parse β} (first : AddsNone action)
    (second : ∀ value, AddsNone (next value)) : AddsNone (action >>= next) := by
  intro cursor result after run
  obtain ⟨value, middle, ran, run⟩ := bind_eq_ok.mp run
  exact (second value _ _ _ run).trans (first _ _ _ ran)

/-- A look at the token ahead puts no token back. -/
theorem addsNone_current : AddsNone current := by
  intro cursor token after run
  unfold current at run
  split at run
  next =>
    cases run
    exact Nat.le_refl _
  next empty =>
    rw [Cursor.supply_of_empty empty]
    exact Cursor.supply_pull_le run

/-- A failure puts no token back. -/
theorem addsNone_fail (failure : Failure) : AddsNone (fail failure : Parse α) := by
  intro cursor value after run
  cases run

/-- Covering two spans puts no token back. -/
theorem addsNone_cover (first last : Span) : AddsNone (cover first last) := by
  intro cursor span after run
  obtain ⟨rfl, _⟩ := cover_ok run
  exact Nat.le_refl _

/-- Building a node puts no token back. -/
theorem addsNone_build (limits : Limits) (node : Node) (parts : List Measured) :
    AddsNone (build limits node parts) := by
  intro cursor result after run
  obtain ⟨rfl, _⟩ := build_ok run
  exact Nat.le_refl _

/-- Opening a bracket puts no token back. -/
theorem addsNone_openBracket (limits : Limits) (bracket : Token) :
    AddsNone (openBracket limits bracket) := by
  intro cursor _ after run
  unfold openBracket at run
  split at run <;> cases run
  exact Nat.le_refl _

/-- Closing a bracket puts no token back. -/
theorem addsNone_closeBracket : AddsNone closeBracket := by
  intro cursor _ after run
  cases run
  exact Nat.le_refl _

/-- Building the node of an operator puts no token back. -/
theorem addsNone_binaryNode (limits : Limits) (op : Token) (left right : Measured) :
    AddsNone (binaryNode limits op left right) :=
  (addsNone_cover _ _).bind fun _ => addsNone_build _ _ _

/-- Building the nodes of prefix operators puts no token back. -/
theorem addsNone_applyPrefixes (limits : Limits) (operand : Measured) (ops : List Token) :
    AddsNone (applyPrefixes limits operand ops) := by
  induction ops with
  | nil =>
    intro cursor result after run
    cases run
    exact Nat.le_refl _
  | cons op ops ih =>
    exact ih.bind fun inner => (addsNone_cover _ _).bind fun span => addsNone_build _ _ _

/-- A token that is consumed is ahead no longer. -/
theorem supply_advance_le (run : advance cursor = (.ok token, after)) :
    (if token.kind = .eof then 0 else 1) + after.supply ≤ cursor.supply := by
  unfold advance at run
  obtain ⟨held, middle, looked, run⟩ := bind_eq_ok.mp run
  have kept := addsNone_current _ _ _ looked
  have full := (current_fills looked).1
  split at run
  next isEnd =>
    cases run
    rw [if_pos isEnd, Nat.zero_add]
    exact kept
  next notEnd =>
    obtain ⟨next, final, pulled, run⟩ := bind_eq_ok.mp run
    cases run
    have behind := Cursor.supply_pull_le pulled
    rw [Cursor.supply_of_full full, if_neg notEnd] at kept
    rw [if_neg notEnd]
    omega

end Parse

namespace Follows

open Watched (watch take called)
open Parse (Rule addsNone_current addsNone_fail addsNone_cover addsNone_build)

variable {depth : Nat}

/-- Taking a token follows consuming it. -/
theorem take : Follows depth Parse.advance fun _ => Watched.take where
  ok probe token final run := by
    have consumed := Parse.supply_advance_le run
    refine ⟨⟨final, probe.active, probe.peak, probe.taken + if token.kind = .eof then 0 else 1⟩,
      ⟨0, fun _ _ => ?_⟩, rfl, Nat.le_max_left _ _, rfl, ?_⟩
    · show Watched.take probe = _
      rw [Watched.take_of_ok run]
    · dsimp only
      omega
  error probe failure final run _ := by
    refine ⟨{ probe with cursor := final }, ⟨0, fun _ _ => ?_⟩, rfl, Probe.stops_at _⟩
    show Watched.take probe = _
    rw [Watched.take_of_error run]

/-- A watched match follows a match. -/
theorem accept (kinds : List TokenKind) :
    Follows depth (Parse.accept kinds) fun _ => Watched.accept kinds := by
  refine .bind (.watch addsNone_current) fun token => .ite (fun _ => ?_) fun _ => .pure none
  exact .bind .take fun taken => .pure (some taken)

/-- A watched expectation follows an expectation. -/
theorem expect (kind : TokenKind) (fault : Fault) :
    Follows depth (Parse.expect kind fault) fun _ => Watched.expect kind fault := by
  refine .bind (.accept [kind]) fun taken? => ?_
  cases taken? with
  | some token => exact .pure token
  | none => exact .bind (.watch addsNone_current) fun token => .watch (addsNone_fail _)

/-- The watched type annotation follows the type annotation. -/
theorem typePart : Follows depth Parse.typePart fun _ => Watched.typePart := by
  refine .bind (.accept [.colon]) fun colon? => ?_
  cases colon? with
  | some _ => exact .map some (.expect .ident .expectName)
  | none => exact .pure none

/-- The watched end of a statement follows the end of the statement. -/
theorem statementEnd (expr : Node) :
    Follows depth (Parse.statementEnd expr) fun _ => Watched.statementEnd expr := by
  refine .ite (fun _ => .bind (.accept [.semi]) fun semi? => ?_) fun _ => ?_
  · cases semi? with
    | some semi => exact .pure semi.span
    | none => exact .pure expr.span
  · exact .bind (.expect .semi .expectSemi) fun semi => .pure semi.span

/-- The watched expression statement follows the expression statement. -/
theorem expressionStatement (limits : Limits) (expr : Measured) :
    Follows depth (Parse.expressionStatement limits expr)
      fun _ => Watched.expressionStatement limits expr := by
  refine .bind (.statementEnd expr.node) fun stop => ?_
  exact .bind (.watch (addsNone_cover _ _)) fun span => .watch (addsNone_build _ _ _)

/-- A watched level with at most one operator follows the level if its operands are followed. -/
theorem nonAssociative (limits : Limits) {operand : Parse Measured}
    {operands : Nat → Watched Measured} (follows : Follows depth operand operands)
    (ops : List TokenKind) (chain : Fault) :
    Follows depth (Parse.nonAssociative limits operand ops chain)
      fun count => Watched.nonAssociative limits (operands count) ops chain := by
  refine .bind follows fun left => .bind (.watch addsNone_current) fun token => ?_
  refine .ite (fun _ => ?_) fun _ => .pure left
  refine .bind .take fun op => .bind follows fun right => ?_
  refine .bind (.watch addsNone_current) fun next => .ite (fun _ => ?_) fun _ => ?_
  · refine .bind .take fun second => .bind follows fun chained => ?_
    exact .bind (.watch (addsNone_cover _ _)) fun span => .watch (addsNone_fail _)
  · exact .watch (Parse.addsNone_binaryNode _ _ _ _)

/-- A call of the rule for expressions is one more of those that are active, until it returns. One
that fails does not. -/
theorem called {action : Parse Measured} {runs : Nat → Watched Measured}
    (follows : Follows depth action runs) :
    Follows (depth + 1) action fun count => Watched.called (runs count) where
  ok probe result final run := by
    let entered : Probe :=
      { probe with active := probe.active + 1, peak := max probe.peak (probe.active + 1) }
    obtain ⟨after, ⟨enough, agree⟩, rfl, returns⟩ := follows.ok entered result final run
    have active_eq : after.active = probe.active + 1 := returns.active_eq
    have peak_le : after.peak ≤
        max (max probe.peak (probe.active + 1)) (probe.active + 1 + depth) := returns.peak_le
    refine ⟨{ after with active := after.active - 1 }, ⟨enough, fun count le => ?_⟩, rfl, ?_, ?_,
      returns.taken_le⟩
    · show (runs count entered).bind _ = _
      rw [agree count le]
      rfl
    · show after.peak ≤ _
      omega
    · show after.active - 1 = _
      omega
  error probe failure final run known := by
    let entered : Probe :=
      { probe with active := probe.active + 1, peak := max probe.peak (probe.active + 1) }
    obtain ⟨after, ⟨enough, agree⟩, rfl, stops⟩ := follows.error entered failure final run known
    have peak_le : after.peak ≤
        max (max probe.peak (probe.active + 1)) (probe.active + 1 + depth) := stops.peak_le
    refine ⟨after, ⟨enough, fun count le => ?_⟩, rfl, ?_, stops.taken_le⟩
    · show (runs count entered).bind _ = _
      rw [agree count le]
      rfl
    · omega

/-! ## Loops and rules -/

open Calls (within)

section Inside

variable {limits : Limits} {rounds : Cursor → Nat} {inner : Parse Measured}

/-- An action that is followed with any number of rounds is followed with those that it is given. -/
theorem allot {α : Type} {next : Nat → Parse α} {runs : Nat → Watched α}
    (follows : ∀ count, Follows depth (next count) runs) :
    Follows depth (Parse.allot rounds >>= next) runs where
  ok probe value final run := (follows (rounds probe.cursor)).ok probe value final run
  error probe failure final run := (follows (rounds probe.cursor)).error probe failure final run

/-- Each round of a loop is a call of the loop. -/
theorem operators {operand : Parse Measured} {rule : Rule}
    (follows : Follows depth operand fun count => (within limits count).rule rule)
    (ops : List TokenKind) (fuel : Nat) (left : Measured) :
    Follows depth (Parse.extendLeft limits operand ops fuel left)
      fun count => (within limits count).operators rule ops left := by
  induction fuel generalizing left with
  | zero => exact .exhausted
  | succ fuel ih =>
    refine .succ (fun _ => rfl) (.bind (.watch addsNone_current) fun token => ?_)
    refine .ite (fun _ => ?_) fun _ => .pure left
    refine .bind .take fun op => .bind follows fun right => ?_
    exact .bind (.watch (Parse.addsNone_binaryNode _ _ _ _)) fun whole => ih whole

/-- The watched run of prefix operators follows the one with any number of rounds. -/
theorem prefixes (fuel : Nat) :
    Follows depth (Parse.prefixRun fuel) fun count => (within limits count).prefixes := by
  induction fuel with
  | zero => exact .exhausted
  | succ fuel ih =>
    refine .succ (fun _ => rfl) (.bind (.watch addsNone_current) fun token => ?_)
    refine .ite (fun _ => ?_) fun _ => .pure []
    exact .bind .take fun op => .bind ih fun ops => .pure (op :: ops)

/-- A level that groups to the left is a first operand and the loop behind it. -/
theorem leftAssociative {operand : Parse Measured} {tighter : Rule} {ops : List TokenKind}
    (follows : Follows depth operand fun count => (within limits count).rule tighter) :
    Follows depth ((Builder.clocked limits rounds).leftAssociative operand ops)
      fun count => (within limits count).rule tighter >>=
        (within limits count).operators tighter ops := by
  refine .bind follows fun first => .allot fun fuel => ?_
  rw [Parse.clocked_extendLeft]
  exact operators follows ops fuel first

variable (follows : Follows depth inner fun count => (within limits count).rule .expression)
include follows

/-- The watched binding follows the binding. -/
theorem letStatement :
    Follows depth (Parse.letStatement limits inner)
      fun count => (within limits count).rule .letStatement := by
  refine .succ (fun _ => rfl) (.bind .take fun keyword => ?_)
  refine .bind (.expect .ident .expectName) fun binding => .bind .typePart fun type? => ?_
  refine .bind (.expect .assign .expectEqual) fun _ => .bind follows fun value => ?_
  refine .bind (.expect .semi .expectSemi) fun semi => ?_
  exact .bind (.watch (addsNone_cover _ _)) fun span => .watch (addsNone_build _ _ _)

/-- The watched statement follows the statement. -/
theorem statement :
    Follows depth (Parse.statement limits inner)
      fun count => (within limits count).rule .statement := by
  refine .succ (fun _ => rfl) (.bind (.watch addsNone_current) fun token => ?_)
  refine .ite (fun _ => letStatement follows) fun _ => ?_
  exact .bind follows fun expr => .expressionStatement limits expr

/-- What a watched block holds follows what a block holds, with any number of rounds. -/
theorem items (fuel : Nat) :
    Follows depth (Parse.blockItems limits inner fuel)
      fun count => (within limits count).items := by
  induction fuel with
  | zero => exact .exhausted
  | succ fuel ih =>
    have goOn (stmt : Measured) :
        Follows depth
          (Parse.blockItems limits inner fuel >>= fun found => Pure.pure (stmt :: found.1, found.2))
          fun count => (within limits count).items >>= fun found =>
            Pure.pure (stmt :: found.1, found.2) :=
      .bind ih fun found => .pure _
    refine .succ (fun _ => rfl) (.bind (.watch addsNone_current) fun token => ?_)
    refine .ite (fun _ => .pure _) fun _ => .ite (fun _ => ?_) fun _ => ?_
    · exact .bind (letStatement follows) goOn
    · refine .bind follows fun expr => .bind (.watch addsNone_current) fun next => ?_
      refine .ite (fun _ => .pure _) fun _ => ?_
      exact .bind (.expressionStatement limits expr) goOn

/-- Watched statements follow the statements up to the end, with any number of rounds. -/
theorem statements (fuel : Nat) :
    Follows depth (Parse.statements limits inner fuel)
      fun count => (within limits count).statements := by
  induction fuel with
  | zero => exact .exhausted
  | succ fuel ih =>
    refine .succ (fun _ => rfl) (.bind (.watch addsNone_current) fun token => ?_)
    refine .ite (fun _ => .pure []) fun _ => ?_
    exact .bind (statement follows) fun stmt => .bind ih fun stmts => .pure (stmt :: stmts)

/-- The watched block follows the block. -/
theorem block :
    Follows depth ((Builder.clocked limits rounds).block inner)
      fun count => (within limits count).rule .block := by
  refine .succ (fun _ => rfl) (.bind (.expect .lbrace .expectExpr) fun opening => ?_)
  refine .bind (.watch (Parse.addsNone_openBracket _ _)) fun _ => ?_
  refine .allot fun fuel => ?_
  rw [Parse.clocked_blockItems]
  refine .bind (items follows fuel) fun found => ?_
  refine .bind (.expect .rbrace .expectBraceClose) fun closing => ?_
  refine .bind (.watch Parse.addsNone_closeBracket) fun _ => ?_
  exact .bind (.watch (addsNone_cover _ _)) fun span => .watch (addsNone_build _ _ _)

/-- The watched primary expression follows the primary expression. -/
theorem primary :
    Follows depth ((Builder.clocked limits rounds).primary inner)
      fun count => (within limits count).rule .primary := by
  refine .succ (fun _ => rfl) (.bind (.watch addsNone_current) fun token => ?_)
  cases Parse.leafNode? token with
  | some node => exact .bind .take fun _ => .pure (Parse.leaf node)
  | none =>
    refine .ite (fun _ => block follows) fun _ => .ite (fun _ => ?_) fun _ => ?_
    · refine .bind (.watch (Parse.addsNone_openBracket _ _)) fun _ => .bind .take fun _ => ?_
      refine .bind follows fun value => ?_
      refine .bind (.expect .rparen .expectParenClose) fun closing => ?_
      refine .bind (.watch Parse.addsNone_closeBracket) fun _ => ?_
      exact .bind (.watch (addsNone_cover _ _)) fun span => .watch (addsNone_build _ _ _)
    · exact .watch (addsNone_fail _)

/-- The watched unary expression follows the unary expression. -/
theorem unary :
    Follows depth ((Builder.clocked limits rounds).unary inner)
      fun count => (within limits count).rule .unary := by
  refine .succ (fun _ => rfl) (.allot fun fuel => .bind (prefixes fuel) fun ops => ?_)
  refine .bind (primary follows) fun operand => ?_
  rw [Parse.clocked_applyPrefixes]
  exact .watch (Parse.addsNone_applyPrefixes _ _ _)

/-- The watched product follows the product. -/
theorem product :
    Follows depth ((Builder.clocked limits rounds).product inner)
      fun count => (within limits count).rule .product :=
  .succ (fun _ => rfl) (leftAssociative (unary follows))

/-- The watched sum follows the sum. -/
theorem sum :
    Follows depth ((Builder.clocked limits rounds).sum inner)
      fun count => (within limits count).rule .sum :=
  .succ (fun _ => rfl) (leftAssociative (product follows))

/-- The watched concatenation follows the concatenation. -/
theorem concatenation :
    Follows depth ((Builder.clocked limits rounds).concatenation inner)
      fun count => (within limits count).rule .concatenation :=
  .succ (fun _ => rfl) (leftAssociative (sum follows))

/-- The watched comparison follows the comparison. -/
theorem comparison :
    Follows depth ((Builder.clocked limits rounds).comparison inner)
      fun count => (within limits count).rule .comparison :=
  .succ (fun _ => rfl) (nonAssociative limits (concatenation follows) _ _)

/-- The watched equality follows the equality. -/
theorem equality :
    Follows depth ((Builder.clocked limits rounds).equality inner)
      fun count => (within limits count).rule .equality :=
  .succ (fun _ => rfl) (nonAssociative limits (comparison follows) _ _)

/-- The watched program follows the program. -/
theorem program :
    Follows depth ((Builder.clocked limits rounds).program inner)
      fun count => (within limits count).rule .program := by
  refine .succ (fun _ => rfl) (.allot fun fuel => ?_)
  rw [Parse.clocked_statements]
  refine .bind (statements follows fuel) fun stmts => ?_
  refine .bind (.watch addsNone_current) fun finish => ?_
  exact .bind (.watch (addsNone_cover _ _)) fun span => .watch (addsNone_build _ _ _)

end Inside

/-- Every level of depth is one call of the rule for expressions. -/
theorem expression {limits : Limits} {rounds : Cursor → Nat} (depth : Nat) :
    Follows depth ((Builder.clocked limits rounds).expressionWithin depth)
      fun count => (within limits count).rule .expression := by
  induction depth with
  | zero => exact .exhausted
  | succ depth ih => exact .succ (fun _ => rfl) (called (equality ih))

end Follows

/-- The recursion follows every rule under a clock. -/
theorem Parse.Rule.follows (limits : Limits) (rounds : Cursor → Nat) (depth : Nat) (rule : Rule) :
    Follows depth (rule.clocked limits rounds depth)
      fun count => (Calls.within limits count).rule rule := by
  have inner : Follows depth ((Builder.clocked limits rounds).expressionWithin depth)
      fun count => (Calls.within limits count).rule .expression := .expression depth
  cases rule with
  | program => exact .program inner
  | statement => exact .statement inner
  | letStatement => exact .letStatement inner
  | block => exact .block inner
  | expression => exact inner
  | equality => exact .equality inner
  | comparison => exact .comparison inner
  | concatenation => exact .concatenation inner
  | sum => exact .sum inner
  | product => exact .product inner
  | unary => exact .unary inner
  | primary => exact .primary inner

end SinosLang
