import SinosLang.Proofs.Lexing.Lookahead
import SinosLang.Proofs.Parse.Congruence
import SinosLang.Proofs.Requests
import Mathlib

/-!
# A rejection depends on what was read

Two cursors share the readings up to a cut if they see the same token, have as many brackets open and
have the same readings before them, up to those that reach the cut. As long as a parse has not reached
the cut, it goes the same way from both of them: every action keeps this up. So a parse that fails
before the end of its source fails in the same way on every text that begins with the characters that
it has read and the one behind them.

Main statement: `rejection_decided`.
-/

set_option autoImplicit false

namespace SinosLang

/-- The readings before a cursor go on from its place. -/
def Cursor.GoesOn (cursor : Cursor) : Prop :=
  Reading.Chain cursor.source.size cursor.position cursor.upcoming

/-- Two cursors before the same readings, up to those that reach a cut. -/
structure Cursor.Shares (cut : Nat) (first second : Cursor) : Prop where
  lookahead_eq : first.lookahead = second.lookahead
  nesting_eq : first.nesting = second.nesting
  inside : cut ≤ first.source.size
  upcoming : ∃ common later later', first.upcoming = common ++ later ∧
    second.upcoming = common ++ later' ∧ ∀ reading ∈ later, cut ≤ reading.position

namespace Parse

open Cursor (Shares)

variable {α β : Type}

/-- An outcome that a parse of a whole source never has: a failure that is no diagnostic. -/
def Broken (outcome : Except Failure α) : Prop :=
  ∃ failure, outcome = .error failure ∧ ∀ d, failure ≠ .diagnostic d

/-- A failure of the first of two actions is the failure of both. -/
theorem bind_error {action : Parse α} {next : α → Parse β} {cursor : Cursor} {failure : Failure}
    (failed : (action cursor).1 = .error failure) : ((action >>= next) cursor).1 = .error failure := by
  obtain ⟨outcome, after, run⟩ : ∃ outcome after, action cursor = (outcome, after) := ⟨_, _, rfl⟩
  rw [run] at failed
  obtain rfl : outcome = .error failure := failed
  rw [bind_apply_of_error run]

/-- What goes on from a broken outcome is broken. -/
theorem Broken.bind {action : Parse α} {next : α → Parse β} {cursor : Cursor}
    (broken : Broken (action cursor).1) : Broken ((action >>= next) cursor).1 := by
  obtain ⟨failure, failed, none⟩ := broken
  exact ⟨failure, bind_error failed, none⟩

/-- An action that never goes back in the source. -/
def Forward (action : Parse α) : Prop :=
  ∀ ⦃cursor : Cursor⦄, cursor.GoesOn →
    (action cursor).2.GoesOn ∧ cursor.position ≤ (action cursor).2.position

/-- Two actions that end in the same way from cursors that share the readings up to a cut, unless the
first one reaches the cut. -/
def FailsFast (cut : Nat) (action action' : Parse α) : Prop :=
  Forward action ∧ ∀ ⦃first second : Cursor⦄, first.GoesOn → Shares cut first second →
    cut ≤ (action first).2.position ∨ Broken (action first).1 ∨ Broken (action' second).1 ∨
      (action first).1 = (action' second).1 ∧ Shares cut (action first).2 (action' second).2

variable {cut : Nat} {action action' : Parse α} {cursor : Cursor}

/-- An action that leaves the readings alone and does the same for both cursors. -/
theorem failsFast_of_eq (stays : ∀ cursor : Cursor, (action cursor).2.source = cursor.source ∧
      (action cursor).2.upcoming = cursor.upcoming ∧ (action cursor).2.position = cursor.position)
    (same : ∀ first second : Cursor, Shares cut first second →
      Broken (action first).1 ∨ Broken (action' second).1 ∨
        (action first).1 = (action' second).1 ∧ Shares cut (action first).2 (action' second).2) :
    FailsFast cut action action' := by
  refine ⟨fun cursor goesOn => ?_, fun first second _ shares => .inr (same first second shares)⟩
  obtain ⟨source_eq, upcoming_eq, position_eq⟩ := stays cursor
  rw [Cursor.GoesOn, source_eq, upcoming_eq, position_eq]
  exact ⟨goesOn, le_rfl⟩

/-- A pull never goes back. -/
theorem forward_pull : Forward pull := by
  intro cursor goesOn
  unfold Cursor.GoesOn at goesOn
  cases more : cursor.upcoming with
  | nil =>
    rw [pull_of_nil more]
    refine ⟨?_, goesOn.position_le⟩
    show Reading.Chain _ _ cursor.upcoming
    rw [more]
    exact .nil le_rfl
  | cons reading later =>
    rw [more] at goesOn
    cases goesOn with
    | cons here chain =>
      cases outcome_eq : reading.outcome with
      | ok token =>
        rw [pull_of_token more outcome_eq]
        exact ⟨chain, here.forward.le⟩
      | error failure =>
        rw [pull_of_failure more outcome_eq]
        exact ⟨chain, here.forward.le⟩

/-- A reading that both cursors share is pulled from both; any other one reaches the cut. -/
theorem failsFast_pull : FailsFast cut pull pull := by
  refine ⟨forward_pull, fun first second _ shares => ?_⟩
  obtain ⟨lookahead_eq, nesting_eq, inside, common, later, later', first_eq, second_eq, late⟩ :=
    shares
  cases common with
  | nil =>
    left
    cases later with
    | nil =>
      rw [pull_of_nil first_eq]
      exact inside
    | cons reading later =>
      have reached := late reading List.mem_cons_self
      cases outcome_eq : reading.outcome with
      | ok token =>
        rw [pull_of_token first_eq outcome_eq]
        exact reached
      | error failure =>
        rw [pull_of_failure first_eq outcome_eq]
        exact reached
  | cons reading common =>
    refine .inr (.inr (.inr ?_))
    cases outcome_eq : reading.outcome with
    | ok token =>
      rw [pull_of_token first_eq outcome_eq, pull_of_token second_eq outcome_eq]
      exact ⟨rfl, rfl, nesting_eq, inside, common, later, later', rfl, rfl, late⟩
    | error failure =>
      rw [pull_of_failure first_eq outcome_eq, pull_of_failure second_eq outcome_eq]
      exact ⟨rfl, lookahead_eq, nesting_eq, inside, common, later, later', rfl, rfl, late⟩

/-- A look at the token ahead ends in the same way up to the cut. -/
theorem failsFast_current : FailsFast cut current current := by
  refine ⟨fun cursor goesOn => ?_, fun first second goesOn shares => ?_⟩
  · unfold current
    split
    next => exact ⟨goesOn, le_rfl⟩
    next => exact forward_pull goesOn
  · have lookahead_eq := shares.lookahead_eq
    unfold current
    rw [← lookahead_eq]
    split
    next => exact .inr (.inr (.inr ⟨rfl, shares⟩))
    next => exact failsFast_pull.2 goesOn shares

/-- Actions in a row never go back if each of them never does. -/
theorem Forward.bind {next : α → Parse β} (head : Forward action)
    (tail : ∀ value, Forward (next value)) : Forward (action >>= next) := by
  intro cursor goesOn
  have first := head goesOn
  cases run : action cursor with
  | mk outcome after =>
    rw [run] at first
    cases outcome with
    | error failure =>
      rw [bind_apply_of_error run]
      exact first
    | ok value =>
      rw [bind_apply_of_ok run]
      obtain ⟨goesOn', le⟩ := tail value first.1
      exact ⟨goesOn', first.2.trans le⟩

/-- Where the first action has reached the cut, the second one stays behind it. -/
theorem failsFast_bind {next next' : α → Parse β} (head : FailsFast cut action action')
    (tail : ∀ value, FailsFast cut (next value) (next' value)) :
    FailsFast cut (action >>= next) (action' >>= next') := by
  refine ⟨head.1.bind fun value => (tail value).1, fun first second goesOn shares => ?_⟩
  have goesOn' := (head.1 goesOn).1
  rcases head.2 goesOn shares with reached | broken | broken | ⟨same, shares'⟩
  · left
    match run : action first with
    | (.error failure, after) =>
      rw [run] at reached
      rw [bind_apply_of_error run]
      exact reached
    | (.ok value, after) =>
      rw [run] at reached goesOn'
      rw [bind_apply_of_ok run]
      exact reached.trans ((tail value).1 goesOn').2
  · exact .inr (.inl broken.bind)
  · exact .inr (.inr (.inl broken.bind))
  · match run : action first, run' : action' second with
    | (.error failure, after), (outcome', after') =>
      rw [run, run'] at same shares'
      obtain rfl : Except.error failure = outcome' := same
      rw [bind_apply_of_error run, bind_apply_of_error run']
      exact .inr (.inr (.inr ⟨rfl, shares'⟩))
    | (.ok value, after), (outcome', after') =>
      rw [run] at goesOn'
      rw [run, run'] at same shares'
      obtain rfl : Except.ok value = outcome' := same
      rw [bind_apply_of_ok run, bind_apply_of_ok run']
      exact (tail value).2 goesOn' shares'

/-- Opening a bracket ends in the same way, as it reads nothing. -/
theorem failsFast_openBracket (limits : Limits) (bracket : Token) :
    FailsFast cut (openBracket limits bracket) (openBracket limits bracket) := by
  refine failsFast_of_eq (fun cursor => ?_) fun first second shares => .inr (.inr ?_)
  · unfold openBracket
    split <;> exact ⟨rfl, rfl, rfl⟩
  · obtain ⟨lookahead_eq, nesting_eq, inside, upcoming⟩ := shares
    unfold openBracket
    rw [nesting_eq]
    split
    · exact ⟨rfl, lookahead_eq, nesting_eq, inside, upcoming⟩
    · exact ⟨rfl, lookahead_eq, rfl, inside, upcoming⟩

/-- A span that both sources have is the same in both. -/
theorem failsFast_cover (start stop : Span) :
    FailsFast cut (cover start stop) (cover start stop) := by
  refine failsFast_of_eq (fun cursor => ⟨rfl, rfl, rfl⟩) fun first second shares => ?_
  have broken {error : RangeError} {cursor : Cursor}
      (none : cursor.source.cover start stop = .error error) :
      Broken (cover start stop cursor).1 := by
    refine ⟨.badRange error, ?_, fun d isDiagnostic => by cases isDiagnostic⟩
    rw [cover, none]
    rfl
  cases made : first.source.cover start stop with
  | error error => exact .inl (broken made)
  | ok span =>
    cases made' : second.source.cover start stop with
    | error error => exact .inr (.inl (broken made'))
    | ok span' =>
      obtain ⟨_, index_eq, length_eq⟩ := Source.span?_eq_ok made
      obtain ⟨_, index_eq', length_eq'⟩ := Source.span?_eq_ok made'
      have same : span = span' := by
        cases span
        cases span'
        simp only [Span.mk.injEq] at index_eq length_eq index_eq' length_eq' ⊢
        omega
      refine .inr (.inr ⟨?_, shares⟩)
      rw [cover, cover, made, made', same]

/-- A parse that runs out of rounds or depth is broken. -/
theorem broken_exhausted : Broken (.error .depthExhausted : Except Failure α) :=
  ⟨_, rfl, fun _ isDiagnostic => by cases isDiagnostic⟩

/-- An action that answers or fails without looking at the cursor. -/
theorem failsFast_const (outcome : Except Failure α) :
    FailsFast cut (fun cursor => (outcome, cursor)) fun cursor => (outcome, cursor) :=
  failsFast_of_eq (fun _ => ⟨rfl, rfl, rfl⟩) fun _ _ shares => .inr (.inr ⟨rfl, shares⟩)

/-- Every rule of the grammar goes the same way from both cursors. -/
theorem failsFast_congruence (cut : Nat) (limits : Limits) :
    Congruence limits limits (fun _ => FailsFast cut) where
  pure value := failsFast_const _
  bind := failsFast_bind
  current := failsFast_current
  pull := failsFast_pull
  report fault span := failsFast_const _
  openBracket := failsFast_openBracket limits
  closeBracket := failsFast_of_eq (fun _ => ⟨rfl, rfl, rfl⟩) fun first second shares =>
    .inr (.inr ⟨rfl, shares.lookahead_eq, congrArg (· - 1) shares.nesting_eq, shares.inside,
      shares.upcoming⟩)
  cover := failsFast_cover
  build node parts := by
    unfold build
    dsimp only
    split <;> exact failsFast_const _
  budget related := by
    refine ⟨fun cursor goesOn => (related _ 0).1 goesOn, fun first second goesOn shares => ?_⟩
    exact (related _ _).2 goesOn shares
  exhausted := failsFast_const _
  exhausted_left _ := by
    refine ⟨fun cursor goesOn => ⟨goesOn, le_rfl⟩, fun first second _ _ => ?_⟩
    exact .inr (.inl broken_exhausted)
  exhausted_right related := by
    refine ⟨related.1, fun first second _ _ => ?_⟩
    exact .inr (.inr (.inl broken_exhausted))

end Parse

namespace Source

variable {source : Source}

/-- The start of a source shares its readings with that of any source that begins like it. -/
theorem shares_start {cut : Nat} (inside : cut ≤ source.size) (name other : Text) :
    (Cursor.start source).Shares cut
      (Cursor.start (ofText name (source.text.take cut ++ other))) where
  lookahead_eq := rfl
  nesting_eq := rfl
  inside := inside
  upcoming := Stream.readings_decided source name other inside

/-- The parse of a whole program is not broken. -/
theorem not_broken_parse {limits : Limits} {outcome : Except Failure Measured} {after : Cursor}
    (run : Parse.program limits (Cursor.start source) = (outcome, after)) :
    ¬Parse.Broken outcome := by
  rintro ⟨failure, rfl, none⟩
  obtain ⟨d, isDiagnostic, _⟩ := Parse.program_error run
  exact none d isDiagnostic

/-- A parse that fails before the end of its source fails in the same way on every text that begins
with the characters that were read and the one behind them, and so does a tokenization. -/
theorem rejection_decided (source : Source) (name other : Text) :
    (∀ d after, Parse.program Limits.standard (Cursor.start source) =
        (.error (.diagnostic d), after) →
      after.position < source.size →
      (ofText name (source.text.take (after.position + 1) ++ other)).parse =
        .error (.diagnostic d)) ∧
    (∀ d, source.tokenize.result = .error (.diagnostic d) →
      source.tokenize.position < source.size →
      (ofText name (source.text.take (source.tokenize.position + 1) ++ other)).tokenize.result =
        .error (.diagnostic d)) := by
  refine ⟨fun d after run before => ?_, fun d failed before =>
    tokenize_decided failed before name other⟩
  have shares := shares_start before name other
  have goesOn : (Cursor.start source).GoesOn :=
    @Stream.readings_chain (.startingAt source 0) (Nat.zero_le _)
  have agree := (Parse.failsFast_congruence (after.position + 1) Limits.standard).program.2 goesOn
    shares
  rw [run] at agree
  rcases agree with reached | broken | broken | ⟨same, _⟩
  · exact absurd reached (Nat.not_succ_le_self _)
  · exact absurd broken (not_broken_parse run)
  · exact absurd broken (not_broken_parse rfl)
  · unfold parse parseWithin
    rw [← same]
    rfl

/-- A let statement that binds a number, which the parser rejects before it comes to the character
that the lexer rejects. -/
theorem rejection_decided_binding :
    (ofText [] "let 1 \"".toList).parse = .error (.diagnostic ⟨.expectName, ⟨4, 1⟩⟩) ∧
      (ofText [] "let 1 @ \"".toList).tokenize.result =
        .error (.diagnostic ⟨.unexpectedChar, ⟨6, 1⟩⟩) := by
  have decided := rejection_decided (ofText [] "let 1 @ x".toList) [] ['"']
  obtain ⟨outcome, after, run⟩ : ∃ outcome after, Parse.program Limits.standard
      (Cursor.start (ofText [] "let 1 @ x".toList)) = (outcome, after) := ⟨_, _, rfl⟩
  constructor
  · have position_eq : after.position = 5 := by
      rw [show after = (Parse.program Limits.standard
        (Cursor.start (ofText [] "let 1 @ x".toList))).2 from by rw [run]]
      cbv
    have rejected : (ofText [] "let 1 @ x".toList).parse =
        .error (.diagnostic ⟨.expectName, ⟨4, 1⟩⟩) := by cbv
    have isError : outcome = .error (.diagnostic ⟨.expectName, ⟨4, 1⟩⟩) := by
      unfold parse parseWithin at rejected
      rw [run] at rejected
      cases outcome with
      | ok result => cases rejected
      | error failure =>
        cases rejected
        rfl
    subst isError
    have again := decided.1 _ after run (by rw [position_eq]; decide)
    rw [position_eq] at again
    exact again
  · have failed : (ofText [] "let 1 @ x".toList).tokenize.result =
        .error (.diagnostic ⟨.unexpectedChar, ⟨6, 1⟩⟩) := by cbv
    have position_eq : (ofText [] "let 1 @ x".toList).tokenize.position = 7 := by cbv
    have again := decided.2 _ failed (by rw [position_eq]; decide)
    rw [position_eq] at again
    exact again

end Source

end SinosLang
