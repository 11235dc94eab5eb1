import SinosLang.Parse.Cursor
import SinosLang.Proofs.Grammar.Rules

/-!
# What the cursor has yet to consume

The tokens still to be consumed are the one in the lookahead slot and those behind it. Filling the
slot changes nothing about them, and consuming a token takes away the first of them. This file says
so for every action on the cursor, in both directions: what an action that succeeded has consumed,
and what an action consumes where the tokens are as it needs them.

Main statements: `advance_ok`, `accept_some`, `expect_ok` for actions that succeeded, and
`exists_advance`, `exists_accept`, `exists_expect` for actions that will.
-/

set_option autoImplicit false

namespace SinosLang

open Grammar (nextKind)

namespace Cursor

/-- The outcomes of the readings still to be consumed. The end is not among them. -/
def pending (cursor : Cursor) : List (Except Failure Token) :=
  match cursor.lookahead with
  | none => cursor.upcoming.map Reading.outcome
  | some token =>
    if token.kind = .eof then [] else .ok token :: cursor.upcoming.map Reading.outcome

/-- The end of the source is seen only where nothing is left to be read, and at its own place. -/
structure Consistent (cursor : Cursor) : Prop where
  finish : ∀ token, cursor.lookahead = some token → token.kind = .eof →
    cursor.upcoming = [] ∧ token = cursor.endToken
  inner : ∀ reading ∈ cursor.upcoming, ∀ token, reading.outcome = .ok token → token.kind ≠ .eof

/-- From one cursor to another some tokens were consumed, and as many brackets are open as
before. -/
structure Moves (cursor : Cursor) (tokens : List Token) (after : Cursor) : Prop where
  consistent : after.Consistent
  pending_eq : cursor.pending = tokens.map .ok ++ after.pending
  nesting_eq : after.nesting = cursor.nesting
  source_eq : after.source = cursor.source

/-- The cursor with another number of open brackets. -/
def withNesting (cursor : Cursor) (nesting : Int) : Cursor :=
  { cursor with nesting := nesting }

/-- Staying where it is, a cursor consumes nothing. -/
theorem Moves.refl {cursor : Cursor} (consistent : cursor.Consistent) : Moves cursor [] cursor :=
  ⟨consistent, rfl, rfl, rfl⟩

/-- Two moves in a row consume the tokens of both. -/
theorem Moves.trans {cursor middle after : Cursor} {first second : List Token}
    (h : Moves cursor first middle) (k : Moves middle second after) :
    Moves cursor (first ++ second) after where
  consistent := k.consistent
  pending_eq := by
    rw [h.pending_eq, k.pending_eq, List.map_append, List.append_assoc]
  nesting_eq := k.nesting_eq.trans h.nesting_eq
  source_eq := k.source_eq.trans h.source_eq

/-- The number of open brackets has nothing to do with consistency. -/
theorem Consistent.withNesting {cursor : Cursor} (consistent : cursor.Consistent)
    (nesting : Int) : (cursor.withNesting nesting).Consistent :=
  ⟨consistent.finish, consistent.inner⟩

/-- What happens between a bracket and its counterpart leaves the brackets around them open. -/
theorem Moves.enclosed {cursor after : Cursor} {tokens : List Token}
    (h : Moves (cursor.withNesting (cursor.nesting + 1)) tokens after) :
    Moves cursor tokens (after.withNesting (after.nesting - 1)) where
  consistent := h.consistent.withNesting _
  pending_eq := h.pending_eq
  nesting_eq := by
    have := h.nesting_eq
    simp only [Cursor.withNesting] at this ⊢
    omega
  source_eq := h.source_eq

end Cursor

namespace Parse

open Cursor (Moves)

variable {cursor after : Cursor} {token : Token}

/-- Where nothing is left to be read, the end is pulled. -/
theorem pull_of_nil (noneLeft : cursor.upcoming = []) :
    pull cursor = (.ok cursor.endToken,
      { cursor with lookahead := some cursor.endToken, position := cursor.source.size }) := by
  unfold pull
  rw [noneLeft]

/-- A token that is read next is pulled. -/
theorem pull_of_token {reading : Reading} {later : List Reading}
    (more : cursor.upcoming = reading :: later) (isToken : reading.outcome = .ok token) :
    pull cursor = (.ok token,
      { cursor with lookahead := some token, upcoming := later, position := reading.position }) := by
  unfold pull
  rw [more]
  simp only [isToken]

/-- A failure that is read next is that of the pull. -/
theorem pull_of_failure {reading : Reading} {later : List Reading} {failure : Failure}
    (more : cursor.upcoming = reading :: later) (isFailure : reading.outcome = .error failure) :
    pull cursor =
      (.error failure, { cursor with upcoming := later, position := reading.position }) := by
  unfold pull
  rw [more]
  simp only [isFailure]

/-- A pull opens and closes no bracket. -/
theorem nesting_pull (cursor : Cursor) : (pull cursor).2.nesting = cursor.nesting := by
  unfold pull
  split
  next => rfl
  next => split <;> rfl

/-- A look at the token ahead opens and closes no bracket. -/
theorem nesting_current (cursor : Cursor) : (current cursor).2.nesting = cursor.nesting := by
  unfold current
  split
  next => rfl
  next => exact nesting_pull cursor

/-- Two actions that keep the nesting keep it one after the other. -/
theorem nesting_bind {α β : Type} {action : Parse α} {next : α → Parse β}
    (first : ∀ cursor, (action cursor).2.nesting = cursor.nesting)
    (rest : ∀ value cursor, (next value cursor).2.nesting = cursor.nesting) (cursor : Cursor) :
    ((action >>= next) cursor).2.nesting = cursor.nesting := by
  have kept := first cursor
  rcases run : action cursor with ⟨failure | value, middle⟩
  · rw [run] at kept
    rw [bind_apply_of_error run]
    exact kept
  · rw [run] at kept
    rw [bind_apply_of_ok run, rest]
    exact kept

/-- Consuming a token opens and closes no bracket. -/
theorem nesting_advance (cursor : Cursor) : (advance cursor).2.nesting = cursor.nesting := by
  refine nesting_bind nesting_current (fun token middle => ?_) cursor
  split
  next => rfl
  next => exact nesting_bind nesting_pull (fun _ _ => rfl) middle

/-- A token that was pulled is ahead. -/
theorem lookahead_of_pull (pulled : pull cursor = (.ok token, after)) :
    after.lookahead = some token := by
  unfold pull at pulled
  split at pulled
  next =>
    cases pulled
    rfl
  next =>
    split at pulled <;> cases pulled
    rfl

/-- A pull does not depend on the number of open brackets. -/
theorem pull_withNesting (cursor : Cursor) (nesting : Int) :
    pull (cursor.withNesting nesting) = ((pull cursor).1, (pull cursor).2.withNesting nesting) := by
  unfold pull Cursor.withNesting
  dsimp only
  split
  next => rfl
  next => split <;> rfl

section Brackets

variable {limits : Limits} {bracket : Token}

/-- A bracket that finds room is opened, and counts. -/
theorem openBracket_of_not_full (notFull : limits.isFull cursor.nesting = false) :
    openBracket limits bracket cursor = (.ok (), cursor.withNesting (cursor.nesting + 1)) := by
  rw [openBracket, if_neg (Bool.eq_false_iff.mp notFull)]
  rfl

/-- A bracket that is opened has found room, and is counted. -/
theorem openBracket_eq_ok (run : openBracket limits bracket cursor = (.ok (), after)) :
    limits.isFull cursor.nesting = false ∧ after = cursor.withNesting (cursor.nesting + 1) := by
  unfold openBracket at run
  split at run
  next => cases run
  next room =>
    cases run
    exact ⟨Bool.eq_false_iff.mpr room, rfl⟩

/-- A bracket that is refused leaves the cursor as it is. -/
theorem openBracket_eq_error {failure : Failure}
    (run : openBracket limits bracket cursor = (.error failure, after)) : after = cursor := by
  unfold openBracket at run
  split at run <;> cases run
  rfl

end Brackets

/-- The slot takes the next reading, or the end; what is then pending are the readings that were
behind the slot. -/
theorem pull_ok (consistent : cursor.Consistent) (run : pull cursor = (.ok token, after)) :
    after.Consistent ∧ after.pending = cursor.upcoming.map Reading.outcome ∧
      after.nesting = cursor.nesting ∧ after.source = cursor.source ∧
      after.lookahead = some token := by
  unfold pull at run
  split at run
  next noneLeft =>
    cases run
    refine ⟨⟨?_, consistent.inner⟩, ?_, rfl, rfl, rfl⟩
    · rintro _ ⟨⟩ _
      exact ⟨noneLeft, rfl⟩
    · simp [Cursor.pending, noneLeft, Cursor.endToken]
  next reading later more =>
    split at run
    next token' isToken =>
      cases run
      have notEnd : token.kind ≠ .eof :=
        consistent.inner reading (by rw [more]; exact List.mem_cons_self) token isToken
      refine ⟨⟨?_, ?_⟩, ?_, rfl, rfl, rfl⟩
      · rintro _ ⟨⟩ isEnd
        exact absurd isEnd notEnd
      · intro reading' isIn
        exact consistent.inner reading' (by rw [more]; exact List.mem_cons_of_mem _ isIn)
      · simp [Cursor.pending, more, isToken, notEnd]
    next => cases run

/-- Looking ahead consumes nothing. -/
theorem current_ok (consistent : cursor.Consistent) (run : current cursor = (.ok token, after)) :
    Moves cursor [] after ∧ after.lookahead = some token := by
  unfold current at run
  split at run
  next held full =>
    cases run
    exact ⟨Moves.refl consistent, full⟩
  next empty =>
    obtain ⟨consistent', pending, nesting, source, full⟩ := pull_ok consistent run
    refine ⟨⟨consistent', ?_, nesting, source⟩, full⟩
    rw [pending]
    simp [Cursor.pending, empty]

/-- A token that is ahead is seen without reading. -/
theorem current_of_lookahead (full : cursor.lookahead = some token) :
    current cursor = (.ok token, cursor) := by
  unfold current
  rw [full]

/-- Looking ahead fills the slot. -/
theorem current_fills (looked : current cursor = (.ok token, after)) :
    after.lookahead = some token ∧ after.nesting = cursor.nesting := by
  unfold current at looked
  split at looked
  next held full =>
    cases looked
    exact ⟨full, rfl⟩
  next =>
    refine ⟨lookahead_of_pull looked, ?_⟩
    rw [← nesting_pull cursor, looked]

/-- To consume a token is to pull the one behind it. -/
theorem advance_of_lookahead (ahead : cursor.lookahead = some token)
    (notEnd : token.kind ≠ .eof) :
    advance cursor = (pull >>= fun _ => pure token : Parse Token) cursor := by
  unfold advance
  rw [bind_apply_of_ok (current_of_lookahead ahead), if_neg notEnd]

/-- Advancing consumes the token that is answered. -/
theorem advance_ok (consistent : cursor.Consistent) (run : advance cursor = (.ok token, after))
    (notEnd : token.kind ≠ .eof) :
    Moves cursor [token] after ∧ ∃ next, after.lookahead = some next := by
  unfold advance at run
  obtain ⟨held, middle, looked, run⟩ := bind_eq_ok.mp run
  obtain ⟨moves, full⟩ := current_ok consistent looked
  split at run
  next isEnd =>
    cases run
    exact absurd isEnd notEnd
  next heldNotEnd =>
    obtain ⟨next, final, pulled, run⟩ := bind_eq_ok.mp run
    cases run
    obtain ⟨consistent', pending, nesting, source, sees⟩ := pull_ok moves.consistent pulled
    refine ⟨moves.trans ⟨consistent', ?_, nesting, source⟩, next, sees⟩
    rw [pending]
    simp [Cursor.pending, full, heldNotEnd]

/-- Advancing answers with the token in the slot. -/
theorem advance_eq_lookahead {held : Token} (full : cursor.lookahead = some held)
    (run : advance cursor = (.ok token, after)) : token = held := by
  unfold advance at run
  rw [bind_apply_of_ok (current_of_lookahead full)] at run
  split at run
  · cases run
    rfl
  · obtain ⟨_, _, _, answered⟩ := bind_eq_ok.mp run
    cases answered
    rfl

/-- What is accepted is of one of the kinds and consumed. -/
theorem accept_some {kinds : List TokenKind} (consistent : cursor.Consistent)
    (noEnd : TokenKind.eof ∉ kinds) (run : accept kinds cursor = (.ok (some token), after)) :
    token.kind ∈ kinds ∧ Moves cursor [token] after ∧ ∃ next, after.lookahead = some next := by
  unfold accept at run
  obtain ⟨held, middle, looked, run⟩ := bind_eq_ok.mp run
  obtain ⟨moves, full⟩ := current_ok consistent looked
  split at run
  next isOne =>
    obtain ⟨taken, final, advanced, run⟩ := bind_eq_ok.mp run
    cases run
    obtain rfl := advance_eq_lookahead full advanced
    have isOne : token.kind ∈ kinds := List.contains_iff_mem.mp isOne
    obtain ⟨step, sees⟩ := advance_ok moves.consistent advanced fun isEnd => noEnd (isEnd ▸ isOne)
    exact ⟨isOne, moves.trans step, sees⟩
  next => cases run

/-- Where nothing is accepted, the token ahead is of none of the kinds, and nothing is consumed. -/
theorem accept_none {kinds : List TokenKind} (consistent : cursor.Consistent)
    (run : accept kinds cursor = (.ok none, after)) :
    Moves cursor [] after ∧ ∃ next, after.lookahead = some next ∧ next.kind ∉ kinds := by
  unfold accept at run
  obtain ⟨held, middle, looked, run⟩ := bind_eq_ok.mp run
  obtain ⟨moves, full⟩ := current_ok consistent looked
  split at run
  next =>
    obtain ⟨_, _, _, run⟩ := bind_eq_ok.mp run
    cases run
  next notOne =>
    cases run
    exact ⟨moves, held, full, fun isOne => notOne (List.contains_iff_mem.mpr isOne)⟩

/-- What was expected is of the kind and consumed. -/
theorem expect_ok {kind : TokenKind} {fault : Fault} (consistent : cursor.Consistent)
    (notEnd : kind ≠ .eof) (run : expect kind fault cursor = (.ok token, after)) :
    token.kind = kind ∧ Moves cursor [token] after ∧ ∃ next, after.lookahead = some next := by
  unfold expect expectAny at run
  obtain ⟨taken?, middle, accepted, run⟩ := bind_eq_ok.mp run
  cases taken? with
  | none =>
    obtain ⟨_, _, _, run⟩ := bind_eq_ok.mp run
    cases run
  | some taken =>
    cases run
    have noEnd : TokenKind.eof ∉ [kind] := fun isIn => notEnd (List.mem_singleton.mp isIn).symm
    obtain ⟨isKind, moves, sees⟩ := accept_some consistent noEnd accepted
    exact ⟨List.mem_singleton.mp isKind, moves, sees⟩

/-- The span between two spans starts with the first and stops with the second. -/
theorem cover_ok {first last span : Span} (run : cover first last cursor = (.ok span, after)) :
    cursor = after ∧ span.index = first.index ∧ span.stop = last.stop := by
  unfold cover Source.cover at run
  cases made : cursor.source.span? first.index (last.stop - first.index) with
  | error failure =>
    rw [made] at run
    cases run
  | ok span' =>
    rw [made] at run
    cases run
    obtain ⟨_, index_eq, length_eq⟩ := Source.span?_eq_ok made
    refine ⟨rfl, Int.ofNat.inj index_eq, ?_⟩
    simp only [Span.stop] at length_eq ⊢
    omega

/-- A node is built where its height is allowed, and nothing is consumed. -/
theorem build_ok {limits : Limits} {node : Node} {parts : List Measured} {result : Measured}
    (run : build limits node parts cursor = (.ok result, after)) :
    cursor = after ∧ limits.allows ((parts.map Measured.height).foldr max 0 + 1) = true ∧
      result = ⟨node, (parts.map Measured.height).foldr max 0 + 1⟩ := by
  unfold build at run
  split at run
  next allowed =>
    cases run
    exact ⟨rfl, allowed, rfl⟩
  next => cases run

end Parse

/-! ## What an action will do -/

namespace Cursor

/-- A cursor has exactly the given tokens to consume, all inside its source. -/
structure Holds (cursor : Cursor) (tokens : List Token) : Prop where
  consistent : cursor.Consistent
  pending_eq : cursor.pending = tokens.map .ok
  inside : ∀ token ∈ tokens, token.span.stop ≤ cursor.source.size

/-- From one cursor on, another is reached that has the given tokens to consume, the first of which
it sees ahead; as many brackets are open as before. -/
structure Reaches (cursor : Cursor) (tokens : List Token) (after : Cursor) : Prop where
  holds : after.Holds tokens
  sees : ∃ token, after.lookahead = some token
  nesting_eq : after.nesting = cursor.nesting
  source_eq : after.source = cursor.source

variable {cursor middle after : Cursor} {tokens : List Token}

/-- What is reached from a cursor that was reached is reached. -/
theorem Reaches.trans {tokens' : List Token} (h : Reaches cursor tokens middle)
    (k : Reaches middle tokens' after) : Reaches cursor tokens' after :=
  ⟨k.holds, k.sees, k.nesting_eq.trans h.nesting_eq, k.source_eq.trans h.source_eq⟩

/-- The number of open brackets has nothing to do with the tokens to consume. -/
theorem Holds.withNesting (h : cursor.Holds tokens) (nesting : Int) :
    (cursor.withNesting nesting).Holds tokens :=
  ⟨h.consistent.withNesting nesting, h.pending_eq, h.inside⟩

/-- What is reached inside a bracket is reached from outside once the bracket is closed. -/
theorem Reaches.enclosed (h : Reaches (cursor.withNesting (cursor.nesting + 1)) tokens after) :
    Reaches cursor tokens (after.withNesting (after.nesting - 1)) where
  holds := h.holds.withNesting _
  sees := h.sees
  nesting_eq := by
    have := h.nesting_eq
    simp only [Cursor.withNesting] at this ⊢
    omega
  source_eq := h.source_eq

/-- A full slot holds the first of the tokens, or the end if there are none. -/
theorem Holds.lookahead_kind (h : cursor.Holds tokens) {token : Token}
    (full : cursor.lookahead = some token) : token.kind = nextKind tokens .eof := by
  have pending := h.pending_eq
  unfold Cursor.pending at pending
  rw [full] at pending
  cases tokens with
  | nil =>
    simp only [List.map_nil] at pending
    split at pending
    next isEnd => exact isEnd
    next => cases pending
  | cons first rest =>
    simp only at pending
    split at pending
    next => cases pending
    next =>
      obtain rfl : token = first := by
        injection pending with same _
        exact Except.ok.inj same
      rfl

/-- A full slot holds the first of the tokens. -/
theorem Holds.lookahead_eq {first : Token} {rest : List Token} (h : cursor.Holds (first :: rest))
    {token : Token} (full : cursor.lookahead = some token) : token = first := by
  have pending := h.pending_eq
  unfold Cursor.pending at pending
  rw [full] at pending
  simp only at pending
  split at pending
  next => cases pending
  next =>
    injection pending with same _
    exact Except.ok.inj same

/-- No token to be consumed is the end. -/
theorem Holds.notEnd (h : cursor.Holds tokens) {token : Token} (isIn : token ∈ tokens) :
    token.kind ≠ .eof := by
  have pending := h.pending_eq
  have among : Except.ok token ∈ cursor.pending := by
    rw [pending]
    exact List.mem_map_of_mem isIn
  unfold Cursor.pending at among
  split at among
  next =>
    obtain ⟨reading, isReading, outcome⟩ := List.mem_map.mp among
    exact h.consistent.inner reading isReading token outcome
  next held full =>
    split at among
    next => cases among
    next notEnd =>
      rcases List.mem_cons.mp among with same | later
      · cases same
        exact notEnd
      · obtain ⟨reading, isReading, outcome⟩ := List.mem_map.mp later
        exact h.consistent.inner reading isReading token outcome

end Cursor

namespace Parse

open Cursor (Holds Reaches)

variable {cursor : Cursor} {first : Token} {tokens : List Token}

/-- The slot is filled with the first of the tokens, or with the end. -/
theorem exists_pull {upcoming : List Token} (consistent : cursor.Consistent)
    (behind : cursor.upcoming.map Reading.outcome = upcoming.map .ok)
    (inside : ∀ token ∈ upcoming, token.span.stop ≤ cursor.source.size) :
    ∃ token after, pull cursor = (.ok token, after) ∧ Reaches cursor upcoming after := by
  have run : ∃ token after, pull cursor = (.ok token, after) := by
    unfold pull
    split
    next => exact ⟨_, _, rfl⟩
    next reading later more =>
      cases upcoming with
      | nil =>
        rw [more] at behind
        cases behind
      | cons token upcoming =>
        rw [more] at behind
        injection behind with isToken _
        rw [isToken]
        exact ⟨_, _, rfl⟩
  obtain ⟨token, after, run⟩ := run
  obtain ⟨consistent', pending, nesting, source, full⟩ := pull_ok consistent run
  refine ⟨token, after, run, ⟨consistent', pending.trans behind, ?_⟩, ⟨token, full⟩, nesting, source⟩
  rw [source]
  exact inside

/-- Looking ahead shows the first of the tokens, or the end. -/
theorem exists_current (h : cursor.Holds tokens) :
    ∃ token after, current cursor = (.ok token, after) ∧ Reaches cursor tokens after ∧
      after.lookahead = some token ∧ token.kind = nextKind tokens .eof := by
  have run : ∃ token after, current cursor = (.ok token, after) ∧ Reaches cursor tokens after := by
    unfold current
    split
    next token full => exact ⟨token, cursor, rfl, h, ⟨token, full⟩, rfl, rfl⟩
    next empty =>
      refine exists_pull h.consistent ?_ h.inside
      have pending := h.pending_eq
      unfold Cursor.pending at pending
      rw [empty] at pending
      exact pending
  obtain ⟨token, after, looked, reaches⟩ := run
  obtain ⟨_, full⟩ := current_ok h.consistent looked
  exact ⟨token, after, looked, reaches, full, reaches.holds.lookahead_kind full⟩

/-- The first of the tokens can be consumed. -/
theorem exists_advance (h : cursor.Holds (first :: tokens)) :
    ∃ after, advance cursor = (.ok first, after) ∧ Reaches cursor tokens after := by
  obtain ⟨held, middle, looked, reaches, full, _⟩ := exists_current h
  obtain rfl := reaches.holds.lookahead_eq full
  have notEnd : held.kind ≠ .eof := reaches.holds.notEnd List.mem_cons_self
  have behind : middle.upcoming.map Reading.outcome = tokens.map .ok := by
    have pending := reaches.holds.pending_eq
    unfold Cursor.pending at pending
    rw [full] at pending
    simp only [notEnd, if_false] at pending
    injection pending
  obtain ⟨next, after, pulled, reaches'⟩ := exists_pull reaches.holds.consistent behind
    fun token isIn => reaches.holds.inside token (List.mem_cons_of_mem _ isIn)
  refine ⟨after, ?_, reaches.trans reaches'⟩
  unfold advance
  rw [bind_apply_of_ok looked, if_neg notEnd, bind_apply_of_ok pulled]
  rfl

/-- The first of the tokens is accepted if it is of one of the kinds. -/
theorem exists_accept (kinds : List TokenKind) (h : cursor.Holds (first :: tokens))
    (isOne : first.kind ∈ kinds) :
    ∃ after, accept kinds cursor = (.ok (some first), after) ∧ Reaches cursor tokens after := by
  obtain ⟨held, middle, looked, reaches, full, _⟩ := exists_current h
  obtain rfl := reaches.holds.lookahead_eq full
  obtain ⟨after, advanced, reaches'⟩ := exists_advance reaches.holds
  refine ⟨after, ?_, reaches.trans reaches'⟩
  unfold accept
  rw [bind_apply_of_ok looked, if_pos (List.contains_iff_mem.mpr isOne), bind_apply_of_ok advanced]
  rfl

/-- Nothing is accepted if what is ahead is of none of the kinds. -/
theorem exists_accept_none (kinds : List TokenKind) (h : cursor.Holds tokens)
    (noOne : nextKind tokens .eof ∉ kinds) :
    ∃ after, accept kinds cursor = (.ok none, after) ∧ Reaches cursor tokens after := by
  obtain ⟨held, middle, looked, reaches, full, kind⟩ := exists_current h
  refine ⟨middle, ?_, reaches⟩
  unfold accept
  rw [bind_apply_of_ok looked, if_neg]
  · rfl
  · rw [kind]
    exact fun isOne => noOne (List.contains_iff_mem.mp isOne)

/-- What is expected is consumed. -/
theorem exists_expect {kind : TokenKind} (fault : Fault) (h : cursor.Holds (first :: tokens))
    (isKind : first.kind = kind) :
    ∃ after, expect kind fault cursor = (.ok first, after) ∧ Reaches cursor tokens after := by
  obtain ⟨after, accepted, reaches⟩ := exists_accept _ h (List.mem_singleton.mpr isKind)
  refine ⟨after, ?_, reaches⟩
  unfold expect expectAny
  rw [bind_apply_of_ok accepted]
  rfl

/-- The budget is greater than the number of tokens to consume. -/
theorem exists_budget (h : cursor.Holds tokens) :
    ∃ rounds, budget cursor = (.ok rounds, cursor) ∧ tokens.length < rounds := by
  refine ⟨_, rfl, ?_⟩
  have length : cursor.pending.length ≤ cursor.upcoming.length + 1 := by
    unfold Cursor.pending
    split
    · rw [List.length_map]
      omega
    · split
      · exact Nat.zero_le _
      · rw [List.length_cons, List.length_map]
  rw [h.pending_eq, List.length_map] at length
  omega

/-- A span that runs from the start of the first to the end of the last one is the span between
them. -/
theorem cover_eq {first last span : Span} (index_eq : span.index = first.index)
    (stop_eq : span.stop = last.stop) (inside : span.stop ≤ cursor.source.size) :
    cover first last cursor = (.ok span, cursor) := by
  have length_eq : (last.stop : Int) - first.index = span.length := by
    rw [← stop_eq, ← index_eq, Span.stop]
    omega
  unfold cover Source.cover Source.span?
  rw [length_eq, ← index_eq, if_neg]
  · rfl
  · simp only [Span.stop] at inside
    omega

/-- A node is built if its height is allowed. -/
theorem build_eq {limits : Limits} {node : Node} {parts : List Measured} {height : Nat}
    (height_eq : (parts.map Measured.height).foldr max 0 + 1 = height)
    (allowed : limits.allows height = true) :
    build limits node parts cursor = (.ok ⟨node, height⟩, cursor) := by
  subst height_eq
  unfold build
  simp only [allowed, if_true]
  rfl

end Parse

end SinosLang
