import SinosLang.Proofs.Parse.Abreast
import SinosLang.Proofs.Parse.Ends
import SinosLang.Proofs.Requests

/-!
# Tokens on demand

The parser asks for one token after the other and is never more than one ahead of what it has
consumed, while a tokenization asks for all of them at once. The parser comes upon a fault of the
lexer exactly where the tokenization does, unless it has failed before, and what it reports of its own
accord is about tokens that it has seen, so it lies before the fault. All this is said of one run
alone: it starts before a limit, behind which there is nothing or a failure that is known, and
reports nothing from behind the limit.

Main statements: `attributed_parse` for one parse and `parse_agrees_tokenize`.
-/

set_option autoImplicit false

namespace SinosLang

/-- The outcomes up to a limit: tokens that end before it and behind them a known failure, or the end
of the source if the limit is not before it. -/
inductive Cursor.Leads (limit : Nat) (known : Failure → Prop) (size : Nat) :
    List (Except Failure Token) → Prop
  | done : size ≤ limit → Leads limit known size []
  | token {token : Token} {later : List (Except Failure Token)} :
    token.span.stop ≤ limit → Leads limit known size later →
    Leads limit known size (.ok token :: later)
  | fault {failure : Failure} {later : List (Except Failure Token)} :
    known failure → Leads limit known size (.error failure :: later)

/-- A cursor that has seen nothing from behind a limit and has the outcomes up to the limit before
it. -/
structure Cursor.Before (limit : Nat) (known : Failure → Prop) (cursor : Cursor) : Prop where
  seen : ∀ token, cursor.lookahead = some token → token.span.stop ≤ limit
  leads : Leads limit known cursor.source.size (cursor.upcoming.map Reading.outcome)

/-- Spans that end before a limit. There is nothing to compare them with. -/
def Likeness.within (limit : Nat) : Likeness where
  start _ _ := True
  stop stop _ := stop ≤ limit
  view _ := Span.origin
  view' _ := Span.origin
  view_eq _ _ _ _ := rfl

/-- What a run before a limit may fail with: a known failure, no diagnostic at all, or a report of
the parser about something before the limit. -/
inductive Failure.Attributed (limit : Nat) (known : Failure → Prop) : Failure → Prop
  | known {failure : Failure} : known failure → Attributed limit known failure
  | broken {failure : Failure} : (∀ d, failure ≠ .diagnostic d) → Attributed limit known failure
  | report {d : Diagnostic} : d.fault.isLexical = false → d.span.stop ≤ limit →
    Attributed limit known (.diagnostic d)

namespace Parse

open Cursor (Before Leads)

variable (limit : Nat) (known : Failure → Prop)

/-- An action that stays before a limit. Its answers are among those that are alike to something;
the second action stands there only because a single run is taken for one of two. -/
def Stays ⦃α β : Type⦄ (R : α → β → Prop) (action : Parse α) (_ : Parse β) : Prop :=
  ∀ cursor, Before limit known cursor →
    Ends action cursor (fun value after => Before limit known after ∧ ∃ value', R value value')
      fun failure _ => failure.Attributed limit known

variable {limit known} {α β : Type} {R : α → β → Prop}

/-- A pull stays before the limit. -/
theorem stays_pull : Stays limit known (Likeness.within limit).Tokens pull pull := by
  intro cursor before
  have leads := before.leads
  cases more : cursor.upcoming with
  | nil =>
    rw [more] at leads
    cases leads with
    | done le =>
      have inside : cursor.endToken.span.stop ≤ limit := le
      refine .of_ok (pull_of_nil more) ⟨⟨?_, before.leads⟩, cursor.endToken, rfl, rfl, trivial, inside⟩
      rintro _ ⟨⟩
      exact inside
  | cons reading later =>
    rw [more, List.map_cons] at leads
    cases outcome_eq : reading.outcome with
    | ok token =>
      rw [outcome_eq] at leads
      cases leads with
      | token inside leads =>
        refine .of_ok (pull_of_token more outcome_eq) ⟨⟨?_, leads⟩, token, rfl, rfl, trivial, inside⟩
        rintro _ ⟨⟩
        exact inside
    | error failure =>
      rw [outcome_eq] at leads
      cases leads with
      | fault isKnown => exact .of_error (pull_of_failure more outcome_eq) (.known isKnown)

/-- A look at the token ahead stays before the limit. -/
theorem stays_current : Stays limit known (Likeness.within limit).Tokens current current := by
  intro cursor before
  cases full : cursor.lookahead with
  | some token =>
    exact .of_ok (current_of_lookahead full)
      ⟨before, token, rfl, rfl, trivial, before.seen token full⟩
  | none =>
    have isPull : current cursor = pull cursor := by
      unfold current
      rw [full]
    unfold Ends
    rw [isPull]
    exact stays_pull cursor before

/-- A failure without a diagnostic stays before the limit. -/
theorem stays_fail {failure : Failure} {action : Parse β}
    (noDiagnostic : ∀ d, failure ≠ .diagnostic d) :
    Stays limit known R (fail failure) action :=
  fun _ _ => .fail (.broken noDiagnostic)

/-- Every rule of the grammar stays before the limit. -/
theorem stays_simulation (limits : Limits) :
    Simulation (.within limit) limits limits (Stays limit known) where
  pure alike _ before := .pure ⟨before, _, alike⟩
  bind head tail cursor before := by
    refine .bind (head cursor before) ?_
    rintro value after ⟨before, value', alike⟩
    exact tail value value' alike after before
  current := stays_current
  pull := stays_pull
  report notLexical alike _ _ := .fail (.report notLexical alike.2)
  openBracket alike cursor before := by
    by_cases full : limits.isFull cursor.nesting = true
    · exact .of_error (if_pos full) (.report rfl alike.spans.2)
    · exact .of_ok (if_neg full) ⟨⟨before.seen, before.leads⟩, (), rfl⟩
  closeBracket cursor before := .of_ok rfl ⟨⟨before.seen, before.leads⟩, (), rfl⟩
  cover {start _ stop _} _ stops cursor before := by
    match run : cover start stop cursor with
    | (.error failure, after) => exact .of_error run (.broken (cover_error run))
    | (.ok span, after) =>
      obtain ⟨rfl, _, stop_eq⟩ := cover_ok run
      exact .of_ok run ⟨before, span, trivial, stop_eq.trans_le stops.2⟩
  build _ spans _ cursor before := by
    unfold build
    dsimp only
    split
    · exact .pure ⟨before, _, rfl, rfl, spans⟩
    · exact .fail (.report rfl spans.2)
  budget related cursor before := related _ 0 cursor before
  exhausted := stays_fail (by simp)
  exhausted_left _ := stays_fail (by simp)
  exhausted_right related := related

/-- A parse that starts before a limit fails as attributed to the limit, if it fails. -/
theorem attributed_of_before {source : Source} {failure : Failure}
    (before : (Cursor.start source).Before limit known) (failed : source.parse = .error failure) :
    failure.Attributed limit known := by
  have ends := (stays_simulation Limits.standard).program ⟨trivial, Nat.zero_le limit⟩ _ before
  unfold Source.parse Source.parseWithin at failed
  match run : program Limits.standard (Cursor.start source) with
  | (.ok result, after) =>
    rw [run] at failed
    cases failed
  | (.error cause, after) =>
    rw [run] at failed
    cases failed
    exact ends.error run

end Parse

/-- Tokens that end before a limit lead up to the end. -/
theorem Cursor.leads_of_tokens {limit size : Nat} {known : Failure → Prop} {tokens : List Token}
    (inside : ∀ token ∈ tokens, token.span.stop ≤ limit) (le : size ≤ limit) :
    Leads limit known size (tokens.map .ok) := by
  induction tokens with
  | nil => exact .done le
  | cons token tokens ih =>
    obtain ⟨here, later⟩ := List.forall_mem_cons.mp inside
    exact .token here (ih later)

namespace Stream

variable {stream finish : Stream} {final : Token} {e : Diagnostic}

/-- Where a tokenization fails, the tokens before the fault end before it. -/
theorem leads_readingsWithin {count : Nat} (ends : finish.endToken = .ok final) (size : Nat)
    (inside : stream.position ≤ stream.source.size)
    (failed : (Tokenization.ofReadings finish (stream.readingsWithin count)).failure =
      some (.diagnostic e)) :
    stream.position ≤ e.span.index ∧
      Cursor.Leads e.span.index (· = .diagnostic e) size
        ((stream.readingsWithin count).map Reading.outcome) := by
  have nothing {readings : List Reading} (empty : readings = []) :
      (Tokenization.ofReadings finish readings).failure ≠ some (.diagnostic e) := by
    rw [empty, Tokenization.ofReadings, ends]
    intro failed
    cases failed
  induction count generalizing stream with
  | zero => exact absurd failed (nothing rfl)
  | succ count ih =>
    by_cases atEnd : stream.skipTrivia.atEnd = true
    · exact absurd failed (nothing (readingsWithin_of_atEnd atEnd))
    · have goesOn := nextToken_goesOn inside atEnd
      have further : stream.position < stream.nextToken.2.position := goesOn.forward
      have within : stream.nextToken.2.position ≤ stream.nextToken.2.source.size := by
        rw [nextToken_source]
        exact goesOn.inside
      rw [readingsWithin_succ atEnd] at failed ⊢
      cases isNext : stream.nextToken.1 with
      | error failure =>
        rw [isNext] at failed
        cases failed
        exact ⟨position_le_of_nextToken atEnd isNext, .fault rfl⟩
      | ok token =>
        rw [isNext] at failed
        obtain ⟨le, leads⟩ := ih within failed
        have stop_eq : token.span.stop = stream.nextToken.2.position :=
          (goesOn.token token isNext).2.2
        exact ⟨further.le.trans le, .token (stop_eq.trans_le le) leads⟩

end Stream

namespace Source

variable {source : Source} {failure : Failure} {e : Diagnostic}

/-- Before a fault of the lexer a parse fails for the fault itself or for something before it. -/
theorem attributed_parse (faulty : source.tokenize.result = .error (.diagnostic e))
    (failed : source.parse = .error failure) :
    failure.Attributed e.span.index (· = .diagnostic e) := by
  obtain ⟨_, leads⟩ := Stream.leads_readingsWithin source.endToken_toEnd source.size (Nat.zero_le _)
    (Tokenization.result_eq_error_iff.mp faulty)
  exact Parse.attributed_of_before ⟨nofun, leads⟩ failed

/-- Where the lexer finds no fault, a parse fails for no fault of the lexer. -/
theorem not_lexical_of_parse {all : List Token} {d : Diagnostic}
    (split : source.tokenize.result = .ok all) (failed : source.parse = .error (.diagnostic d)) :
    d.fault.isLexical = false := by
  obtain ⟨tokens, lexes, _⟩ := tokenize_eq_ok_iff.mp split
  have holds := Cursor.holds_start lexes
  have leads : Cursor.Leads source.size (fun _ => False) source.size
      ((Cursor.start source).upcoming.map Reading.outcome) := by
    have pending_eq : (Cursor.start source).upcoming.map Reading.outcome = tokens.map .ok :=
      holds.pending_eq
    rw [pending_eq]
    exact Cursor.leads_of_tokens holds.inside le_rfl
  cases Parse.attributed_of_before ⟨nofun, leads⟩ failed with
  | known isKnown => exact isKnown.elim
  | broken noDiagnostic => exact absurd rfl (noDiagnostic d)
  | report notLexical _ => exact notLexical

/-- What is not split into tokens is rejected, for the same fault or for something before it. -/
theorem parse_of_tokenize_error (faulty : source.tokenize.result = .error failure) :
    ∃ e d, failure = .diagnostic e ∧ e.fault.isLexical = true ∧ e.span.index < source.size ∧
      source.parse = .error (.diagnostic d) ∧
      (d = e ∨ d.fault.isLexical = false ∧ d.span.stop ≤ e.span.index) := by
  obtain ⟨e, rfl, isLexical, filled, inside⟩ := tokenize_fault faulty
  cases parsed : source.parse with
  | ok tree =>
    obtain ⟨tokens, lexes, _⟩ := parse_eq_ok_iff.mp parsed
    rw [tokenize_eq_ok_iff.mpr ⟨tokens, lexes, rfl⟩] at faulty
    cases faulty
  | error failure =>
    obtain ⟨d, rfl, _⟩ := parse_error parsed
    refine ⟨e, d, rfl, isLexical, (Nat.lt_add_of_pos_right filled).trans_le inside, rfl, ?_⟩
    cases attributed_parse faulty parsed with
    | known same => exact .inl (Failure.diagnostic.inj same)
    | broken noDiagnostic => exact absurd rfl (noDiagnostic d)
    | report notLexical le => exact .inr ⟨notLexical, le⟩

/-- The parser, which asks for tokens on demand, and a tokenization, which asks for all of them, agree
about the faults of the lexer. If a source is accepted, or rejected by the parser itself for
something that reaches to the end, then it is split into tokens. If it is not, then it is rejected:
for the same fault or by the parser itself for something before the fault. And it is rejected for a
fault of the lexer only if it is not split into tokens for the same fault. -/
theorem parse_agrees_tokenize (source : Source) :
    ((∃ tree, source.parse = .ok tree) ∨ (∃ d, source.parse = .error (.diagnostic d) ∧
        d.fault.isLexical = false ∧ d.span.stop = source.size) →
      ∃ all, source.tokenize.result = .ok all) ∧
    (∀ failure, source.tokenize.result = .error failure →
      ∃ e, failure = .diagnostic e ∧ e.fault.isLexical = true ∧
        ∃ d, source.parse = .error (.diagnostic d) ∧
          (d = e ∨ d.fault.isLexical = false ∧ d.span.stop ≤ e.span.index)) ∧
    ∀ d, source.parse = .error (.diagnostic d) → d.fault.isLexical = true →
      source.tokenize.result = .error (.diagnostic d) := by
  refine ⟨?_, ?_, ?_⟩
  · intro reached
    cases split : source.tokenize.result with
    | ok all => exact ⟨all, rfl⟩
    | error failure =>
      obtain ⟨e, d, _, isLexical, early, failed, isEarlier⟩ := parse_of_tokenize_error split
      rcases reached with ⟨tree, parsed⟩ | ⟨d', failed', notLexical, atEnd⟩
      · rw [parsed] at failed
        cases failed
      · rw [failed'] at failed
        cases failed
        rcases isEarlier with rfl | ⟨_, le⟩
        · rw [isLexical] at notLexical
          cases notLexical
        · omega
  · intro failure faulty
    obtain ⟨e, d, isSame, isLexical, _, failed, isEarlier⟩ := parse_of_tokenize_error faulty
    exact ⟨e, isSame, isLexical, d, failed, isEarlier⟩
  · intro d failed isLexical
    cases split : source.tokenize.result with
    | ok all =>
      rw [not_lexical_of_parse split failed] at isLexical
      cases isLexical
    | error failure =>
      obtain ⟨e, d', rfl, _, _, failed', isEarlier⟩ := parse_of_tokenize_error split
      rw [failed] at failed'
      cases failed'
      rcases isEarlier with rfl | ⟨notLexical, _⟩
      · rfl
      · rw [isLexical] at notLexical
        cases notLexical

/-- An open block at the end is no fault of the lexer, a character that belongs to no token is one,
and a missing semicolon is reported before such a character is read. -/
theorem parse_agrees_tokenize_character :
    (∃ all, (ofText [] "\x7bx".toList).tokenize.result = .ok all) ∧
    (∃ e d, (ofText [] "x y @".toList).tokenize.result = .error (.diagnostic e) ∧
      (ofText [] "x y @".toList).parse = .error (.diagnostic d) ∧
      (d = e ∨ d.fault.isLexical = false ∧ d.span.stop ≤ e.span.index)) ∧
    (ofText [] "x @".toList).tokenize.result = .error (.diagnostic ⟨.unexpectedChar, ⟨2, 1⟩⟩) := by
  have atEnd : (ofText [] "\x7bx".toList).parse =
      .error (.diagnostic ⟨.expectSemi, ⟨2, 0⟩⟩) := by cbv
  have faulty : (ofText [] "x y @".toList).tokenize.result =
      .error (.diagnostic ⟨.unexpectedChar, ⟨4, 1⟩⟩) := by cbv
  have failed : (ofText [] "x @".toList).parse =
      .error (.diagnostic ⟨.unexpectedChar, ⟨2, 1⟩⟩) := by cbv
  refine ⟨?_, ?_, ?_⟩
  · exact (parse_agrees_tokenize _).1 (.inr ⟨_, atEnd, rfl, rfl⟩)
  · obtain ⟨e, same, _, d, rejected, isEarlier⟩ := (parse_agrees_tokenize _).2.1 _ faulty
    exact ⟨e, d, faulty.trans (congrArg _ same), rejected, isEarlier⟩
  · exact (parse_agrees_tokenize _).2.2 _ failed rfl

end Source

end SinosLang
