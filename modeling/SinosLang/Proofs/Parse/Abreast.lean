import SinosLang.Proofs.Parse.Simulation
import SinosLang.Proofs.Parse.Soundness

/-!
# Cursors that keep abreast

Two cursors are abreast if they have tokens of the same kinds and values before them, at spans that
are alike, and as many brackets open. They may be abreast up to a cut only, behind which their tokens
have nothing to do with each other. From such cursors every rule of the grammar keeps the two runs
abreast: both answer alike or report the same fault at spans that are alike. Excepted are a first run
that comes to the cut or that fails in a way that is excused, and a second one that fails without a
diagnostic.

Main statement: `alongside_simulation`.
-/

set_option autoImplicit false

namespace SinosLang

/-- How many tokens a cursor may still show; the end is not counted. -/
def Cursor.remaining (cursor : Cursor) : Nat :=
  match cursor.lookahead with
  | none => cursor.upcoming.length
  | some token => if token.kind = .eof then cursor.upcoming.length else cursor.upcoming.length + 1

/-- Two cursors before tokens that are alike, up to those behind a cut. The cut is given by the
number of tokens that the first cursor shows last before it, which is never zero; without a cut the
tokens are alike up to the end. -/
structure Cursor.Abreast (like : Likeness) (cut : Nat) (first second : Cursor) : Prop where
  lookahead : Option.Rel like.Tokens first.lookahead second.lookahead
  nesting_eq : first.nesting = second.nesting
  endToken : like.Tokens first.endToken second.endToken
  upcoming : ∃ shared shared' later later',
    first.upcoming.map Reading.outcome = shared.map .ok ++ later ∧
    second.upcoming.map Reading.outcome = shared'.map .ok ++ later' ∧
    List.Forall₂ like.Tokens shared shared' ∧ (cut = later.length + 1 ∨ later = [] ∧ later' = [])

namespace Cursor

variable {cursor : Cursor}

/-- What is still to be read of a source is at most what may still be shown. -/
theorem length_upcoming_le (cursor : Cursor) : cursor.upcoming.length ≤ cursor.remaining := by
  unfold remaining
  split
  · exact le_rfl
  · split
    · exact le_rfl
    · exact Nat.le_succ _

/-- Of what may still be shown, all but one token is still to be read. -/
theorem remaining_le (cursor : Cursor) : cursor.remaining ≤ cursor.upcoming.length + 1 := by
  unfold remaining
  split
  · exact Nat.le_succ _
  · split
    · exact Nat.le_succ _
    · exact le_rfl

/-- Pulling leaves no more than was behind the slot. -/
theorem remaining_pull_le (cursor : Cursor) :
    (Parse.pull cursor).2.remaining ≤ cursor.upcoming.length := by
  cases more : cursor.upcoming with
  | nil =>
    rw [Parse.pull_of_nil more]
    simp [remaining, endToken, more]
  | cons reading later =>
    cases outcome_eq : reading.outcome with
    | ok token =>
      rw [Parse.pull_of_token more outcome_eq]
      exact remaining_le _
    | error failure =>
      rw [Parse.pull_of_failure more outcome_eq]
      exact remaining_le _

/-- Looking ahead does not bring the cut nearer. -/
theorem remaining_current_le (cursor : Cursor) :
    (Parse.current cursor).2.remaining ≤ cursor.remaining := by
  unfold Parse.current
  split
  next => exact le_rfl
  next => exact (remaining_pull_le cursor).trans (length_upcoming_le cursor)

end Cursor

namespace Parse

open Cursor (Abreast)

variable (like : Likeness) (cut : Nat) (excused : Failure → Prop)

/-- How two runs end that keep abreast. -/
inductive Keeps {α β : Type} (R : α → β → Prop) :
    Except Failure α × Cursor → Except Failure β × Cursor → Prop
  | past {run : Except Failure α × Cursor} {run' : Except Failure β × Cursor} :
    run.2.remaining < cut → Keeps R run run'
  | excused {failure : Failure} {after : Cursor} {run' : Except Failure β × Cursor} :
    excused failure → Keeps R (.error failure, after) run'
  | broken {run : Except Failure α × Cursor} {failure : Failure} {after' : Cursor} :
    (∀ d, failure ≠ .diagnostic d) → Keeps R run (.error failure, after')
  | answers {value : α} {value' : β} {after after' : Cursor} :
    R value value' → Abreast like cut after after' →
    Keeps R (.ok value, after) (.ok value', after')
  | rejects {fault : Fault} {span span' : Span} {after after' : Cursor} :
    like.Spans span span' → Abreast like cut after after' →
    Keeps R (.error (.diagnostic ⟨fault, span⟩), after) (.error (.diagnostic ⟨fault, span'⟩), after')

/-- Two actions that keep abreast. Where there is a cut, the first one does not come back from
behind it, and each of its answers has a counterpart, so that whatever goes on from there does not
come back either. -/
structure Alongside {α β : Type} (R : α → β → Prop) (action : Parse α) (action' : Parse β) :
    Prop where
  stays : 0 < cut → ∀ cursor, (action cursor).2.remaining ≤ cursor.remaining ∧
    ∀ value, (action cursor).1 = .ok value → ∃ value', R value value'
  keeps : ∀ ⦃first second : Cursor⦄, Abreast like cut first second →
    Keeps like cut excused R (action first) (action' second)

variable {like cut excused} {α β : Type} {R : α → β → Prop} {action : Parse α} {action' : Parse β}

/-- Answers that are alike keep abreast. -/
theorem alongside_pure {value : α} {value' : β} (alike : R value value') :
    Alongside like cut excused R (pure value) (pure value') where
  stays _ cursor := ⟨le_rfl, by rintro _ ⟨⟩; exact ⟨value', alike⟩⟩
  keeps _ _ abreast := .answers alike abreast

/-- Reports of one fault at spans that are alike keep abreast. -/
theorem alongside_report (fault : Fault) {span span' : Span} (alike : like.Spans span span') :
    Alongside like cut excused R (report fault span) (report fault span') where
  stays _ cursor := ⟨le_rfl, by rintro _ ⟨⟩⟩
  keeps _ _ abreast := .rejects alike abreast

/-- An action that fails in a way that is excused is abreast of any other. -/
theorem alongside_excused {failure : Failure} (isExcused : excused failure) :
    Alongside like cut excused R (fail failure) action' where
  stays _ cursor := ⟨le_rfl, by rintro _ ⟨⟩⟩
  keeps _ _ _ := .excused isExcused

/-- Where the first action comes behind the cut, it stays there. -/
theorem alongside_bind {α' β' : Type} {S : α' → β' → Prop} {next : α → Parse α'}
    {next' : β → Parse β'} (head : Alongside like cut excused R action action')
    (tail : ∀ value value', R value value' →
      Alongside like cut excused S (next value) (next' value')) :
    Alongside like cut excused S (action >>= next) (action' >>= next') := by
  constructor
  · intro isCut cursor
    have stays := head.stays isCut cursor
    match run : action cursor with
    | (.error failure, after) =>
      rw [bind_apply_of_error run]
      rw [run] at stays
      exact ⟨stays.1, by rintro _ ⟨⟩⟩
    | (.ok value, after) =>
      rw [bind_apply_of_ok run]
      rw [run] at stays
      obtain ⟨value', alike⟩ := stays.2 value rfl
      obtain ⟨le, counterparts⟩ := (tail value value' alike).stays isCut after
      exact ⟨le.trans stays.1, counterparts⟩
  · intro first second abreast
    have keeps := head.keeps abreast
    have stays (isCut : 0 < cut) := head.stays isCut first
    generalize run : action first = ended at keeps stays
    generalize run' : action' second = ended' at keeps
    cases keeps with
    | past reached =>
      have isCut : 0 < cut := Nat.zero_lt_of_lt reached
      obtain ⟨outcome, after⟩ := ended
      refine .past ?_
      cases outcome with
      | error failure =>
        rw [bind_apply_of_error run]
        exact reached
      | ok value =>
        rw [bind_apply_of_ok run]
        obtain ⟨value', alike⟩ := (stays isCut).2 value rfl
        exact ((tail value value' alike).stays isCut after).1.trans_lt reached
    | excused isExcused =>
      rw [bind_apply_of_error run]
      exact .excused isExcused
    | broken noDiagnostic =>
      rw [bind_apply_of_error run']
      exact .broken noDiagnostic
    | answers alike abreast' =>
      rw [bind_apply_of_ok run, bind_apply_of_ok run']
      exact (tail _ _ alike).keeps abreast'
    | rejects alike abreast' =>
      rw [bind_apply_of_error run, bind_apply_of_error run']
      exact .rejects alike abreast'

/-- A number of rounds may be asked for on either side. -/
theorem alongside_budget {next : Nat → Parse α} {next' : Nat → Parse β}
    (related : ∀ rounds rounds', Alongside like cut excused R (next rounds) (next' rounds')) :
    Alongside like cut excused R (budget >>= next) (budget >>= next') where
  stays isCut cursor := (related _ 0).stays isCut cursor
  keeps _ _ abreast := (related _ _).keeps abreast

/-- A second action that runs out of rounds is abreast of whatever some action is abreast of. -/
theorem alongside_exhausted (related : Alongside like cut excused R action action') :
    Alongside like cut excused R action (fail .depthExhausted) where
  stays := related.stays
  keeps _ _ _ := .broken fun _ isDiagnostic => by cases isDiagnostic

section Steps

variable (reflexive : 0 < cut → ∀ span, like.Spans span span)
include reflexive

/-- A token that both cursors share is pulled from both; with any other one the first run comes to
the cut. -/
theorem alongside_pull : Alongside like cut excused like.Tokens pull pull := by
  constructor
  · intro isCut cursor
    refine ⟨(Cursor.remaining_pull_le cursor).trans (Cursor.length_upcoming_le cursor), ?_⟩
    intro token _
    exact ⟨token, rfl, rfl, reflexive isCut _⟩
  · intro first second abreast
    obtain ⟨shared, shared', later, later', first_eq, second_eq, alike, atCut⟩ := abreast.upcoming
    cases alike with
    | cons isAlike others =>
      obtain ⟨_, _, more, isToken, rest_eq⟩ := List.map_eq_cons_iff.mp first_eq
      obtain ⟨_, _, more', isToken', rest_eq'⟩ := List.map_eq_cons_iff.mp second_eq
      rw [pull_of_token more isToken, pull_of_token more' isToken']
      exact .answers isAlike ⟨.some isAlike, abreast.nesting_eq, abreast.endToken, _, _, later,
        later', rest_eq, rest_eq', others, atCut⟩
    | nil =>
      rcases atCut with cut_eq | ⟨rfl, rfl⟩
      · have length_eq : first.upcoming.length = later.length := by
          simpa using congrArg List.length first_eq
        have le := Cursor.remaining_pull_le first
        exact .past (by omega)
      · rw [pull_of_nil (List.map_eq_nil_iff.mp first_eq),
          pull_of_nil (List.map_eq_nil_iff.mp second_eq)]
        exact .answers abreast.endToken
          ⟨.some abreast.endToken, abreast.nesting_eq, abreast.endToken, abreast.upcoming⟩

/-- Two looks at the token ahead keep abreast. -/
theorem alongside_current : Alongside like cut excused like.Tokens current current := by
  constructor
  · intro isCut cursor
    refine ⟨Cursor.remaining_current_le cursor, ?_⟩
    intro token _
    exact ⟨token, rfl, rfl, reflexive isCut _⟩
  · intro first second abreast
    have sees := abreast.lookahead
    unfold current
    cases held : first.lookahead <;> cases held' : second.lookahead <;> rw [held, held'] at sees <;>
      cases sees
    · exact (alongside_pull reflexive).keeps abreast
    · rename_i isAlike
      exact .answers isAlike abreast

omit reflexive in
/-- A span that cannot be made is no diagnostic. -/
theorem cover_error {start stop : Span} {cursor after : Cursor} {failure : Failure}
    (run : cover start stop cursor = (.error failure, after)) : ∀ d, failure ≠ .diagnostic d := by
  intro d isDiagnostic
  unfold cover at run
  cases made : cursor.source.cover start stop with
  | ok span =>
    rw [made] at run
    cases run
  | error error =>
    rw [made] at run
    cases run
    cases isDiagnostic

/-- What it takes for a second run to get as far as a first one: failures without a diagnostic are
excused, and so is too deep a nesting unless both runs are under the same limits. -/
structure Lenient (excused : Failure → Prop) (limits limits' : Limits) : Prop where
  noDiagnostic : ∀ failure, (∀ d, failure ≠ .diagnostic d) → excused failure
  limits_eq : limits = limits' ∨
    limits' = Limits.unlimited ∧ ∀ span, excused (.diagnostic ⟨.tooDeep, span⟩)

variable {limits limits' : Limits} (lenient : Lenient excused limits limits')
include lenient

/-- The spans that two sources have between spans that are alike are alike. -/
theorem alongside_cover {start start' stop stop' : Span} (starts : like.Spans start start')
    (stops : like.Spans stop stop') :
    Alongside like cut excused like.Spans (cover start stop) (cover start' stop') := by
  constructor
  · intro isCut cursor
    exact ⟨le_rfl, fun span _ => ⟨span, reflexive isCut _⟩⟩
  · intro first second abreast
    match run : cover start stop first, run' : cover start' stop' second with
    | (.error failure, after), _ => exact .excused (lenient.noDiagnostic _ (cover_error run))
    | (.ok span, after), (.error failure, after') => exact .broken (cover_error run')
    | (.ok span, after), (.ok span', after') =>
      obtain ⟨rfl, index_eq, stop_eq⟩ := cover_ok run
      obtain ⟨rfl, index_eq', stop_eq'⟩ := cover_ok run'
      refine .answers ⟨?_, ?_⟩ abreast
      · rw [index_eq, index_eq']
        exact starts.1
      · rw [stop_eq, stop_eq']
        exact stops.2

omit reflexive in
/-- Two brackets opened under limits of which the second are no tighter keep abreast. -/
theorem alongside_openBracket {bracket bracket' : Token} (brackets : like.Tokens bracket bracket') :
    Alongside like cut excused Eq (openBracket limits bracket) (openBracket limits' bracket') := by
  constructor
  · intro _ cursor
    unfold openBracket
    split
    · exact ⟨le_rfl, by rintro _ ⟨⟩⟩
    · exact ⟨le_rfl, fun _ _ => ⟨(), rfl⟩⟩
  · intro first second abreast
    have opened : Abreast like cut { first with nesting := first.nesting + 1 }
        { second with nesting := second.nesting + 1 } :=
      ⟨abreast.lookahead, congrArg (· + 1) abreast.nesting_eq, abreast.endToken, abreast.upcoming⟩
    unfold openBracket
    rcases lenient.limits_eq with rfl | ⟨rfl, isExcused⟩
    · rw [← abreast.nesting_eq]
      split
      · exact .rejects brackets.spans abreast
      · rw [← abreast.nesting_eq] at opened
        exact .answers rfl opened
    · split
      · exact .excused (isExcused _)
      · exact .answers rfl opened

omit reflexive in
/-- Two nodes that are alike are built abreast, if their parts are alike. -/
theorem alongside_build {node node' : Node} {parts parts' : List Measured}
    (nodes : node.mapSpans like.view = node'.mapSpans like.view')
    (spans : like.Spans node.span node'.span) (alike : List.Forall₂ like.Trees parts parts') :
    Alongside like cut excused like.Trees (build limits node parts) (build limits' node' parts') := by
  have heights := Likeness.map_height alike
  have trees (height : Nat) : like.Trees ⟨node, height⟩ ⟨node', height⟩ := ⟨nodes, rfl, spans⟩
  unfold build
  rw [← heights]
  dsimp only
  generalize (parts.map Measured.height).foldr max 0 + 1 = height
  rcases lenient.limits_eq with rfl | ⟨rfl, isExcused⟩
  · split
    · exact alongside_pure (trees height)
    · exact alongside_report .tooDeep spans
  · split
    · exact alongside_pure (trees height)
    · exact alongside_excused (isExcused _)

/-- Every rule of the grammar keeps cursors abreast. -/
theorem alongside_simulation :
    Simulation like limits limits' fun _ _ R => Alongside like cut excused R where
  pure := alongside_pure
  bind := alongside_bind
  current := alongside_current reflexive
  pull := alongside_pull reflexive
  report _ := alongside_report _
  openBracket := alongside_openBracket lenient
  closeBracket :=
    { stays := fun _ _ => ⟨le_rfl, fun _ _ => ⟨(), rfl⟩⟩
      keeps := fun _ _ abreast => .answers rfl ⟨abreast.lookahead,
        congrArg (· - 1) abreast.nesting_eq, abreast.endToken, abreast.upcoming⟩ }
  cover := alongside_cover reflexive lenient
  build := alongside_build lenient
  budget := alongside_budget
  exhausted := alongside_excused (lenient.noDiagnostic _ fun _ isDiagnostic => by cases isDiagnostic)
  exhausted_left _ :=
    alongside_excused (lenient.noDiagnostic _ fun _ isDiagnostic => by cases isDiagnostic)
  exhausted_right := alongside_exhausted

end Steps

/-- Once all statements have been read, the whole program is built over the whole source. -/
theorem program_of_allStatements {limits : Limits} {cursor after : Cursor}
    {results : List Measured} (consistent : cursor.Consistent)
    (run : allStatements limits cursor = (.ok results, after)) :
    program limits cursor =
      build limits (.module ⟨0, cursor.source.size⟩ (results.map Measured.node)) results after := by
  obtain ⟨tokens, nodes, _, moves, _, _, finish, ahead, isEnd⟩ :=
    statements_ok (expressionWithin_sound _) (fun _ _ derived => derived.placed_span) consistent run
  obtain ⟨_, rfl⟩ := moves.consistent.finish finish ahead isEnd
  have covered : cover ⟨0, 0⟩ after.endToken.span after =
      (.ok ⟨0, cursor.source.size⟩, after) := by
    rw [← moves.source_eq]
    exact cover_eq rfl (by simp [Span.stop, Cursor.endToken]) (by simp [Span.stop])
  rw [program_eq, bind_apply_of_ok run, wholeProgram,
    bind_apply_of_ok (current_of_lookahead ahead), bind_apply_of_ok covered]

end Parse

end SinosLang
