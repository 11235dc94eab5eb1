import SinosLang.Proofs.Parse.Steps
import SinosLang.Proofs.Parse.Cursor
import Mathlib

/-!
# Nesting is balanced

The nesting of a cursor is a bare number. It is compared here with the brackets themselves, which
are read off the log of a run: those that have been opened and not closed. A rule that succeeds has
closed all of its own; one that fails has left some open, and by so many the nesting has grown.

Main statement: `nesting_balanced`.
-/

set_option autoImplicit false

namespace SinosLang.Parse

/-! ## The brackets of a log -/

/-- The brackets that are open after an event, the innermost one first. -/
def Event.brackets (enclosing : List Token) : Event → List Token
  | .opens bracket => bracket :: enclosing
  | .closes => enclosing.tail
  | .looks _ | .takes _ | .stumbles _ | .refuses _ => enclosing

/-- The brackets that are open after a log that begins inside of others. -/
def openWithin (enclosing : List Token) (log : List Moment) : List Token :=
  log.foldl (fun brackets moment => moment.event.brackets brackets) enclosing

/-- The brackets that a log opens and does not close. -/
def unclosed (log : List Moment) : List Token :=
  openWithin [] log

/-- An event closes only a bracket that is open. -/
def Event.Fits (enclosing : List Token) : Event → Prop
  | .closes => enclosing ≠ []
  | .opens _ | .looks _ | .takes _ | .stumbles _ | .refuses _ => True

/-- Whatever a log closes is open. -/
def Matched : List Token → List Moment → Prop
  | _, [] => True
  | enclosing, moment :: log =>
    moment.event.Fits enclosing ∧ Matched (moment.event.brackets enclosing) log

section Brackets

variable {enclosing : List Token} {log later : List Moment}

/-- The brackets that are open after two logs are those that the second leaves open within those of
the first. -/
theorem openWithin_append :
    openWithin enclosing (log ++ later) = openWithin (openWithin enclosing log) later :=
  List.foldl_append

/-- Two logs in a row are matched if the first is, and the second within what the first leaves
open. -/
theorem matched_append :
    Matched enclosing (log ++ later) ↔
      Matched enclosing log ∧ Matched (openWithin enclosing log) later := by
  induction log generalizing enclosing with
  | nil => simp [Matched, openWithin]
  | cons moment log ih => simp [Matched, openWithin, ih, and_assoc]

/-- A matched log is matched up to every moment of it. -/
theorem Matched.upTo {past : List Moment} (matched : Matched enclosing log)
    (begins : past <+: log) : Matched enclosing past := by
  obtain ⟨rest, rfl⟩ := begins
  exact (matched_append.mp matched).1

/-- A moment that asks for a token closes nothing that is not open. -/
theorem matched_ofToken (event : Token → Event) (fits : ∀ token, (event token).Fits enclosing)
    (outcome : Except Failure Token × Cursor) :
    Matched enclosing [Moment.ofToken event outcome] := by
  obtain ⟨failure | token, after⟩ := outcome
  · exact ⟨trivial, trivial⟩
  · exact ⟨fits token, trivial⟩

end Brackets

/-! ## What a move does to the nesting -/

section Moves

variable {limits : Limits} {cursor after final : Cursor} {moment : Moment} {log : List Moment}

/-- What keeps the nesting has kept it. -/
theorem nesting_of_run {α : Type} {action : Parse α} {outcome : Except Failure α}
    (keeps : ∀ cursor, (action cursor).2.nesting = cursor.nesting)
    (run : action cursor = (outcome, after)) : after.nesting = cursor.nesting := by
  rw [← keeps cursor, run]

/-- A move raises the nesting where it opens a bracket and lowers it where it closes one. -/
theorem Move.nesting_eq {enclosing : List Token} {base : Int} (move : Move limits cursor moment)
    (fits : moment.event.Fits enclosing)
    (counted : cursor.nesting = base + enclosing.length) :
    moment.after.nesting = base + (moment.event.brackets enclosing).length := by
  cases move with
  | looks run | looksInVain run => exact (nesting_of_run nesting_current run).trans counted
  | takes run | takesInVain run => exact (nesting_of_run nesting_advance run).trans counted
  | opens run =>
    obtain ⟨-, rfl⟩ := openBracket_eq_ok run
    show cursor.nesting + 1 = base + ((_ :: enclosing).length : Int)
    rw [counted, List.length_cons]
    omega
  | refuses run =>
    cases openBracket_eq_error run
    exact counted
  | closes run =>
    cases run
    have someOpen := List.length_pos_iff.mpr fits
    show cursor.nesting - 1 = base + (enclosing.tail.length : Int)
    rw [counted, List.length_tail]
    omega

/-- Along a path, the nesting counts the brackets that are open. -/
theorem Path.nesting_eq {enclosing : List Token} {base : Int} (path : Path limits cursor log final)
    (matched : Matched enclosing log) (counted : cursor.nesting = base + enclosing.length) :
    final.nesting = base + (openWithin enclosing log).length := by
  induction path generalizing enclosing with
  | stay => exact counted
  | move made _ ih => exact ih matched.2 (made.nesting_eq matched.1 counted)

/-- No move exceeds the limit of brackets. -/
theorem Move.nesting_le {most : Nat} (move : Move limits cursor moment)
    (limited : limits.brackets = some most) (le : cursor.nesting ≤ most) :
    moment.after.nesting ≤ most := by
  cases move with
  | looks run | looksInVain run => exact (nesting_of_run nesting_current run).trans_le le
  | takes run | takesInVain run => exact (nesting_of_run nesting_advance run).trans_le le
  | opens run =>
    obtain ⟨room, rfl⟩ := openBracket_eq_ok run
    rw [Limits.isFull, limited] at room
    have : cursor.nesting < most := Int.not_le.mp (of_decide_eq_false room)
    show cursor.nesting + 1 ≤ most
    omega
  | refuses run =>
    cases openBracket_eq_error run
    exact le
  | closes run =>
    cases run
    show cursor.nesting - 1 ≤ most
    omega

/-- Along a path, no more brackets are open than the limit admits. -/
theorem Path.nesting_le {most : Nat} (path : Path limits cursor log final)
    (limited : limits.brackets = some most) (le : cursor.nesting ≤ most) :
    final.nesting ≤ most := by
  induction path with
  | stay => exact le
  | move made _ ih => exact ih (made.nesting_le limited le)

end Moves

/-! ## Brackets that are opened are closed -/

/-- An action closes only what is open, and if it answers, it has closed as many brackets as it was
to leave, and all that it has opened itself. -/
theorem Steps.matched {limits : Limits} {debt : Nat} {α : Type} {action : Parse α}
    (steps : Steps limits debt action) (cursor : Cursor) (enclosing : List Token)
    (enough : debt ≤ enclosing.length) :
    Matched enclosing (steps.log cursor) ∧
      ∀ value after, action cursor = (.ok value, after) →
        openWithin enclosing (steps.log cursor) = enclosing.drop debt := by
  induction steps generalizing cursor enclosing with
  | still => exact ⟨trivial, fun _ _ _ => rfl⟩
  | look =>
    refine ⟨matched_ofToken .looks (fun _ => trivial) _, fun value after run => ?_⟩
    rw [log, run]
    rfl
  | take =>
    refine ⟨matched_ofToken .takes (fun _ => trivial) _, fun value after run => ?_⟩
    rw [log, run]
    rfl
  | @andThen debt _ _ first next steps rest ihFirst ihRest =>
    -- What comes first owes nothing: the rest begins inside of the same brackets.
    obtain ⟨before, closed⟩ := ihFirst cursor enclosing (Nat.zero_le _)
    rw [log, matched_append, openWithin_append]
    rcases run : first cursor with ⟨failure | value, middle⟩
    · refine ⟨⟨before, trivial⟩, fun value after done => ?_⟩
      rw [bind_apply_of_error run] at done
      cases done
    · rw [closed value middle run, List.drop_zero, bind_apply_of_ok run]
      obtain ⟨behind, left⟩ := ihRest value middle enclosing enough
      exact ⟨⟨before, behind⟩, left⟩
  | @enter debt _ bracket next inside ih =>
    rw [log]
    rcases run : openBracket limits bracket cursor with ⟨failure | ⟨⟩, middle⟩
    · refine ⟨⟨trivial, trivial⟩, fun value after done => ?_⟩
      rw [bind_apply_of_error run] at done
      cases done
    · rw [bind_apply_of_ok run]
      obtain ⟨behind, left⟩ := ih middle (bracket :: enclosing) (Nat.succ_le_succ enough)
      exact ⟨⟨trivial, behind⟩, left⟩
  | @leave debt _ next outside ih =>
    cases enclosing with
    | nil => cases enough
    | cons bracket enclosing =>
      obtain ⟨behind, left⟩ := ih (closeBracket cursor).2 enclosing (Nat.le_of_succ_le_succ enough)
      exact ⟨⟨List.cons_ne_nil _ _, behind⟩, left⟩

/-! ## Calls of the parser -/

/-- What the parser can be called for: a rule of the grammar, or the rest of a statement behind an
expression that is already there. -/
inductive Call
  | parse (rule : Rule)
  | finish (expr : Measured)

namespace Call

variable (limits : Limits)

/-- What the parser does when it is called. -/
def action : Call → Parse Measured
  | parse rule => rule.action limits
  | finish expr => expressionStatement limits expr

/-- A call taken apart. -/
def steps : (call : Call) → Steps limits 0 (call.action limits)
  | parse rule => rule.steps limits
  | finish expr => Steps.expressionStatement expr

/-- The log of a call from a cursor. -/
def log (call : Call) (cursor : Cursor) : List Moment :=
  (call.steps limits).log cursor

/-- The cursor after calls that are made one after another, whether or not they succeed. -/
def runAll (calls : List Call) (cursor : Cursor) : Cursor :=
  calls.foldl (fun cursor call => (call.action limits cursor).2) cursor

/-- The log of calls that are made one after another, whether or not they succeed. -/
def logAll : List Call → Cursor → List Moment
  | [], _ => []
  | call :: calls, cursor =>
    call.log limits cursor ++ logAll calls (call.action limits cursor).2

variable {limits : Limits}

/-- The log of calls is a path to the cursor behind them. -/
theorem path_logAll (calls : List Call) (cursor : Cursor) :
    Path limits cursor (logAll limits calls cursor) (runAll limits calls cursor) := by
  induction calls generalizing cursor with
  | nil => exact .stay cursor
  | cons call calls ih => exact ((call.steps limits).path cursor).append (ih _)

/-- The log of calls is matched, whatever brackets are open before. -/
theorem matched_logAll (calls : List Call) (cursor : Cursor) {enclosing : List Token} :
    Matched enclosing (logAll limits calls cursor) := by
  induction calls generalizing cursor enclosing with
  | nil => trivial
  | cons call calls ih =>
    exact matched_append.mpr ⟨((call.steps limits).matched cursor _ (Nat.zero_le _)).1, ih _⟩

/-- The nesting after a call has grown by the brackets that it has left open. -/
theorem nesting_eq (limits : Limits) (call : Call) (cursor : Cursor) :
    (call.action limits cursor).2.nesting =
      cursor.nesting + (unclosed (call.log limits cursor)).length :=
  ((call.steps limits).path cursor).nesting_eq
    ((call.steps limits).matched cursor _ (Nat.zero_le _)).1 (Int.add_zero _).symm

/-- A call that succeeds leaves no bracket open. -/
theorem unclosed_of_ok {call : Call} {cursor after : Cursor} {tree : Measured}
    (run : call.action limits cursor = (.ok tree, after)) :
    unclosed (call.log limits cursor) = [] :=
  ((call.steps limits).matched cursor _ (Nat.zero_le _)).2 tree after run

/-- At every moment of a sequence of calls on a fresh cursor, the nesting is the number of brackets
that are open. -/
theorem nesting_eq_of_moment {source : Source} {calls : List Call} {past : List Moment}
    {moment : Moment}
    (reached : past ++ [moment] <+: logAll limits calls (Cursor.start source)) :
    moment.after.nesting = (unclosed (past ++ [moment])).length := by
  have fresh : (Cursor.start source).nesting = 0 + ([] : List Token).length := rfl
  have counted := ((path_logAll calls _).upTo reached).nesting_eq
    ((matched_logAll calls _).upTo reached) fresh
  rw [counted, Int.zero_add]
  rfl

/-- At every moment of any calls, no more brackets are open than the limit admits. -/
theorem nesting_le_of_moment {source : Source} {calls : List Call} {past : List Moment}
    {moment : Moment} {most : Nat} (limited : limits.brackets = some most)
    (reached : past ++ [moment] <+: logAll limits calls (Cursor.start source)) :
    moment.after.nesting ≤ most :=
  ((path_logAll calls _).upTo reached).nesting_le limited (Int.natCast_nonneg most)

end Call

/-- From any cursor, a call that succeeds leaves the nesting as it was, and one that fails raises it
by the brackets that it has opened and not closed; the log that tells of them is a path of single
moves to where the call ends. On a fresh cursor, at every moment of any calls one after another,
whether or not they succeed, and so of the parse of a whole program, the nesting is the number of
brackets that are open, and at most 40. -/
theorem nesting_balanced :
    (∀ (call : Call) (cursor : Cursor),
      Path Limits.standard cursor (call.log Limits.standard cursor)
        (call.action Limits.standard cursor).2 ∧
      match call.action Limits.standard cursor with
      | (.ok _, after) => after.nesting = cursor.nesting
      | (.error _, after) =>
        cursor.nesting ≤ after.nesting ∧
          after.nesting =
            cursor.nesting + (unclosed (call.log Limits.standard cursor)).length) ∧
    ∀ (source : Source) (calls : List Call) (past : List Moment) (moment : Moment),
      past ++ [moment] <+: Call.logAll Limits.standard calls (Cursor.start source) →
        0 ≤ moment.after.nesting ∧ moment.after.nesting ≤ 40 ∧
          moment.after.nesting = (unclosed (past ++ [moment])).length := by
  refine ⟨fun call cursor => ⟨(call.steps _).path cursor, ?_⟩,
    fun source calls past moment reached => ?_⟩
  · have counted := call.nesting_eq Limits.standard cursor
    split
    next tree after run =>
      rw [run, Call.unclosed_of_ok run] at counted
      exact counted.trans (Int.add_zero _)
    next failure after run =>
      rw [run] at counted
      dsimp only at counted
      exact ⟨by omega, counted⟩
  · have counted := Call.nesting_eq_of_moment reached
    have bounded := Call.nesting_le_of_moment rfl reached
    exact ⟨by omega, bounded, counted⟩

/-- Where the text ends inside of a brace and a parenthesis, both are left open. -/
theorem nesting_balanced_unclosed :
    ∃ (past : List Moment) (moment : Moment),
      past ++ [moment] = Call.logAll Limits.standard [.parse .program]
        (Cursor.start (Source.ofText [] "(\x7b".toList)) ∧
      unclosed (past ++ [moment]) =
        [⟨.lbrace, ['{'], ⟨1, 1⟩⟩, ⟨.lparen, ['('], ⟨0, 1⟩⟩] ∧
      moment.after.nesting = 2 := by
  have bothOpen : unclosed (Call.logAll Limits.standard [.parse .program]
      (Cursor.start (Source.ofText [] "(\x7b".toList))) =
        [⟨.lbrace, ['{'], ⟨1, 1⟩⟩, ⟨.lparen, ['('], ⟨0, 1⟩⟩] := by cbv
  rcases List.eq_nil_or_concat (Call.logAll Limits.standard [.parse .program]
      (Cursor.start (Source.ofText [] "(\x7b".toList))) with empty | ⟨past, moment, whole⟩
  · rw [empty] at bothOpen
    cases bothOpen
  · rw [List.concat_eq_append] at whole
    rw [whole] at bothOpen
    have counted := (nesting_balanced.2 _ _ past moment
      ⟨[], (List.append_nil _).trans whole.symm⟩).2.2
    rw [bothOpen] at counted
    exact ⟨past, moment, whole.symm, bothOpen, counted⟩

end SinosLang.Parse
