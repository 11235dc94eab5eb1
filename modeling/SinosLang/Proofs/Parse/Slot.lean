import SinosLang.Proofs.Parse.Nesting
import SinosLang.Proofs.Lexing.Advance

/-!
# The lookahead slot

The lexer is one token ahead of what the parser has consumed, and that token stands in the slot of
the cursor. Whatever the parser is asked for, one thing after the other, the slot takes the tokens of
the source in their order, each of them once, and keeps the end once it has come there.

Main statement: `slot_serves_in_order`.
-/

set_option autoImplicit false

namespace SinosLang

/-! ## What a cursor holds -/

/-- The reading that brings a token leaves the lexer at its end. -/
def Reading.ofToken (token : Token) : Reading where
  outcome := .ok token
  position := token.span.stop

namespace Cursor

/-- So many of the tokens have been consumed: none, and none has been asked for, or those before the
one that stands in the slot, and the lexer is at the end of that one. -/
def Consumed (all : List Token) (count : Nat) (cursor : Cursor) : Prop :=
  (count = 0 ∧ cursor.lookahead = none ∧ cursor.position = 0) ∨
    ∃ token, all[count]? = some token ∧ cursor.lookahead = some token ∧
      cursor.position = token.span.stop

/-- A cursor after so many of the tokens before the end of a source have been consumed, with the
readings that are then still to come. -/
inductive Serves (source : Source) (tokens : List Token) : Nat → Cursor → Prop
  | untouched (nesting : Int) :
    Serves source tokens 0 ⟨source, none, tokens.map .ofToken, 0, nesting⟩
  | holding {count : Nat} {token : Token} (nesting : Int) :
    (tokens ++ [source.endToken])[count]? = some token →
    Serves source tokens count
      ⟨source, some token, (tokens.drop (count + 1)).map .ofToken, token.span.stop, nesting⟩

section Serves

variable {source : Source} {tokens : List Token} {count : Nat} {cursor : Cursor}

/-- A cursor that serves after so many tokens has consumed so many. -/
theorem Serves.consumed (serves : Serves source tokens count cursor) :
    cursor.Consumed (tokens ++ [source.endToken]) count := by
  cases serves with
  | untouched => exact .inl ⟨rfl, rfl, rfl⟩
  | holding _ isNext => exact .inr ⟨_, isNext, rfl, rfl⟩

/-- How many brackets are open does not matter. -/
theorem Serves.withNesting (serves : Serves source tokens count cursor) (nesting : Int) :
    Serves source tokens count (cursor.withNesting nesting) := by
  cases serves with
  | untouched => exact .untouched nesting
  | holding _ isNext => exact .holding nesting isNext

/-- At most all tokens before the end are consumed. -/
theorem Serves.count_le (serves : Serves source tokens count cursor) : count ≤ tokens.length := by
  cases serves with
  | untouched => exact Nat.zero_le _
  | holding _ isNext =>
    have := (List.getElem?_eq_some_iff.mp isNext).1
    rw [List.length_append, List.length_singleton] at this
    omega

/-- The readings of a source that is split into tokens bring its tokens, each with the lexer at its
end. -/
theorem serves_start {all : List Token} (split : source.tokenize.result = .ok all) :
    ∃ tokens, all = tokens ++ [source.endToken] ∧ (∀ token ∈ tokens, token.kind ≠ .eof) ∧
      Serves source tokens 0 (start source) := by
  obtain ⟨tokens, lexes, rfl⟩ := Source.tokenize_eq_ok_iff.mp split
  have outcomes := (@Stream.readings_iff (.startingAt source 0) tokens (Nat.zero_le _)).mpr lexes
  have chain := @Stream.readings_chain (.startingAt source 0) (Nat.zero_le _)
  have eachRead : (Stream.startingAt source 0).readings = tokens.map .ofToken := by
    refine List.ext_getElem? fun place => ?_
    have same := congrArg (·[place]?) outcomes
    simp only [List.getElem?_map] at same ⊢
    cases there : (Stream.startingAt source 0).readings[place]? with
    | none =>
      rw [there] at same
      cases isToken : tokens[place]? with
      | none => rfl
      | some token =>
        rw [isToken] at same
        cases same
    | some reading =>
      rw [there] at same
      cases isToken : tokens[place]? with
      | none =>
        rw [isToken] at same
        cases same
      | some token =>
        rw [isToken] at same
        obtain ⟨outcome, position⟩ := reading
        obtain rfl : outcome = .ok token := Option.some.inj same
        have stop_eq := ((chain.goesOn _ (List.mem_of_getElem? there)).token token rfl).2.2
        simp only at stop_eq
        rw [← stop_eq]
        rfl
  refine ⟨tokens, rfl, fun token isIn => ?_, ?_⟩
  · have isRead : Reading.ofToken token ∈ (Stream.startingAt source 0).readings := by
      rw [eachRead]
      exact List.mem_map_of_mem isIn
    exact Stream.readingsWithin_notEnd _ isRead token rfl
  · unfold start
    rw [eachRead]
    exact .untouched 0

end Serves

end Cursor

namespace Parse

open Cursor (Serves)

/-! ## What an action does to the slot -/

section Actions

variable {source : Source} {tokens : List Token} {count : Nat} {cursor : Cursor}

/-- The slot takes the next token, or the end where none is left. -/
theorem pull_serves (slot : Option Token) (position : Nat) (nesting : Int)
    (within : count ≤ tokens.length) :
    ∃ token after, pull ⟨source, slot, (tokens.drop count).map .ofToken, position, nesting⟩ =
        (.ok token, after) ∧
      (tokens ++ [source.endToken])[count]? = some token ∧ after.lookahead = some token ∧
      Serves source tokens count after := by
  rcases Nat.lt_or_ge count tokens.length with more | noMore
  · have isNext : (tokens ++ [source.endToken])[count]? = some tokens[count] := by
      rw [List.getElem?_append_left more, List.getElem?_eq_getElem more]
    refine ⟨tokens[count], _, ?_, isNext, rfl, .holding nesting isNext⟩
    rw [List.drop_eq_getElem_cons more]
    rfl
  · have isEnd : (tokens ++ [source.endToken])[count]? = some source.endToken := by
      rw [List.getElem?_append_right noMore, Nat.sub_eq_zero_of_le within]
      rfl
    refine ⟨source.endToken, _, ?_, isEnd, rfl, .holding nesting isEnd⟩
    rw [List.drop_of_length_le noMore, List.drop_of_length_le (noMore.trans (Nat.le_succ _))]
    rfl

/-- Looking ahead shows the next token and consumes nothing. -/
theorem current_serves (serves : Serves source tokens count cursor) :
    ∃ token after, current cursor = (.ok token, after) ∧
      (tokens ++ [source.endToken])[count]? = some token ∧ after.lookahead = some token ∧
      Serves source tokens count after := by
  cases serves with
  | untouched nesting => exact pull_serves none 0 nesting (Nat.zero_le _)
  | holding nesting isNext => exact ⟨_, _, rfl, isNext, rfl, .holding nesting isNext⟩

/-- Advancing answers with the next token and consumes it, unless it is the end. -/
theorem advance_serves (notEnd : ∀ token ∈ tokens, token.kind ≠ .eof)
    (serves : Serves source tokens count cursor) :
    ∃ token after, advance cursor = (.ok token, after) ∧
      (tokens ++ [source.endToken])[count]? = some token ∧
      (count < tokens.length ∧ Serves source tokens (count + 1) after ∨
        count = tokens.length ∧ Serves source tokens count after) := by
  obtain ⟨token, middle, looked, isNext, full, held⟩ := current_serves serves
  have within := serves.count_le
  rw [advance, bind_apply_of_ok looked]
  rcases Nat.lt_or_ge count tokens.length with more | noMore
  · rw [List.getElem?_append_left more] at isNext
    rw [if_neg (notEnd token (List.mem_of_getElem? isNext))]
    cases held with
    | untouched => cases full
    | holding nesting _ =>
      obtain ⟨next, after, pulled, _, _, serves'⟩ :=
        pull_serves _ _ nesting (Nat.succ_le_of_lt more)
      rw [bind_apply_of_ok pulled]
      refine ⟨token, after, rfl, ?_, .inl ⟨more, serves'⟩⟩
      rw [List.getElem?_append_left more, isNext]
  · obtain rfl : source.endToken = token := by
      rw [List.getElem?_append_right noMore, Nat.sub_eq_zero_of_le within] at isNext
      exact Option.some.inj isNext
    have isEnd : source.endToken.kind = .eof := rfl
    rw [if_pos isEnd]
    exact ⟨_, middle, rfl, isNext, .inr ⟨Nat.le_antisymm within noMore, held⟩⟩

/-- A match that does not succeed consumes nothing. -/
theorem accept_none_serves {kinds : List TokenKind} {after : Cursor}
    (serves : Serves source tokens count cursor)
    (run : accept kinds cursor = (.ok none, after)) : Serves source tokens count after := by
  obtain ⟨token, middle, looked, _, _, held⟩ := current_serves serves
  rw [accept, bind_apply_of_ok looked] at run
  split at run
  · obtain ⟨_, _, _, answered⟩ := bind_eq_ok.mp run
    cases answered
  · cases run
    exact held

/-- An expectation that is not met consumes nothing. -/
theorem expectAny_error_serves {kinds : List TokenKind} {fault : Fault} {failure : Failure}
    {after : Cursor} (notEnd : ∀ token ∈ tokens, token.kind ≠ .eof)
    (serves : Serves source tokens count cursor)
    (run : expectAny kinds fault cursor = (.error failure, after)) :
    Serves source tokens count after := by
  unfold expectAny at run
  rcases accepted : accept kinds cursor with ⟨failed | token | _, middle⟩
  · -- No token can fail to come, so a match does not fail.
    obtain ⟨token, middle', looked, _, _, held⟩ := current_serves serves
    rw [accept, bind_apply_of_ok looked] at accepted
    split at accepted
    · obtain ⟨taken, last, advanced, _⟩ := advance_serves notEnd held
      rw [bind_apply_of_ok advanced] at accepted
      cases accepted
    · cases accepted
  · have held := accept_none_serves serves accepted
    obtain ⟨token, last, looked, _, _, held'⟩ := current_serves held
    rw [bind_apply_of_ok accepted] at run
    dsimp only at run
    rw [bind_apply_of_ok looked] at run
    cases run
    exact held'
  · rw [bind_apply_of_ok accepted] at run
    cases run

end Actions

/-! ## The tokens of a log -/

/-- The token that an event consumes. The end is consumed only in name. -/
def Event.taken : Event → List Token
  | .takes token => [token]
  | .looks _ | .stumbles _ | .opens _ | .refuses _ | .closes => []

/-- The tokens that a log consumes, in their order. -/
def taken (log : List Moment) : List Token :=
  log.flatMap fun moment => moment.event.taken

/-- What two logs in a row take is what the first takes and then what the second takes. -/
theorem taken_append (log later : List Moment) : taken (log ++ later) = taken log ++ taken later :=
  List.flatMap_append

/-- What has been taken are the first so many tokens, and then the end any number of times, but only
once it stands in the slot. -/
def Served (source : Source) (tokens past : List Token) (cursor : Cursor) : Prop :=
  ∃ count extra, Serves source tokens count cursor ∧
    past = tokens.take count ++ List.replicate extra source.endToken ∧
    (0 < extra → count = tokens.length)

section Logs

variable {limits : Limits} {source : Source} {tokens past : List Token} {cursor final : Cursor}
  {moment : Moment} {log : List Moment}

/-- A move takes what stands in the slot, or nothing. -/
theorem Move.served (notEnd : ∀ token ∈ tokens, token.kind ≠ .eof)
    (served : Served source tokens past cursor) (move : Move limits cursor moment) :
    Served source tokens (past ++ moment.event.taken) moment.after := by
  obtain ⟨count, extra, serves, past_eq, atEnd⟩ := served
  -- Where nothing is taken, the same tokens have been.
  have same {after : Cursor} (held : Serves source tokens count after) :
      Served source tokens (past ++ []) after :=
    ⟨count, extra, held, (List.append_nil _).trans past_eq, atEnd⟩
  cases move with
  | looks run =>
    obtain ⟨token, after, looked, _, _, held⟩ := current_serves serves
    rw [looked] at run
    cases run
    exact same held
  | looksInVain run =>
    obtain ⟨token, after, looked, _, _, held⟩ := current_serves serves
    rw [looked] at run
    cases run
  | takes run =>
    obtain ⟨token, after, advanced, isNext, ⟨more, held⟩ | ⟨noMore, held⟩⟩ :=
      advance_serves notEnd serves
    · rw [advanced] at run
      cases run
      have noneExtra : extra = 0 := Nat.eq_zero_of_not_pos fun some => more.ne (atEnd some)
      rw [List.getElem?_append_left more] at isNext
      refine ⟨count + 1, 0, held, ?_, fun some => absurd some (lt_irrefl 0)⟩
      rw [past_eq, noneExtra, List.take_add_one, isNext]
      simp [Event.taken]
    · rw [advanced] at run
      cases run
      subst noMore
      rw [List.getElem?_concat_length] at isNext
      cases isNext
      refine ⟨tokens.length, extra + 1, held, ?_, fun _ => rfl⟩
      rw [past_eq, List.replicate_succ', List.append_assoc]
      rfl
  | takesInVain run =>
    obtain ⟨token, after, advanced, _⟩ := advance_serves notEnd serves
    rw [advanced] at run
    cases run
  | opens run =>
    obtain ⟨-, rfl⟩ := openBracket_eq_ok run
    exact same (serves.withNesting _)
  | refuses run =>
    cases openBracket_eq_error run
    exact same serves
  | closes run =>
    cases run
    exact same (serves.withNesting _)

/-- Along a path, the tokens are taken in their order. -/
theorem Path.served (notEnd : ∀ token ∈ tokens, token.kind ≠ .eof)
    (served : Served source tokens past cursor) (path : Path limits cursor log final) :
    Served source tokens (past ++ taken log) final := by
  induction path generalizing past with
  | stay => rwa [taken, List.flatMap_nil, List.append_nil]
  | @move _ _ moment log made _ ih =>
    have behind := ih (made.served notEnd served)
    rwa [List.append_assoc] at behind

end Logs

/-! ## What the parser is asked for -/

/-- What a parser can be asked for: a single step on its cursor, a match or an expectation, or a
call. -/
inductive Ask
  | look
  | advance
  | accept (kinds : List TokenKind)
  | expect (kinds : List TokenKind) (fault : Fault)
  | openBracket (bracket : Token)
  | closeBracket
  | run (call : Call)

/-- An expectation taken apart. -/
def Steps.expectAny {limits : Limits} (kinds : List TokenKind) (fault : Fault) :
    Steps limits 0 (Parse.expectAny kinds fault) :=
  .andThen (accept kinds) fun
    | some token => answer token
    | none => .andThen .look fun _ => fail _

section

variable {limits : Limits} {debt : Nat} {α β : Type} {first : Parse α} {next : α → Parse β}
  {steps : Steps limits 0 first} {rest : ∀ value, Steps limits debt (next value)}
  {cursor middle : Cursor}

/-- Steps in a row log the first and then those that go on from its answer. -/
theorem Steps.log_andThen_of_ok {value : α} (run : first cursor = (.ok value, middle)) :
    (steps.andThen rest).log cursor = steps.log cursor ++ (rest value).log middle := by
  rw [log, run]

/-- Steps in a row log no more than the first if it fails. -/
theorem Steps.log_andThen_of_error {failure : Failure}
    (run : first cursor = (.error failure, middle)) :
    (steps.andThen rest).log cursor = steps.log cursor := by
  rw [log, run, List.append_nil]

/-- A choice between steps logs what is chosen. -/
theorem Steps.log_choice {c : Prop} [decided : Decidable c] {yes no : Parse α}
    (ifYes : Steps limits debt yes) (ifNo : Steps limits debt no) :
    (choice ifYes ifNo : Steps limits debt (if c then yes else no)).log cursor =
      if c then ifYes.log cursor else ifNo.log cursor := by
  cases decided <;> rfl

end

namespace Ask

variable (limits : Limits)

/-- The cursor afterwards, whether or not what was asked for succeeds. -/
def after (cursor : Cursor) : Ask → Cursor
  | look => (Parse.current cursor).2
  | advance => (Parse.advance cursor).2
  | accept kinds => (Parse.accept kinds cursor).2
  | expect kinds fault => (Parse.expectAny kinds fault cursor).2
  | openBracket bracket => (Parse.openBracket limits bracket cursor).2
  | closeBracket => (Parse.closeBracket cursor).2
  | run call => (call.action limits cursor).2

/-- The moment at which a bracket is opened, or refused. -/
def openMoment (bracket : Token) (cursor : Cursor) : Moment :=
  match Parse.openBracket limits bracket cursor with
  | (.ok (), after) => ⟨.opens bracket, after⟩
  | (.error _, after) => ⟨.refuses bracket, after⟩

/-- The log of what was asked for. -/
def log (cursor : Cursor) : Ask → List Moment
  | look => Steps.log (@Steps.look limits) cursor
  | advance => Steps.log (@Steps.take limits) cursor
  | accept kinds => (@Steps.accept limits kinds).log cursor
  | expect kinds fault => (@Steps.expectAny limits kinds fault).log cursor
  | openBracket bracket => [openMoment limits bracket cursor]
  | closeBracket => [⟨.closes, (Parse.closeBracket cursor).2⟩]
  | run call => call.log limits cursor

/-- The tokens that were handed out by advancing, by a match or by an expectation: to the caller, or
within a rule to the rule. -/
def returned (cursor : Cursor) : Ask → List Token
  | look | openBracket _ | closeBracket => []
  | advance => (Parse.advance cursor).1.toOption.toList
  | accept kinds => (Parse.accept kinds cursor).1.toOption.join.toList
  | expect kinds fault => (Parse.expectAny kinds fault cursor).1.toOption.toList
  | run call => taken (call.log limits cursor)

/-- The cursor after all that was asked for, one after the other. -/
def afterAll (cursor : Cursor) (asks : List Ask) : Cursor :=
  asks.foldl (after limits) cursor

/-- The log of all that was asked for, one after the other. -/
def logAll (cursor : Cursor) : List Ask → List Moment
  | [] => []
  | ask :: asks => ask.log limits cursor ++ logAll (ask.after limits cursor) asks

/-- The tokens that were handed out by all that was asked for, one after the other. -/
def returnedAll (cursor : Cursor) : List Ask → List Token
  | [] => []
  | ask :: asks => ask.returned limits cursor ++ returnedAll (ask.after limits cursor) asks

variable {limits}

/-- The log of what is asked for is a path to the cursor behind it. -/
theorem path_log (cursor : Cursor) (ask : Ask) :
    Path limits cursor (ask.log limits cursor) (ask.after limits cursor) := by
  cases ask with
  | look => exact Steps.look.path cursor
  | advance => exact Steps.take.path cursor
  | accept kinds => exact (Steps.accept kinds).path cursor
  | expect kinds fault => exact (Steps.expectAny kinds fault).path cursor
  | openBracket bracket =>
    rw [log, openMoment, after]
    match run : Parse.openBracket limits bracket cursor with
    | (.ok (), after) => exact .move (.opens run) (.stay after)
    | (.error failure, after) => exact .move (.refuses run) (.stay after)
  | closeBracket => exact .move (.closes rfl) (.stay _)
  | run call => exact (call.steps limits).path cursor

/-- The log of all that is asked for is a path to the cursor behind it. -/
theorem path_logAll (cursor : Cursor) (asks : List Ask) :
    Path limits cursor (logAll limits cursor asks) (afterAll limits cursor asks) := by
  induction asks generalizing cursor with
  | nil => exact .stay cursor
  | cons ask asks ih => exact (ask.path_log cursor).append (ih _)

/-- A look at the token ahead takes nothing. -/
theorem taken_log_look (cursor : Cursor) : taken ((@Steps.look limits).log cursor) = [] := by
  rw [Steps.log]
  rcases current cursor with ⟨failure | token, after⟩ <;> rfl

/-- Consuming a token takes it, if it succeeds. -/
theorem taken_log_take (cursor : Cursor) :
    taken ((@Steps.take limits).log cursor) = (Parse.advance cursor).1.toOption.toList := by
  rw [Steps.log]
  rcases Parse.advance cursor with ⟨failure | token, after⟩ <;> rfl

/-- A match consumes the token that it answers with. -/
theorem taken_log_accept (kinds : List TokenKind) (cursor : Cursor) :
    taken ((@Steps.accept limits kinds).log cursor) =
      (Parse.accept kinds cursor).1.toOption.join.toList := by
  rcases looked : current cursor with ⟨failure | token, middle⟩
  · have noMore : (@Steps.accept limits kinds).log cursor = Steps.look.log cursor :=
      Steps.log_andThen_of_error looked
    rw [noMore, taken_log_look, Parse.accept, bind_apply_of_error looked]
    rfl
  · have more : (@Steps.accept limits kinds).log cursor = Steps.look.log cursor ++ _ :=
      Steps.log_andThen_of_ok looked
    rw [more, taken_append, taken_log_look, List.nil_append, Steps.log_choice, Parse.accept,
      bind_apply_of_ok looked]
    split
    · rcases advanced : Parse.advance middle with ⟨failure | taken, after⟩
      · rw [Steps.log_andThen_of_error advanced, taken_log_take, bind_apply_of_error advanced,
          advanced]
        rfl
      · rw [Steps.log_andThen_of_ok advanced, taken_append, taken_log_take,
          bind_apply_of_ok advanced, advanced]
        rfl
    · rfl

/-- An expectation consumes the token that it answers with. -/
theorem taken_log_expectAny (kinds : List TokenKind) (fault : Fault) (cursor : Cursor) :
    taken ((@Steps.expectAny limits kinds fault).log cursor) =
      (Parse.expectAny kinds fault cursor).1.toOption.toList := by
  have matched := @taken_log_accept limits kinds cursor
  rcases accepted : Parse.accept kinds cursor with ⟨failure | _ | token, middle⟩
  · have noMore : (@Steps.expectAny limits kinds fault).log cursor =
        (Steps.accept kinds).log cursor := Steps.log_andThen_of_error accepted
    rw [noMore, matched, accepted, Parse.expectAny, bind_apply_of_error accepted]
    rfl
  · have more : (@Steps.expectAny limits kinds fault).log cursor =
        (Steps.accept kinds).log cursor ++ (Steps.andThen .look fun _ => Steps.fail _).log middle :=
      Steps.log_andThen_of_ok accepted
    rw [more, taken_append, matched, accepted, Parse.expectAny, bind_apply_of_ok accepted]
    dsimp only
    rcases looked : current middle with ⟨failure | token, after⟩
    · rw [Steps.log_andThen_of_error looked, taken_log_look, bind_apply_of_error looked]
      rfl
    · rw [Steps.log_andThen_of_ok looked, taken_append, taken_log_look, bind_apply_of_ok looked]
      rfl
  · have more : (@Steps.expectAny limits kinds fault).log cursor =
        (Steps.accept kinds).log cursor ++ (Steps.answer token).log middle :=
      Steps.log_andThen_of_ok accepted
    rw [more, taken_append, matched, accepted, Parse.expectAny, bind_apply_of_ok accepted]
    rfl

/-- What is handed out is what the log consumes. -/
theorem returned_eq (cursor : Cursor) (ask : Ask) :
    ask.returned limits cursor = taken (ask.log limits cursor) := by
  cases ask with
  | look => exact (taken_log_look cursor).symm
  | advance => exact (taken_log_take cursor).symm
  | accept kinds => exact (taken_log_accept kinds cursor).symm
  | expect kinds fault => exact (taken_log_expectAny kinds fault cursor).symm
  | openBracket bracket =>
    rw [returned, log, openMoment]
    rcases Parse.openBracket limits bracket cursor with ⟨failure | ⟨⟩, after⟩ <;> rfl
  | closeBracket => rfl
  | run call => rfl

/-- The tokens that are handed out are those that the log takes. -/
theorem returnedAll_eq (cursor : Cursor) (asks : List Ask) :
    returnedAll limits cursor asks = taken (logAll limits cursor asks) := by
  induction asks generalizing cursor with
  | nil => rfl
  | cons ask asks ih => rw [returnedAll, logAll, taken_append, returned_eq, ih]

end Ask

/-- Tokens that are served, counted among all of them, the end included. -/
theorem Served.counted {source : Source} {tokens past : List Token} {cursor : Cursor}
    (served : Served source tokens past cursor) :
    ∃ count extra, Serves source tokens count cursor ∧
      past = (tokens ++ [source.endToken]).take count ++ List.replicate extra source.endToken ∧
      (0 < extra → count + 1 = (tokens ++ [source.endToken]).length) := by
  obtain ⟨count, extra, serves, past_eq, atEnd⟩ := served
  refine ⟨count, extra, serves, ?_, fun some => ?_⟩
  · rw [past_eq, List.take_append_of_le_length serves.count_le]
  · rw [atEnd some, List.length_append, List.length_singleton]

/-- Of a source that is split into tokens, the slot neither loses nor repeats one. Whatever the
parser is asked for on a fresh cursor, one thing after the other and whether or not it succeeds, at
every moment some number of tokens has been consumed: none, and none has been asked for, or the slot
holds the next one and the lexer is at its end. What has been handed out are those tokens in their
order, and behind the last one the end again and again. Looking ahead, a match that does not succeed
and an expectation that is not met consume nothing. -/
theorem slot_serves_in_order {source : Source} {all : List Token}
    (split : source.tokenize.result = .ok all) (limits : Limits) (asks : List Ask) :
    (∀ (past : List Moment) (moment : Moment),
      past ++ [moment] <+: Ask.logAll limits (Cursor.start source) asks →
        ∃ count extra, moment.after.Consumed all count ∧
          taken (past ++ [moment]) = all.take count ++ List.replicate extra source.endToken ∧
          (0 < extra → count + 1 = all.length)) ∧
    ∃ count extra, (Ask.afterAll limits (Cursor.start source) asks).Consumed all count ∧
      Ask.returnedAll limits (Cursor.start source) asks =
        all.take count ++ List.replicate extra source.endToken ∧
      (0 < extra → count + 1 = all.length) ∧
      (∀ outcome after,
        current (Ask.afterAll limits (Cursor.start source) asks) = (outcome, after) →
          after.Consumed all count) ∧
      (∀ kinds after,
        accept kinds (Ask.afterAll limits (Cursor.start source) asks) = (.ok none, after) →
          after.Consumed all count) ∧
      ∀ kinds fault failure after,
        expectAny kinds fault (Ask.afterAll limits (Cursor.start source) asks) =
            (.error failure, after) →
          after.Consumed all count := by
  obtain ⟨tokens, rfl, notEnd, fresh⟩ := Cursor.serves_start split
  have untouched : Served source tokens [] (Cursor.start source) :=
    ⟨0, 0, fresh, rfl, fun some => absurd some (lt_irrefl 0)⟩
  refine ⟨fun past moment reached => ?_, ?_⟩
  · obtain ⟨count, extra, serves, taken_eq, atEnd⟩ :=
      (((Ask.path_logAll _ asks).upTo reached).served notEnd untouched).counted
    exact ⟨count, extra, serves.consumed, taken_eq, atEnd⟩
  · obtain ⟨count, extra, serves, taken_eq, atEnd⟩ :=
      ((@Ask.path_logAll limits _ asks).served notEnd untouched).counted
    rw [List.nil_append, ← Ask.returnedAll_eq] at taken_eq
    refine ⟨count, extra, serves.consumed, taken_eq, atEnd, fun outcome after run => ?_,
      fun kinds after run => (accept_none_serves serves run).consumed,
      fun kinds fault failure after run => (expectAny_error_serves notEnd serves run).consumed⟩
    obtain ⟨token, middle, looked, _, _, held⟩ := current_serves serves
    rw [looked] at run
    cases run
    exact held.consumed

/-- A name and a semicolon are handed out, and then the end twice: by a rule, which then cannot
begin with the semicolon, an expectation that is not met, a match and two advances. -/
theorem slot_serves_in_order_name :
    (Source.ofText [] "x;".toList).tokenize.result =
        .ok [⟨.ident, ['x'], ⟨0, 1⟩⟩, ⟨.semi, [';'], ⟨1, 1⟩⟩, ⟨.eof, [], ⟨2, 0⟩⟩] ∧
      (Ask.afterAll Limits.standard (Cursor.start (Source.ofText [] "x;".toList))
        [.run (.parse .unary), .run (.parse .unary), .expect [.rparen] .expectParenClose,
          .accept [.comma, .semi], .advance, .advance]).Consumed
        [⟨.ident, ['x'], ⟨0, 1⟩⟩, ⟨.semi, [';'], ⟨1, 1⟩⟩, ⟨.eof, [], ⟨2, 0⟩⟩] 2 ∧
      Ask.returnedAll Limits.standard (Cursor.start (Source.ofText [] "x;".toList))
        [.run (.parse .unary), .run (.parse .unary), .expect [.rparen] .expectParenClose,
          .accept [.comma, .semi], .advance, .advance] =
        [⟨.ident, ['x'], ⟨0, 1⟩⟩, ⟨.semi, [';'], ⟨1, 1⟩⟩, ⟨.eof, [], ⟨2, 0⟩⟩,
          ⟨.eof, [], ⟨2, 0⟩⟩] := by
  have split : (Source.ofText [] "x;".toList).tokenize.result =
      .ok [⟨.ident, ['x'], ⟨0, 1⟩⟩, ⟨.semi, [';'], ⟨1, 1⟩⟩, ⟨.eof, [], ⟨2, 0⟩⟩] := by cbv
  have returned_eq : Ask.returnedAll Limits.standard (Cursor.start (Source.ofText [] "x;".toList))
      [.run (.parse .unary), .run (.parse .unary), .expect [.rparen] .expectParenClose,
        .accept [.comma, .semi], .advance, .advance] =
      [⟨.ident, ['x'], ⟨0, 1⟩⟩, ⟨.semi, [';'], ⟨1, 1⟩⟩, ⟨.eof, [], ⟨2, 0⟩⟩,
        ⟨.eof, [], ⟨2, 0⟩⟩] := by cbv
  obtain ⟨count, extra, consumed, counted, atEnd, _⟩ := (slot_serves_in_order split Limits.standard
    [.run (.parse .unary), .run (.parse .unary), .expect [.rparen] .expectParenClose,
      .accept [.comma, .semi], .advance, .advance]).2
  rw [returned_eq] at counted
  have lengths := congrArg List.length counted
  rw [List.length_append, List.length_replicate, List.length_take] at lengths
  simp only [List.length_cons, List.length_nil] at lengths atEnd
  obtain rfl : count = 2 := by omega
  exact ⟨split, consumed, returned_eq⟩

end Parse

end SinosLang
