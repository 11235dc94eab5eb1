import SinosLang.Proofs.Parse.Cursor
import SinosLang.Parse.Grammar
import Mathlib

/-!
# Where the limit of brackets is enforced

A parse comes to a primary by whatever was parsed before it. If that primary begins with a bracket
while no more brackets may be opened, the parse ends there: a parenthesis is reported before anything
behind it is looked at. A brace, however, is consumed before it is counted, and with it goes the token
behind it: if the lexer rejects that one, its diagnostic is reported instead.

Main statements: `parse_full_bracket` says how such a parse ends, and `brace_hides_limit` that the
limit need not be reported at a brace.
-/

set_option autoImplicit false

namespace SinosLang

namespace Parse

variable {α β : Type} {goal : Parse β} {place place' cursor after : Cursor}

/-- Run from a cursor, an action comes to some goal at some place: the action is the goal, or it
begins with an action that comes there, or it goes on with one after its beginning has succeeded. -/
inductive ComesTo (goal : Parse β) (place : Cursor) : {α : Type} → Parse α → Cursor → Prop
  | here : ComesTo goal place goal place
  | first {α γ : Type} {action : Parse α} {next : α → Parse γ} {cursor : Cursor} :
    ComesTo goal place action cursor → ComesTo goal place (action >>= next) cursor
  | later {α γ : Type} {action : Parse α} {next : α → Parse γ} {cursor after : Cursor} {value : α} :
    action cursor = (.ok value, after) → ComesTo goal place (next value) after →
    ComesTo goal place (action >>= next) cursor

/-- An action that comes to one that fails fails in the same way. -/
theorem ComesTo.fails {action : Parse α} (comes : ComesTo goal place action cursor)
    {failure : Failure} (failed : goal place = (.error failure, after)) :
    action cursor = (.error failure, after) := by
  induction comes with
  | here => exact failed
  | first _ ih => exact bind_apply_of_error ih
  | later run _ ih => rw [bind_apply_of_ok run, ih]

/-! ## Brackets beyond the limit -/

variable {limits : Limits} {expression : Parse Measured} {bracket : Token}

/-- A bracket is no leaf. -/
theorem leafNode?_eq_none (isOpening : bracket.kind = .lparen ∨ bracket.kind = .lbrace) :
    leafNode? bracket = none := by
  unfold leafNode?
  rcases isOpening with isOpening | isOpening <;> rw [isOpening]

/-- A parenthesis is reported as soon as it is seen. -/
theorem primary_of_full_parenthesis (ahead : cursor.lookahead = some bracket)
    (isOpening : bracket.kind = .lparen) (full : limits.isFull cursor.nesting = true) :
    primary limits expression cursor =
      (.error (.diagnostic ⟨.tooDeep, bracket.span⟩), cursor) := by
  have entered : openBracket limits bracket cursor =
      (.error (.diagnostic ⟨.tooDeep, bracket.span⟩), cursor) := by
    rw [openBracket, if_pos full]
    rfl
  unfold primary Builder.primary
  rw [bind_apply_of_ok (current_of_lookahead ahead), leafNode?_eq_none (.inl isOpening)]
  dsimp only
  rw [isOpening, if_neg (by decide), if_pos rfl]
  exact bind_apply_of_error entered

/-- At an opening brace, a primary expression is a block. -/
theorem primary_of_brace (ahead : cursor.lookahead = some bracket)
    (isOpening : bracket.kind = .lbrace) :
    primary limits expression cursor = block limits expression cursor := by
  unfold primary Builder.primary
  rw [bind_apply_of_ok (current_of_lookahead ahead), leafNode?_eq_none (.inr isOpening)]
  dsimp only
  rw [if_pos isOpening]

/-- A token ahead of an accepted kind is consumed. -/
theorem accept_of_lookahead {kind : TokenKind} {token : Token}
    (ahead : cursor.lookahead = some token) (isKind : token.kind = kind) :
    accept [kind] cursor = (some <$> advance : Parse (Option Token)) cursor := by
  unfold accept
  rw [bind_apply_of_ok (current_of_lookahead ahead), isKind,
    if_pos (List.contains_iff_mem.mpr List.mem_cons_self)]
  rfl

section Expect

variable {kind : TokenKind} {fault : Fault} {token next : Token} {failure : Failure}
  (ahead : cursor.lookahead = some token) (isKind : token.kind = kind) (notEnd : kind ≠ .eof)
include ahead isKind notEnd

/-- An expected token that is ahead is consumed if the one behind it can be read. -/
theorem expect_of_pull (pulled : pull cursor = (.ok next, after)) :
    expect kind fault cursor = (.ok token, after) := by
  have advanced : advance cursor = (.ok token, after) := by
    rw [advance_of_lookahead ahead (isKind ▸ notEnd), bind_apply_of_ok pulled]
    rfl
  have accepted : accept [kind] cursor = (.ok (some token), after) := by
    rw [accept_of_lookahead ahead isKind]
    exact bind_apply_of_ok advanced
  unfold expect expectAny
  exact bind_apply_of_ok accepted

/-- An expected token that is ahead cannot be consumed if the one behind it cannot be read. -/
theorem expect_of_pull_error (pulled : pull cursor = (.error failure, after)) :
    expect kind fault cursor = (.error failure, after) := by
  have advanced : advance cursor = (.error failure, after) := by
    rw [advance_of_lookahead ahead (isKind ▸ notEnd)]
    exact bind_apply_of_error pulled
  have accepted : accept [kind] cursor = (.error failure, after) := by
    rw [accept_of_lookahead ahead isKind]
    exact bind_apply_of_error advanced
  unfold expect expectAny
  exact bind_apply_of_error accepted

end Expect

/-- A brace is reported once the token behind it has been read. -/
theorem primary_of_full_brace {next : Token} (ahead : cursor.lookahead = some bracket)
    (isOpening : bracket.kind = .lbrace) (full : limits.isFull cursor.nesting = true)
    (pulled : pull cursor = (.ok next, after)) :
    primary limits expression cursor =
      (.error (.diagnostic ⟨.tooDeep, bracket.span⟩), after) := by
  have nesting_eq : after.nesting = cursor.nesting := by
    rw [← nesting_pull cursor, pulled]
  have entered : openBracket limits bracket after =
      (.error (.diagnostic ⟨.tooDeep, bracket.span⟩), after) := by
    rw [openBracket, nesting_eq, if_pos full]
    rfl
  rw [primary_of_brace ahead isOpening]
  unfold block Builder.block
  rw [bind_apply_of_ok (expect_of_pull ahead isOpening (by decide) pulled)]
  exact bind_apply_of_error entered

/-- If the token behind a brace cannot be read, this is reported, whatever the limit is. -/
theorem primary_of_brace_before_failure {failure : Failure} (ahead : cursor.lookahead = some bracket)
    (isOpening : bracket.kind = .lbrace) (pulled : pull cursor = (.error failure, after)) :
    primary limits expression cursor = (.error failure, after) := by
  rw [primary_of_brace ahead isOpening]
  unfold block Builder.block
  exact bind_apply_of_error (expect_of_pull_error ahead isOpening (by decide) pulled)

/-! ## Coming to a bracket -/

/-- An expression comes to the primary that it starts with, unless it starts with an operator. -/
theorem comesTo_equality {token : Token} (ahead : cursor.lookahead = some token)
    (noPrefix : token.kind ∉ prefixOps)
    (comes : ComesTo goal place (primary limits expression) cursor) :
    ComesTo goal place (equality limits expression) cursor := by
  have noOperators : prefixRun (cursor.upcoming.length + 2) cursor = (.ok [], cursor) := by
    unfold prefixRun
    rw [bind_apply_of_ok (current_of_lookahead ahead),
      if_neg fun isPrefix => noPrefix (List.contains_iff_mem.mp isPrefix)]
    rfl
  have unary : ComesTo goal place (unary limits expression) cursor := by
    unfold Parse.unary Builder.unary
    exact .later rfl (.later noOperators (.first comes))
  exact .first (.first (.first (.first (.first unary))))

/-- The cursor inside the bracket that it stands at. -/
def enter (cursor : Cursor) : Cursor :=
  (pull cursor).2.withNesting (cursor.nesting + 1)

/-- Whether a token opens a bracket. -/
def isOpening (token? : Option Token) : Bool :=
  token?.any fun token => token.kind == .lparen || token.kind == .lbrace

/-- The cursor inside of so many brackets, each of which is the first token inside the one before it
and may be opened. -/
def descend (limits : Limits) : Nat → Cursor → Option Cursor
  | 0, cursor => some cursor
  | count + 1, cursor =>
    if isOpening cursor.lookahead && isOpening (pull cursor).1.toOption &&
        !limits.isFull cursor.nesting then
      descend limits count (enter cursor)
    else
      none

/-- What opens a bracket is an opening parenthesis or an opening brace. -/
theorem isOpening_eq_true {token? : Option Token} (opens : isOpening token? = true) :
    ∃ token, token? = some token ∧ (token.kind = .lparen ∨ token.kind = .lbrace) := by
  obtain ⟨token, isSome, isKind⟩ := Option.any_eq_true _ _ |>.mp opens
  rw [Bool.or_eq_true, beq_iff_eq, beq_iff_eq] at isKind
  exact ⟨token, isSome, isKind⟩

/-- Inside a bracket, the token behind it is ahead. -/
theorem lookahead_enter {token : Token} (pulled : pull cursor = (.ok token, after)) :
    (enter cursor).lookahead = some token := by
  rw [enter, pulled]
  show after.lookahead = some token
  exact lookahead_of_pull pulled

section Enter

variable {next : Token} (ahead : cursor.lookahead = some bracket)
  (notFull : limits.isFull cursor.nesting = false) (pulled : pull cursor = (.ok next, after))
  (comes : ComesTo goal place expression (enter cursor))
include ahead notFull pulled comes

/-- A group comes to what the expression inside its parenthesis comes to. -/
theorem comesTo_group (isParenthesis : bracket.kind = .lparen) :
    ComesTo goal place (group limits expression bracket) cursor := by
  have advanced : advance (cursor.withNesting (cursor.nesting + 1)) =
      (.ok bracket, enter cursor) := by
    have pulled' : pull (cursor.withNesting (cursor.nesting + 1)) = (.ok next, enter cursor) := by
      rw [pull_withNesting, pulled, enter, pulled]
    rw [advance_of_lookahead (by exact ahead) (by rw [isParenthesis]; decide),
      bind_apply_of_ok pulled']
    rfl
  unfold group Builder.group
  exact .later (openBracket_of_not_full notFull) (.later advanced (.first comes))

/-- A block whose first token opens a bracket comes to what the expression inside its brace comes
to. -/
theorem comesTo_block (isBrace : bracket.kind = .lbrace)
    (opensNext : next.kind = .lparen ∨ next.kind = .lbrace) :
    ComesTo goal place (block limits expression) cursor := by
  have nesting_eq : after.nesting = cursor.nesting := by
    rw [← nesting_pull cursor, pulled]
  have enter_eq : enter cursor = after.withNesting (after.nesting + 1) := by
    rw [enter, pulled, nesting_eq]
  have items (rounds : Nat) :
      ComesTo goal place (blockItems limits expression (rounds + 1)) (enter cursor) := by
    unfold blockItems Builder.blockItems
    refine .later (current_of_lookahead (lookahead_enter pulled)) ?_
    dsimp only
    rw [if_neg (by rcases opensNext with h | h <;> rw [h] <;> decide),
      if_neg (by rcases opensNext with h | h <;> rw [h] <;> decide)]
    exact .first comes
  have entered : openBracket limits bracket after = (.ok (), enter cursor) := by
    rw [enter_eq]
    exact openBracket_of_not_full (nesting_eq ▸ notFull)
  unfold block Builder.block
  exact .later (expect_of_pull ahead isBrace (by decide) pulled)
    (.later entered (.later rfl (.first (items _))))

/-- A primary that is a bracket comes to what the expression inside of it comes to. -/
theorem comesTo_primary (opens : bracket.kind = .lparen ∨ bracket.kind = .lbrace)
    (opensNext : next.kind = .lparen ∨ next.kind = .lbrace) :
    ComesTo goal place (primary limits expression) cursor := by
  unfold primary Builder.primary
  refine .later (current_of_lookahead ahead) ?_
  rw [leafNode?_eq_none opens]
  dsimp only
  rcases opens with isParenthesis | isBrace
  · rw [isParenthesis, if_neg (by decide), if_pos rfl]
    exact comesTo_group ahead notFull pulled comes isParenthesis
  · rw [if_pos isBrace]
    exact comesTo_block ahead notFull pulled comes isBrace opensNext

end Enter

/-- Through brackets at the front a primary comes to the primary inside of all of them. -/
theorem comesTo_nested {depth count : Nat} (inside : descend limits count cursor = some place)
    (comes : ComesTo goal place' (primary limits (expressionWithin limits depth)) place) :
    ComesTo goal place' (primary limits (expressionWithin limits (depth + count))) cursor := by
  induction count generalizing cursor with
  | zero =>
    cases inside
    exact comes
  | succ count ih =>
    unfold descend at inside
    split at inside
    next met =>
      simp only [Bool.and_eq_true, Bool.not_eq_true'] at met
      obtain ⟨⟨opens, opensNext⟩, notFull⟩ := met
      obtain ⟨bracket, ahead, isBracket⟩ := isOpening_eq_true opens
      obtain ⟨next, isNext, isBracket'⟩ := isOpening_eq_true opensNext
      obtain ⟨after, pulled⟩ : ∃ after, pull cursor = (.ok next, after) := by
        cases pulled : pull cursor with
        | mk outcome after =>
          rw [pulled] at isNext
          cases outcome with
          | error failure => cases isNext
          | ok token =>
            cases isNext
            exact ⟨after, rfl⟩
      refine comesTo_primary ahead notFull pulled ?_ isBracket isBracket'
      refine comesTo_equality (lookahead_enter pulled) ?_ (ih inside)
      rcases isBracket' with h | h <;> rw [h] <;> decide
    next => cases inside

/-- A program comes to the primary that it starts with, unless it starts with an operator. -/
theorem comesTo_program {source : Source} {token : Token}
    (looked : current (Cursor.start source) = (.ok token, after))
    (starts : token.kind = .lparen ∨ token.kind = .lbrace)
    (comes : ComesTo goal place (primary limits (expressionWithin limits
      ((Cursor.start source).upcoming.length + 1))) after) :
    ComesTo goal place (program limits) (Cursor.start source) := by
  have ahead : after.lookahead = some token := lookahead_of_pull looked
  have noEnd : token.kind ≠ .eof := by rcases starts with h | h <;> rw [h] <;> decide
  have noLet : token.kind ≠ .letKeyword := by rcases starts with h | h <;> rw [h] <;> decide
  have noPrefix : token.kind ∉ prefixOps := by rcases starts with h | h <;> rw [h] <;> decide
  have stmt : ComesTo goal place (statement limits (expressionWithin limits
      ((Cursor.start source).upcoming.length + 2))) after := by
    unfold statement Builder.statement
    refine .later (current_of_lookahead ahead) ?_
    rw [if_neg noLet]
    exact .first (comesTo_equality ahead noPrefix comes)
  have stmts (rounds : Nat) : ComesTo goal place (statements limits (expressionWithin limits
      ((Cursor.start source).upcoming.length + 2)) (rounds + 1)) (Cursor.start source) := by
    unfold statements Builder.statements
    refine .later looked ?_
    rw [if_neg noEnd]
    exact .first stmt
  unfold program Builder.program withBrackets Builder.withBrackets
  exact .later rfl (.later rfl (.first (stmts _)))

/-- A program that starts with brackets comes to the primary inside of them, which is found by
descending through them. -/
theorem exists_comesTo {source : Source} {token bracket : Token} {count : Nat} {nesting : Int}
    {outcome : Except Failure Token} (looked : (current (Cursor.start source)).1 = .ok token)
    (starts : token.kind = .lparen ∨ token.kind = .lbrace)
    (inside : (descend limits count (current (Cursor.start source)).2).map
      (fun place => (place.nesting, place.lookahead, (pull place).1)) =
        some (nesting, some bracket, outcome))
    (enough : count ≤ (Cursor.start source).upcoming.length) :
    ∃ expression place, ComesTo (primary limits expression) place (program limits)
        (Cursor.start source) ∧
      place.nesting = nesting ∧ place.lookahead = some bracket ∧ (pull place).1 = outcome := by
  obtain ⟨place, inside, facts⟩ := Option.map_eq_some_iff.mp inside
  simp only [Prod.mk.injEq] at facts
  obtain ⟨depth, depth_eq⟩ : ∃ depth, (Cursor.start source).upcoming.length + 1 = depth + count :=
    ⟨(Cursor.start source).upcoming.length + 1 - count, by omega⟩
  refine ⟨expressionWithin limits depth, place, ?_, facts⟩
  refine comesTo_program (Prod.ext looked rfl) starts ?_
  rw [depth_eq]
  exact comesTo_nested inside .here

/-- A primary expression is the same whether or not the token ahead was looked at before. -/
theorem primary_of_current (looked : current cursor = (.ok bracket, after))
    (ahead : after.lookahead = some bracket) :
    primary limits expression cursor = primary limits expression after := by
  unfold primary Builder.primary
  rw [bind_apply_of_ok looked, bind_apply_of_ok (current_of_lookahead ahead)]

end Parse

namespace Source

open Parse

variable {source : Source} {expression : Parse Measured} {cursor after : Cursor} {bracket : Token}

/-- A parse that comes to a failure fails with it. -/
theorem parse_of_comesTo {limits : Limits} {rule : Parse Measured} {failure : Failure}
    (comes : ComesTo rule cursor (program limits) (Cursor.start source))
    (failed : rule cursor = (.error failure, after)) :
    source.parseWithin limits = .error failure := by
  unfold parseWithin
  rw [comes.fails failed]
  rfl

/-- A parse that comes to a bracket while forty are open reports it, if it is a parenthesis or if the
token behind it can be read. Behind a brace, a token that cannot be read is reported instead. -/
theorem parse_full_bracket
    (comes : ComesTo (primary Limits.standard expression) cursor (program Limits.standard)
      (Cursor.start source))
    (looked : current cursor = (.ok bracket, after)) (full : 40 ≤ cursor.nesting) :
    (bracket.kind = .lparen ∨ (bracket.kind = .lbrace ∧ ∃ next, (pull after).1 = .ok next) →
      source.parse = .error (.diagnostic ⟨.tooDeep, bracket.span⟩)) ∧
    (∀ failure, bracket.kind = .lbrace → (pull after).1 = .error failure →
      source.parse = .error failure) := by
  obtain ⟨ahead, nesting_eq⟩ := current_fills looked
  have isFull : Limits.standard.isFull after.nesting = true := by
    rw [nesting_eq]
    exact decide_eq_true full
  have fails {failure : Failure} {final : Cursor}
      (failed : primary Limits.standard expression after = (.error failure, final)) :
      source.parse = .error failure :=
    parse_of_comesTo comes ((primary_of_current looked ahead).trans failed)
  refine ⟨?_, fun failure isBrace failed => ?_⟩
  · rintro (isParenthesis | ⟨isBrace, next, isNext⟩)
    · exact fails (primary_of_full_parenthesis ahead isParenthesis isFull)
    · exact fails (primary_of_full_brace ahead isBrace isFull (Prod.ext isNext rfl))
  · exact fails (primary_of_brace_before_failure ahead isBrace (Prod.ext failed rfl))

/-- Forty-one brackets of both kinds, the last of which is a brace with nothing behind it. -/
theorem parse_full_bracket_end :
    (ofText [] ((List.replicate 20 ['(', '\x7b']).flatten ++ ['\x7b'])).parse =
      .error (.diagnostic ⟨.tooDeep, ⟨40, 1⟩⟩) := by
  generalize isText : ofText [] ((List.replicate 20 ['(', '\x7b']).flatten ++ ['\x7b']) = source
  have looked : (current (Cursor.start source)).1 = .ok ⟨.lparen, ['('], ⟨0, 1⟩⟩ := by
    rw [← isText]
    cbv
  have inside : (descend Limits.standard 40 (current (Cursor.start source)).2).map
      (fun place => (place.nesting, place.lookahead, (pull place).1)) =
        some (40, some ⟨.lbrace, ['\x7b'], ⟨40, 1⟩⟩, .ok ⟨.eof, [], ⟨41, 0⟩⟩) := by
    rw [← isText]
    cbv
  have length_eq : (Cursor.start source).upcoming.length = 41 := by
    rw [← isText]
    cbv
  obtain ⟨expression, place, comes, nesting_eq, ahead, pulled⟩ :=
    exists_comesTo looked (.inl rfl) inside (by rw [length_eq]; decide)
  exact (parse_full_bracket comes (current_of_lookahead ahead) nesting_eq.ge).1
    (.inr ⟨rfl, _, pulled⟩)

/-- Forty-one braces with a character behind them that no lexeme begins with: the parse comes to the
last brace while forty are open, and does not report it. -/
theorem brace_hides_limit :
    ∃ expression cursor bracket,
      ComesTo (primary Limits.standard expression) cursor (program Limits.standard)
        (Cursor.start (ofText [] (List.replicate 41 '\x7b' ++ ['@']))) ∧
      current cursor = (.ok bracket, cursor) ∧ bracket.kind = .lbrace ∧ 40 ≤ cursor.nesting ∧
      (ofText [] (List.replicate 41 '\x7b' ++ ['@'])).parse ≠
        .error (.diagnostic ⟨.tooDeep, bracket.span⟩) := by
  generalize isText : ofText [] (List.replicate 41 '\x7b' ++ ['@']) = source
  have looked : (current (Cursor.start source)).1 = .ok ⟨.lbrace, ['\x7b'], ⟨0, 1⟩⟩ := by
    rw [← isText]
    cbv
  have inside : (descend Limits.standard 40 (current (Cursor.start source)).2).map
      (fun place => (place.nesting, place.lookahead, (pull place).1)) =
        some (40, some ⟨.lbrace, ['\x7b'], ⟨40, 1⟩⟩,
          .error (.diagnostic ⟨.unexpectedChar, ⟨41, 1⟩⟩)) := by
    rw [← isText]
    cbv
  have length_eq : (Cursor.start source).upcoming.length = 42 := by
    rw [← isText]
    cbv
  obtain ⟨expression, place, comes, nesting_eq, ahead, pulled⟩ :=
    exists_comesTo looked (.inr rfl) inside (by rw [length_eq]; decide)
  have rejected : source.parse = .error (.diagnostic ⟨.unexpectedChar, ⟨41, 1⟩⟩) :=
    parse_of_comesTo comes (primary_of_brace_before_failure ahead rfl (Prod.ext pulled rfl))
  refine ⟨expression, place, _, comes, current_of_lookahead ahead, rfl, nesting_eq.ge, ?_⟩
  rw [rejected]
  simp

end Source

end SinosLang
