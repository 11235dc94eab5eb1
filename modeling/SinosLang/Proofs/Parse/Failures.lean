import SinosLang.Parse.Grammar
import SinosLang.Proofs.Lexing.Advance
import SinosLang.Proofs.Parse.Derivations
import SinosLang.Proofs.Parse.Ends

/-!
# Every failure of a parse is a diagnosis

Behind the place up to which a cursor has consumed its source, the readings stand in a line. So a
node that was just parsed lies wholly before what is still to come, two nodes parsed one after the
other have a span from the first to the second, and a rule reports spans that are in the source and
not empty before its end. Every round of a loop and every bracket consumes a token, so the bounds on
rounds and depth, which exceed the number of tokens still to come, are never reached.

Main statement: `program_error`. A parse fails with a diagnostic about a span of its source or not at
all, whatever the limits are.
-/

set_option autoImplicit false

namespace SinosLang

open Cursor (Moves)

/-- The outcomes of readings from a place on: tokens that follow each other, up to a fault. -/
inductive Cursor.Line (size : Nat) : Nat → List (Except Failure Token) → Prop
  | nil {start : Nat} : start ≤ size → Line size start []
  | token {start : Nat} {token : Token} {later : List (Except Failure Token)} :
    start ≤ token.span.index → 0 < token.span.length → Line size token.span.stop later →
    Line size start (.ok token :: later)
  | fault {start : Nat} {failure : Failure} {later : List (Except Failure Token)} :
    start ≤ size → failure.IsDiagnosis size → Line size start (.error failure :: later)

/-- A cursor that has consumed its source up to a place at most, and has fewer outcomes to consume
than there are rounds. -/
structure Cursor.Ready (size start rounds : Nat) (cursor : Cursor) : Prop where
  consistent : cursor.Consistent
  size_eq : cursor.source.size = size
  line : Line size start cursor.pending
  few : cursor.pending.length < rounds

/-- Some characters behind a place were consumed, up to where the cursor is ready. -/
structure Cursor.Behind (size start rounds : Nat) (span : Span) (cursor : Cursor) : Prop where
  index_le : start ≤ span.index
  filled : 0 < span.length
  ready : cursor.Ready size span.stop rounds

namespace Cursor

variable {size start rounds : Nat} {cursor after : Cursor} {span : Span}

/-- A line starts inside the source. -/
theorem Line.le {pending : List (Except Failure Token)} (line : Line size start pending) :
    start ≤ size := by
  induction line with
  | nil le => exact le
  | token le _ _ ih => exact le.trans ((Nat.le_add_right _ _).trans ih)
  | fault le _ => exact le

/-- The outcomes of a chain of readings are a line. -/
theorem line_of_chain {readings : List Reading} (chain : Reading.Chain size start readings) :
    Line size start (readings.map Reading.outcome) := by
  induction chain with
  | nil le => exact .nil le
  | @cons position reading readings goesOn _ ih =>
    rw [List.map_cons]
    cases isOutcome : reading.outcome with
    | ok token =>
      obtain ⟨le, filled, stop_eq⟩ := goesOn.token token isOutcome
      exact .token le filled (stop_eq ▸ ih)
    | error failure =>
      obtain ⟨d, rfl, _, filled, inside⟩ := goesOn.failure failure isOutcome
      exact .fault (goesOn.forward.le.trans goesOn.inside)
        (Failure.isDiagnosis_of_pos (inside.trans goesOn.inside) filled)

/-- A cursor that is ready for some rounds is ready for more. -/
theorem Ready.mono {rounds' : Nat} (ready : cursor.Ready size start rounds) (le : rounds ≤ rounds') :
    cursor.Ready size start rounds' :=
  ⟨ready.consistent, ready.size_eq, ready.line, ready.few.trans_le le⟩

/-- The number of open brackets has nothing to do with readiness. -/
theorem Ready.withNesting (ready : cursor.Ready size start rounds) (nesting : Int) :
    (cursor.withNesting nesting).Ready size start rounds :=
  ⟨ready.consistent.withNesting nesting, ready.size_eq, ready.line, ready.few⟩

/-- The budget is a number of rounds for which the cursor is ready. -/
theorem Ready.budget (ready : cursor.Ready size start rounds) :
    cursor.Ready size start (min rounds (cursor.upcoming.length + 2)) := by
  refine ⟨ready.consistent, ready.size_eq, ready.line, Nat.lt_min.mpr ⟨ready.few, ?_⟩⟩
  unfold Cursor.pending
  split
  · rw [List.length_map]
    omega
  · split
    · exact Nat.succ_pos _
    · rw [List.length_cons, List.length_map]
      omega

/-- A cursor that consumes nothing stays ready. -/
theorem Ready.of_moves (ready : cursor.Ready size start rounds) (moves : Moves cursor [] after) :
    after.Ready size start rounds := by
  have pending : cursor.pending = after.pending := moves.pending_eq
  refine ⟨moves.consistent, moves.source_eq ▸ ready.size_eq, ?_, ?_⟩
  · rw [← pending]
    exact ready.line
  · rw [← pending]
    exact ready.few

/-- Behind a token that was consumed, the cursor is ready for fewer rounds. -/
theorem Ready.of_moves_token {token : Token} (ready : cursor.Ready size start rounds)
    (moves : Moves cursor [token] after) : after.Behind size start (rounds - 1) token.span := by
  have line := ready.line
  have few := ready.few
  rw [moves.pending_eq] at line few
  cases line with
  | token le filled line =>
    refine ⟨le, filled, moves.consistent, moves.source_eq ▸ ready.size_eq, line, ?_⟩
    simp only [List.map_cons, List.map_nil, List.cons_append, List.nil_append,
      List.length_cons] at few
    omega

/-- A report about what is seen ahead is a diagnosis. -/
theorem Ready.isDiagnosis (ready : cursor.Ready size start rounds) {token : Token}
    (full : cursor.lookahead = some token) (fault : Fault) :
    (Failure.diagnostic ⟨fault, token.span⟩).IsDiagnosis size := by
  by_cases isEnd : token.kind = .eof
  · obtain ⟨_, rfl⟩ := ready.consistent.finish token full isEnd
    exact ⟨_, rfl, ready.size_eq.le, fun _ => ready.size_eq⟩
  · have line := ready.line
    unfold Cursor.pending at line
    rw [full] at line
    simp only [isEnd, if_false] at line
    cases line with
    | token le filled line => exact Failure.isDiagnosis_of_pos line.le filled

/-- A cursor behind a span has moved forwards. -/
theorem Behind.stop_le (behind : cursor.Behind size start rounds span) : start ≤ span.stop :=
  behind.index_le.trans (Nat.le_add_right _ _)

/-- A span that was consumed begins before the end of all that reaches beyond it. -/
theorem Behind.index_lt_stop (behind : cursor.Behind size start rounds span) {stop : Nat}
    (le : span.stop ≤ stop) : span.index < stop :=
  (Nat.lt_add_of_pos_right behind.filled).trans_le le

/-- The rounds that are counted at the start of a loop are enough for what is left. -/
theorem Behind.budget (behind : cursor.Behind size start rounds span) :
    cursor.Behind size start (min rounds (cursor.upcoming.length + 2)) span :=
  ⟨behind.index_le, behind.filled, behind.ready.budget⟩

/-- What is behind a later place, with fewer rounds, is behind an earlier one with more. -/
theorem Behind.mono {start' rounds' : Nat} (behind : cursor.Behind size start rounds span)
    (earlier : start' ≤ start) (le : rounds ≤ rounds') : cursor.Behind size start' rounds' span :=
  ⟨earlier.trans behind.index_le, behind.filled, behind.ready.mono le⟩

/-- A report about what was just consumed is a diagnosis. -/
theorem Behind.isDiagnosis (behind : cursor.Behind size start rounds span) (fault : Fault) :
    (Failure.diagnostic ⟨fault, span⟩).IsDiagnosis size :=
  Failure.isDiagnosis_of_pos behind.ready.line.le behind.filled

end Cursor

namespace Parse

open Cursor (Ready Behind)

variable {size start rounds : Nat} {cursor after : Cursor} {token : Token}

/-- All that an action may fail with: a diagnosis of the source. -/
abbrev Diagnosing (size : Nat) (failure : Failure) (_ : Cursor) : Prop :=
  failure.IsDiagnosis size

/-! ## The cursor -/

/-- A pull answers with the next token or fails with a diagnosis. -/
theorem pull_ends
    (line : Cursor.Line size start (cursor.upcoming.map Reading.outcome)) :
    Ends pull cursor (fun token after => pull cursor = (.ok token, after)) (Diagnosing size) := by
  cases more : cursor.upcoming with
  | nil => exact .of_ok (pull_of_nil more) (pull_of_nil more)
  | cons reading later =>
    cases outcome_eq : reading.outcome with
    | ok token => exact .of_ok (pull_of_token more outcome_eq) (pull_of_token more outcome_eq)
    | error failure =>
      rw [more, List.map_cons, outcome_eq] at line
      cases line with
      | fault _ isDiagnosis => exact .of_error (pull_of_failure more outcome_eq) isDiagnosis

/-- A look at the token ahead leaves the cursor ready, or fails with a diagnosis. -/
theorem current_ends (ready : cursor.Ready size start rounds) :
    Ends current cursor
      (fun token after => after.Ready size start rounds ∧ after.lookahead = some token)
      (Diagnosing size) := by
  have kept {token : Token} {after : Cursor} (run : current cursor = (.ok token, after)) :
      after.Ready size start rounds ∧ after.lookahead = some token := by
    obtain ⟨moves, full⟩ := current_ok ready.consistent run
    exact ⟨ready.of_moves moves, full⟩
  cases full : cursor.lookahead with
  | some token => exact .of_ok (current_of_lookahead full) (kept (current_of_lookahead full))
  | none =>
    have line := ready.line
    unfold Cursor.pending at line
    rw [full] at line
    have isPull : current cursor = pull cursor := by
      unfold current
      rw [full]
    have ends := pull_ends line
    unfold Ends at ends ⊢
    rw [isPull]
    split at ends
    next run => exact kept (isPull.trans run)
    next => exact ends

/-- Consuming a token leaves the cursor behind it, with a round less, or fails with a diagnosis. -/
theorem advance_ends (ready : cursor.Ready size start rounds) (full : cursor.lookahead = some token)
    (notEnd : token.kind ≠ .eof) :
    Ends advance cursor
      (fun taken after => taken = token ∧ after.Behind size start (rounds - 1) token.span)
      (Diagnosing size) := by
  have line := ready.line
  unfold Cursor.pending at line
  rw [full] at line
  simp only [notEnd, if_false] at line
  cases line with
  | token _ _ line =>
    have shape := advance_of_lookahead full notEnd
    have ends : Ends (pull >>= fun _ => pure token : Parse Token) cursor
        (fun taken after => advance cursor = (.ok taken, after)) (Diagnosing size) := by
      refine .bind (pull_ends line) fun next after run => .pure ?_
      rw [shape, bind_apply_of_ok run]
      rfl
    unfold Ends at ends ⊢
    rw [shape]
    split at ends
    next taken after _ =>
      obtain rfl := advance_eq_lookahead full ends
      obtain ⟨moves, _⟩ := advance_ok ready.consistent ends notEnd
      exact ⟨rfl, ready.of_moves_token moves⟩
    next => exact ends

/-- A match that is found leaves the cursor behind it, and one that is not leaves it ready. -/
theorem accept_ends {kinds : List TokenKind} (noEnd : TokenKind.eof ∉ kinds)
    (ready : cursor.Ready size start rounds) :
    Ends (accept kinds) cursor
      (fun taken? after => match taken? with
        | some taken => after.Behind size start (rounds - 1) taken.span
        | none => after.Ready size start rounds)
      (Diagnosing size) := by
  unfold accept
  refine .bind (current_ends ready) ?_
  rintro token after ⟨ready, full⟩
  split
  next isOne =>
    have notEnd : token.kind ≠ .eof :=
      fun isEnd => noEnd (isEnd ▸ List.contains_iff_mem.mp isOne)
    refine .bind (advance_ends ready full notEnd) ?_
    rintro taken after ⟨rfl, behind⟩
    exact .pure behind
  next => exact .pure ready

/-- The report of a fault at the token ahead is a diagnosis. -/
theorem report_ends {α : Type} {promised : α → Cursor → Prop} (fault : Fault)
    (ready : cursor.Ready size start rounds) (full : cursor.lookahead = some token) :
    Ends (report fault token.span) cursor promised (Diagnosing size) :=
  .fail (ready.isDiagnosis full fault)

/-- An expected token leaves the cursor behind it, and any other is reported. -/
theorem expect_ends {kind : TokenKind} (fault : Fault) (notEnd : kind ≠ .eof)
    (ready : cursor.Ready size start rounds) :
    Ends (expect kind fault) cursor
      (fun token after => after.Behind size start (rounds - 1) token.span) (Diagnosing size) := by
  have noEnd : TokenKind.eof ∉ [kind] := fun isIn => notEnd (List.mem_singleton.mp isIn).symm
  unfold expect expectAny
  refine .bind (accept_ends noEnd ready) fun taken? after kept => ?_
  cases taken? with
  | some taken => exact .pure kept
  | none =>
    refine .bind (current_ends kept) ?_
    rintro token after ⟨ready, full⟩
    exact report_ends fault ready full

/-- A bracket is counted, or reported as too deep. -/
theorem openBracket_ends {limits : Limits} {bracket : Token}
    {admitted : Failure → Cursor → Prop}
    (known : admitted (.diagnostic ⟨.tooDeep, bracket.span⟩) cursor) :
    Ends (openBracket limits bracket) cursor
      (fun _ after => after = cursor.withNesting (cursor.nesting + 1)) admitted := by
  by_cases isFull : limits.isFull cursor.nesting = true
  · have run : openBracket limits bracket cursor =
        (.error (.diagnostic ⟨.tooDeep, bracket.span⟩), cursor) := by
      rw [openBracket, if_pos isFull]
      rfl
    exact .of_error run known
  · have run : openBracket limits bracket cursor =
        (.ok (), cursor.withNesting (cursor.nesting + 1)) := by
      rw [openBracket, if_neg isFull]
      rfl
    exact .of_ok run rfl

/-- Closing a bracket leaves the cursor ready. -/
theorem closeBracket_ends (ready : cursor.Ready size start rounds) :
    Ends closeBracket cursor (fun _ after => after.Ready size start rounds) (Diagnosing size) :=
  .of_ok rfl (ready.withNesting _)

/-- The rounds that a loop is given are enough for a cursor that is ready. -/
theorem budget_bind_ends {α : Type} {next : Nat → Parse α} {promised : α → Cursor → Prop}
    {admitted : Failure → Cursor → Prop}
    (ends : Ends (next (cursor.upcoming.length + 2)) cursor promised admitted) :
    Ends (budget >>= next) cursor promised admitted :=
  ends

/-- There is a span from the start of one phrase to the end of a later one. -/
theorem cover_ends {first last : Span} (le : start ≤ first.index) (lt : first.index < last.stop)
    (ready : cursor.Ready size last.stop rounds) :
    Ends (cover first last) cursor (fun span after => after.Behind size start rounds span)
      (Diagnosing size) := by
  have inside : last.stop ≤ cursor.source.size := ready.size_eq ▸ ready.line.le
  have stop_eq : Span.stop ⟨first.index, last.stop - first.index⟩ = last.stop :=
    Nat.add_sub_of_le lt.le
  have run : cover first last cursor = (.ok ⟨first.index, last.stop - first.index⟩, cursor) :=
    cover_eq rfl stop_eq (stop_eq.le.trans inside)
  refine .of_ok run ⟨le, Nat.sub_pos_of_lt lt, ?_⟩
  rw [stop_eq]
  exact ready

/-- A node that is too tall is reported with its own span. -/
theorem build_ends {limits : Limits} {node : Node} {parts : List Measured}
    (behind : cursor.Behind size start rounds node.span) :
    Ends (build limits node parts) cursor
      (fun result after => after.Behind size start rounds result.node.span) (Diagnosing size) := by
  unfold build
  dsimp only
  split
  next => exact .of_ok rfl behind
  next => exact .fail (behind.isDiagnosis _)

/-! ## Levels of operators -/

/-- Wherever a rule starts ready, for no more rounds than the bound, it consumes a token at least and
answers with a node that lies before what is still to come; its failures are diagnoses. -/
def Consumes (size bound : Nat) (rule : Parse Measured) : Prop :=
  ∀ ⦃start rounds : Nat⦄ ⦃cursor : Cursor⦄, rounds ≤ bound → cursor.Ready size start rounds →
    Ends rule cursor
      (fun result after => after.Behind size start (rounds - 1) result.node.span)
      (Diagnosing size)

variable {limits : Limits} {bound : Nat} {operand : Parse Measured}

/-- The node of an operator covers its operands. -/
theorem binaryNode_ends {op : Token} {left right : Measured} (le : start ≤ left.node.span.index)
    (lt : left.node.span.index < right.node.span.stop)
    (ready : cursor.Ready size right.node.span.stop rounds) :
    Ends (binaryNode limits op left right) cursor
      (fun result after => after.Behind size start rounds result.node.span) (Diagnosing size) := by
  unfold binaryNode Builder.binaryNode
  exact .bind (cover_ends le lt ready) fun span after behind => build_ends behind

/-- Every round of the loop consumes two tokens at least. -/
theorem extendLeft_ends {ops : List TokenKind} (noEnd : TokenKind.eof ∉ ops)
    (consumes : Consumes size bound operand) {fuel : Nat} {left : Measured} (enough : rounds ≤ fuel)
    (within : rounds ≤ bound) (behind : cursor.Behind size start rounds left.node.span) :
    Ends (extendLeft limits operand ops fuel left) cursor
      (fun result after => after.Behind size start rounds result.node.span) (Diagnosing size) := by
  induction fuel generalizing left cursor rounds with
  | zero => exact absurd behind.ready.few (by omega)
  | succ fuel ih =>
    unfold extendLeft Builder.extendLeft
    refine .bind (current_ends behind.ready) ?_
    rintro token c₁ ⟨ready, full⟩
    split
    next isOperator =>
      have notEnd : token.kind ≠ .eof :=
        fun isEnd => noEnd (isEnd ▸ List.contains_iff_mem.mp isOperator)
      refine .bind (advance_ends ready full notEnd) ?_
      rintro op c₂ ⟨rfl, behindOp⟩
      refine .bind (consumes (by omega) behindOp.ready) fun right c₃ behindRight => ?_
      have lt : left.node.span.index < right.node.span.stop :=
        behind.index_lt_stop (behindOp.stop_le.trans behindRight.stop_le)
      refine .bind (binaryNode_ends behind.index_le lt behindRight.ready)
        fun whole c₄ behindWhole => ?_
      exact (ih (by omega) (by omega) behindWhole).mono fun _ _ kept => kept.mono le_rfl (by omega)
    next => exact .pure ⟨behind.index_le, behind.filled, ready⟩

/-- A level with any number of operators consumes if its operands do. -/
theorem leftAssociative_ends {ops : List TokenKind} (noEnd : TokenKind.eof ∉ ops)
    (consumes : Consumes size bound operand) :
    Consumes size bound (leftAssociative limits operand ops) := by
  intro start rounds cursor within ready
  unfold leftAssociative Builder.leftAssociative
  refine .bind (consumes within ready) fun first after behind => ?_
  refine budget_bind_ends ?_
  exact (extendLeft_ends noEnd consumes (min_le_right _ _)
    ((min_le_left _ _).trans (by omega)) behind.budget).mono
    fun _ _ kept => kept.mono le_rfl (min_le_left _ _)

/-- A level with at most one operator consumes if its operands do. -/
theorem nonAssociative_ends {ops : List TokenKind} {chain : Fault} (noEnd : TokenKind.eof ∉ ops)
    (consumes : Consumes size bound operand) :
    Consumes size bound (nonAssociative limits operand ops chain) := by
  intro start rounds cursor within ready
  unfold nonAssociative Builder.nonAssociative
  refine .bind (consumes within ready) fun left c₁ behindLeft => ?_
  refine .bind (current_ends behindLeft.ready) ?_
  rintro token c₂ ⟨ready₂, full⟩
  split
  next isOperator =>
    have notEnd : token.kind ≠ .eof :=
      fun isEnd => noEnd (isEnd ▸ List.contains_iff_mem.mp isOperator)
    refine .bind (advance_ends ready₂ full notEnd) ?_
    rintro op c₃ ⟨rfl, behindOp⟩
    refine .bind (consumes (by omega) behindOp.ready) fun right c₄ behindRight => ?_
    refine .bind (current_ends behindRight.ready) ?_
    rintro next c₅ ⟨ready₅, full₅⟩
    split
    next isSecond =>
      have notEnd : next.kind ≠ .eof :=
        fun isEnd => noEnd (isEnd ▸ List.contains_iff_mem.mp isSecond)
      refine .bind (advance_ends ready₅ full₅ notEnd) ?_
      rintro second c₆ ⟨rfl, behindSecond⟩
      refine .bind (consumes (by omega) behindSecond.ready) fun chained c₇ behindChained => ?_
      have lt : right.node.span.index < chained.node.span.stop :=
        behindRight.index_lt_stop (behindSecond.stop_le.trans behindChained.stop_le)
      refine .bind (cover_ends behindRight.index_le lt behindChained.ready)
        fun span c₈ behindSpan => ?_
      exact .fail (behindSpan.isDiagnosis _)
    next =>
      have lt : left.node.span.index < right.node.span.stop :=
        behindLeft.index_lt_stop (behindOp.stop_le.trans behindRight.stop_le)
      exact (binaryNode_ends behindLeft.index_le lt ready₅).mono
        fun _ _ kept => kept.mono le_rfl (by omega)
  next => exact .pure ⟨behindLeft.index_le, behindLeft.filled, ready₂⟩

/-! ## Prefix operators -/

/-- Behind a run of prefix operators, these may be applied to any operand that follows. -/
theorem prefixRun_ends (limits : Limits) {fuel : Nat} (enough : rounds ≤ fuel)
    (ready : cursor.Ready size start rounds) :
    Ends (prefixRun fuel) cursor
      (fun ops after => ∃ later ≥ start, after.Ready size later rounds ∧
        ∀ (operand : Measured) (left : Nat) (last : Cursor),
          last.Behind size later left operand.node.span →
          Ends (applyPrefixes limits operand ops) last
            (fun result final => final.Behind size start left result.node.span)
            (Diagnosing size))
      (Diagnosing size) := by
  induction fuel generalizing cursor start rounds with
  | zero => exact absurd ready.few (by omega)
  | succ fuel ih =>
    unfold prefixRun
    refine .bind (current_ends ready) ?_
    rintro token c₁ ⟨ready₁, full⟩
    split
    next isPrefix =>
      have notEnd : token.kind ≠ .eof := by
        intro isEnd
        rw [isEnd] at isPrefix
        revert isPrefix
        decide
      refine .bind (advance_ends ready₁ full notEnd) ?_
      rintro op c₂ ⟨rfl, behindOp⟩
      refine .bind (ih (by omega) behindOp.ready) ?_
      rintro ops c₃ ⟨later, le, ready₃, apply⟩
      refine .pure ⟨later, behindOp.stop_le.trans le, ready₃.mono (by omega), ?_⟩
      intro operand left last behindOperand
      unfold applyPrefixes Builder.applyPrefixes
      refine .bind (apply operand left last behindOperand) fun inner c₄ behindInner => ?_
      have lt : op.span.index < inner.node.span.stop :=
        behindOp.index_lt_stop behindInner.stop_le
      exact .bind (cover_ends behindOp.index_le lt behindInner.ready)
        fun span c₅ behindSpan => build_ends behindSpan
    next =>
      exact .pure ⟨start, le_rfl, ready₁, fun operand left last behind => .pure behind⟩

/-- Unary expressions consume if primary ones do. -/
theorem unary_ends {expression : Parse Measured}
    (consumes : Consumes size bound (primary limits expression)) :
    Consumes size bound (unary limits expression) := by
  intro start rounds cursor within ready
  unfold unary Builder.unary
  refine budget_bind_ends (.bind (prefixRun_ends limits (min_le_right _ _) ready.budget) ?_)
  rintro ops c₁ ⟨later, le, ready₁, apply⟩
  have ready₁ := ready₁.mono (min_le_left _ _)
  exact .bind (consumes within ready₁) fun operand c₂ behind => apply operand _ c₂ behind

/-! ## Statements and brackets -/

/-- A type annotation leaves the cursor ready, further on or where it was. -/
theorem typePart_ends (ready : cursor.Ready size start rounds) :
    Ends typePart cursor (fun _ after => ∃ later ≥ start, after.Ready size later rounds)
      (Diagnosing size) := by
  unfold typePart
  refine .bind (accept_ends (by decide) ready) fun colon? c₁ kept => ?_
  cases colon? with
  | none => exact .pure ⟨start, le_rfl, kept⟩
  | some colon =>
    refine .map ((expect_ends .expectName (by decide) kept.ready).mono fun name c₂ behind => ?_)
    exact ⟨_, kept.stop_le.trans behind.stop_le, behind.ready.mono (by omega)⟩

section Inside

variable {expression : Parse Measured} (consumes : Consumes size bound expression)

include consumes in
/-- A binding leaves the cursor behind its node. -/
theorem letStatement_ends (within : rounds ≤ bound) (ready : cursor.Ready size start rounds)
    (full : cursor.lookahead = some token) (notEnd : token.kind ≠ .eof) :
    Ends (letStatement limits expression) cursor
      (fun result after => after.Behind size start (rounds - 1) result.node.span)
      (Diagnosing size) := by
  unfold letStatement Builder.letStatement
  refine .bind (advance_ends ready full notEnd) ?_
  rintro keyword c₁ ⟨rfl, behindKeyword⟩
  refine .bind (expect_ends _ (by decide) behindKeyword.ready) fun name c₂ behindName => ?_
  refine .bind (typePart_ends behindName.ready) ?_
  rintro type? c₃ ⟨later, le, ready₃⟩
  refine .bind (expect_ends _ (by decide) ready₃) fun assign c₄ behindAssign => ?_
  refine .bind (consumes (by omega) behindAssign.ready) fun value c₅ behindValue => ?_
  refine .bind (expect_ends _ (by decide) behindValue.ready) fun semi c₆ behindSemi => ?_
  have lt : keyword.span.index < semi.span.stop :=
    behindKeyword.index_lt_stop (behindName.stop_le.trans (le.trans (behindAssign.stop_le.trans
      (behindValue.stop_le.trans behindSemi.stop_le))))
  refine .bind (cover_ends behindKeyword.index_le lt behindSemi.ready) fun span c₇ behind => ?_
  exact (build_ends behind).mono fun _ _ kept => kept.mono le_rfl (by omega)

/-- The end of a statement is not before the end of its expression. -/
theorem statementEnd_ends {expr : Node} (ready : cursor.Ready size expr.span.stop rounds) :
    Ends (statementEnd expr) cursor
      (fun stop after => expr.span.stop ≤ stop.stop ∧ after.Ready size stop.stop rounds)
      (Diagnosing size) := by
  unfold statementEnd
  split
  next =>
    refine .bind (accept_ends (by decide) ready) fun semi? c₁ kept => ?_
    cases semi? with
    | none => exact .pure ⟨le_rfl, kept⟩
    | some semi => exact .pure ⟨kept.stop_le, kept.ready.mono (by omega)⟩
  next =>
    refine .bind (expect_ends _ (by decide) ready) fun semi c₁ behind => ?_
    exact .pure ⟨behind.stop_le, behind.ready.mono (by omega)⟩

/-- An expression becomes a statement, behind whose node the cursor then is. -/
theorem expressionStatement_ends {expr : Measured}
    (behind : cursor.Behind size start rounds expr.node.span) :
    Ends (expressionStatement limits expr) cursor
      (fun result after => after.Behind size start rounds result.node.span) (Diagnosing size) := by
  unfold expressionStatement Builder.expressionStatement
  refine .bind (statementEnd_ends behind.ready) ?_
  rintro stop c₁ ⟨le, ready⟩
  exact .bind (cover_ends behind.index_le (behind.index_lt_stop le) ready)
    fun span c₂ behindSpan => build_ends behindSpan

include consumes in
/-- Statements consume if the expressions in them do. -/
theorem statement_ends : Consumes size bound (statement limits expression) := by
  intro start rounds cursor within ready
  unfold statement Builder.statement
  refine .bind (current_ends ready) ?_
  rintro token c₁ ⟨ready₁, full⟩
  split
  next isLet => exact letStatement_ends consumes within ready₁ full (by rw [isLet]; decide)
  next =>
    exact .bind (consumes within ready₁) fun expr c₂ behind => expressionStatement_ends behind

include consumes in
/-- Every round of the loop consumes a statement. -/
theorem blockItems_ends {fuel : Nat} (enough : rounds ≤ fuel) (within : rounds ≤ bound)
    (ready : cursor.Ready size start rounds) :
    Ends (blockItems limits expression fuel) cursor
      (fun _ after => ∃ later ≥ start, after.Ready size later rounds) (Diagnosing size) := by
  induction fuel generalizing cursor start rounds with
  | zero => exact absurd ready.few (by omega)
  | succ fuel ih =>
    -- behind a statement, what is left is done by the rounds that are left
    have goOn {stmt : Measured} {c : Cursor}
        (behind : c.Behind size start (rounds - 1) stmt.node.span) :
        Ends (blockItems limits expression fuel) c
          (fun _ after => ∃ later ≥ start, after.Ready size later rounds) (Diagnosing size) := by
      refine (ih (by omega) (by omega) behind.ready).mono ?_
      rintro _ after ⟨later, le, ready⟩
      exact ⟨later, behind.stop_le.trans le, ready.mono (by omega)⟩
    unfold blockItems Builder.blockItems
    refine .bind (current_ends ready) ?_
    rintro token c₁ ⟨ready₁, full⟩
    dsimp only
    split
    next => exact .pure ⟨start, le_rfl, ready₁⟩
    next =>
      split
      next isLet =>
        refine .bind (letStatement_ends consumes within ready₁ full (by rw [isLet]; decide))
          fun stmt c₂ behind => ?_
        exact .bind (goOn behind) fun _ _ kept => .pure kept
      next =>
        refine .bind (consumes within ready₁) fun expr c₂ behind => ?_
        refine .bind (current_ends behind.ready) ?_
        rintro next c₃ ⟨ready₃, _⟩
        split
        next => exact .pure ⟨_, behind.stop_le, ready₃.mono (by omega)⟩
        next =>
          refine .bind (expressionStatement_ends ⟨behind.index_le, behind.filled, ready₃⟩)
            fun stmt c₄ behindStmt => ?_
          exact .bind (goOn behindStmt) fun _ _ kept => .pure kept

include consumes in
/-- Blocks consume, in one round more than the expressions in them. -/
theorem block_ends : Consumes size (bound + 1) (block limits expression) := by
  intro start rounds cursor within ready
  unfold block Builder.block
  refine .bind (expect_ends _ (by decide) ready) fun opening c₁ behindOpening => ?_
  refine .bind (openBracket_ends (behindOpening.isDiagnosis _)) ?_
  rintro _ _ rfl
  refine budget_bind_ends ?_
  have inside := (behindOpening.ready.withNesting (c₁.nesting + 1)).budget
  refine .bind (blockItems_ends consumes (min_le_right _ _) ((min_le_left _ _).trans (by omega))
    inside) ?_
  rintro ⟨stmts, last?⟩ c₂ ⟨later, le, ready₂⟩
  refine .bind (expect_ends _ (by decide) (ready₂.mono (min_le_left _ _)))
    fun closing c₃ behindClosing => ?_
  refine .bind (closeBracket_ends behindClosing.ready) fun _ c₄ ready₄ => ?_
  have lt : opening.span.index < closing.span.stop :=
    behindOpening.index_lt_stop (le.trans behindClosing.stop_le)
  refine .bind (cover_ends behindOpening.index_le lt ready₄) fun span c₅ behind => ?_
  exact (build_ends behind).mono fun _ _ kept => kept.mono le_rfl (by omega)

include consumes in
/-- A group leaves the cursor behind its node. -/
theorem group_ends (within : rounds ≤ bound + 1) (ready : cursor.Ready size start rounds)
    (full : cursor.lookahead = some token) (isOpening : token.kind = .lparen) :
    Ends (group limits expression token) cursor
      (fun result after => after.Behind size start (rounds - 1) result.node.span)
      (Diagnosing size) := by
  have notEnd : token.kind ≠ .eof := by
    rw [isOpening]
    decide
  unfold group Builder.group
  refine .bind (openBracket_ends (ready.isDiagnosis full _)) ?_
  rintro _ _ rfl
  refine .bind (advance_ends (ready.withNesting (cursor.nesting + 1)) full notEnd) ?_
  rintro opening c₁ ⟨rfl, behindOpening⟩
  refine .bind (consumes (by omega) behindOpening.ready) fun inner c₂ behindInner => ?_
  refine .bind (expect_ends _ (by decide) behindInner.ready) fun closing c₃ behindClosing => ?_
  refine .bind (closeBracket_ends behindClosing.ready) fun _ c₄ ready₄ => ?_
  have lt : opening.span.index < closing.span.stop :=
    behindOpening.index_lt_stop (behindInner.stop_le.trans behindClosing.stop_le)
  refine .bind (cover_ends behindOpening.index_le lt ready₄) fun span c₅ behind => ?_
  exact (build_ends behind).mono fun _ _ kept => kept.mono le_rfl (by omega)

/-- A leaf has the span of its token, which is not the end. -/
theorem leafNode?_span {node : Node} (found : leafNode? token = some node) :
    node.span = token.span ∧ token.kind ≠ .eof := by
  unfold leafNode? at found
  split at found <;> cases found <;> rename_i isKind <;> exact ⟨rfl, by rw [isKind]; decide⟩

include consumes in
/-- Primary expressions consume, in one round more than the expressions in brackets. -/
theorem primary_ends : Consumes size (bound + 1) (primary limits expression) := by
  intro start rounds cursor within ready
  unfold primary Builder.primary
  refine .bind (current_ends ready) ?_
  rintro token c₁ ⟨ready₁, full⟩
  split
  next node found =>
    obtain ⟨span_eq, notEnd⟩ := leafNode?_span found
    refine .bind (advance_ends ready₁ full notEnd) ?_
    rintro taken c₂ ⟨rfl, behind⟩
    refine .pure ?_
    rw [← span_eq] at behind
    exact behind
  next =>
    split
    next => exact block_ends consumes within ready₁
    next =>
      split
      next isOpening => exact group_ends consumes within ready₁ full isOpening
      next => exact report_ends _ ready₁ full

include consumes in
/-- Expressions of the loosest level consume, in one round more than those in brackets. -/
theorem equality_ends : Consumes size (bound + 1) (equality limits expression) := by
  have product : Consumes size (bound + 1) (product limits expression) :=
    leftAssociative_ends (by decide) (unary_ends (primary_ends consumes))
  have concatenation : Consumes size (bound + 1) (concatenation limits expression) :=
    leftAssociative_ends (by decide) (leftAssociative_ends (by decide) product)
  exact nonAssociative_ends (by decide) (nonAssociative_ends (by decide) concatenation)

end Inside

/-! ## Expressions and programs -/

/-- Expressions consume in as many rounds as there is depth. -/
theorem expressionWithin_ends (depth : Nat) :
    Consumes size depth (expressionWithin limits depth) := by
  induction depth with
  | zero =>
    intro start rounds cursor within ready
    exact absurd ready.few (by omega)
  | succ depth ih => exact equality_ends ih

/-- Statements up to the end leave the cursor ready, if there are as many rounds as tokens. -/
theorem statements_ends {expression : Parse Measured} (consumes : Consumes size bound expression)
    {fuel : Nat} (enough : rounds ≤ fuel) (within : rounds ≤ bound)
    (ready : cursor.Ready size start rounds) :
    Ends (statements limits expression fuel) cursor
      (fun _ after => ∃ later, after.Ready size later rounds) (Diagnosing size) := by
  induction fuel generalizing cursor start rounds with
  | zero => exact absurd ready.few (by omega)
  | succ fuel ih =>
    unfold statements Builder.statements
    refine .bind (current_ends ready) ?_
    rintro token c₁ ⟨ready₁, _⟩
    split
    next => exact .pure ⟨start, ready₁⟩
    next =>
      refine .bind (statement_ends consumes within ready₁) fun stmt c₂ behind => ?_
      refine .bind (ih (by omega) (by omega) behind.ready) ?_
      rintro stmts c₃ ⟨later, ready₃⟩
      exact .pure ⟨later, ready₃.mono (by omega)⟩

/-- A program ends with its tree or a diagnosis. -/
theorem program_ends (ready : cursor.Ready size start rounds) :
    Ends (program limits) cursor (fun _ _ => True) (Diagnosing size) := by
  unfold program withBrackets Builder.withBrackets Builder.program
  refine budget_bind_ends (budget_bind_ends ?_)
  refine .bind (statements_ends (expressionWithin_ends _) (min_le_right _ _) (min_le_right _ _)
    ready.budget) ?_
  rintro stmts c₁ ⟨later, ready₁⟩
  refine .bind (current_ends ready₁) ?_
  rintro finish c₂ ⟨ready₂, full⟩
  -- the span of the whole is empty only if the source is
  obtain ⟨_, ⟨⟩, inside, atEnd⟩ := ready₂.isDiagnosis full .tooDeep
  dsimp only at inside atEnd
  have stop_eq : Span.stop ⟨0, finish.span.stop⟩ = finish.span.stop := Nat.zero_add _
  have run : cover ⟨0, 0⟩ finish.span c₂ = (.ok ⟨0, finish.span.stop⟩, c₂) :=
    cover_eq rfl stop_eq (stop_eq.le.trans (ready₂.size_eq ▸ inside))
  refine .bind (.of_ok run rfl : Ends _ _ (fun span _ => span = ⟨0, finish.span.stop⟩) _) ?_
  rintro _ c₃ rfl
  show Ends (build limits (.module ⟨0, finish.span.stop⟩ (stmts.map Measured.node)) stmts) c₃ _ _
  simp only [build]
  split
  next => exact .of_ok rfl trivial
  next =>
    refine .fail ⟨_, rfl, stop_eq.le.trans inside, fun empty => ?_⟩
    obtain ⟨atStart, noLength⟩ := Nat.add_eq_zero_iff.mp empty
    exact atStart.symm.trans (atEnd noLength)

end Parse

/-- The start of a source is ready for more rounds than there are readings. -/
theorem Cursor.ready_start (source : Source) :
    (start source).Ready source.size 0 ((start source).pending.length + 1) where
  consistent := consistent_start source
  size_eq := rfl
  line := line_of_chain (@Stream.readings_chain (.startingAt source 0) (Nat.zero_le _))
  few := Nat.lt_succ_self _

/-- A source that is not parsed is so for a diagnosis, whatever the limits are. -/
theorem Parse.program_error {limits : Limits} {source : Source} {failure : Failure} {after : Cursor}
    (run : program limits (Cursor.start source) = (.error failure, after)) :
    failure.IsDiagnosis source.size :=
  (program_ends (Cursor.ready_start source)).error run

end SinosLang
