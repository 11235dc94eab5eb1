import SinosLang.Proofs.Parse.Failures
import SinosLang.Proofs.Parse.Tolerant

/-!
# What was consumed may be completed

Where the parser stands, something of the grammar is awaited: whatever word of the awaited category
came next, the tokens up to its end could be completed to a sentence. Every rule that is awaited
consumes a word of its category, or fails at a token before which everything may still be completed.
The rules inside another one are awaited because the rest of that one may be written behind them.

Main statement: `allStatements_viable`.
-/

set_option autoImplicit false

namespace SinosLang

open Grammar Cursor

namespace Grammar

/-- Some tokens may be completed to a sentence. -/
def Viable (tokens : List Token) : Prop :=
  ∃ more, Sentence (tokens ++ more)

/-- Behind some tokens a word of a category may come: up to its end they may be completed. -/
def Awaits (tokens : List Token) (category : Category) : Prop :=
  ∀ word, Word category word → Viable (tokens ++ word)

/-- A token that may complete something. -/
def filler (kind : TokenKind) (text : String) : Token :=
  ⟨kind, text.toList, Span.origin⟩

/-- A name is an expression of every level. -/
theorem Word.ofName {level : Level} : Word (.expression level) [filler .ident "x"] := by
  have primary : Word (.expression .primary) [filler .ident "x"] := .leaf (by decide)
  exact primary.loosen (by cases level <;> decide)

/-- Prefix operators may come before an operand. -/
theorem Word.prefixes {ops tokens : List Token} (arePrefixes : ∀ op ∈ ops, op.kind ∈ prefixOperators)
    (word : Word (.expression .prefixed) tokens) : Word (.expression .prefixed) (ops ++ tokens) := by
  induction ops with
  | nil => exact word
  | cons op ops ih =>
    exact .unary (arePrefixes op List.mem_cons_self)
      (ih fun other isIn => arePrefixes other (List.mem_cons_of_mem _ isIn))

/-- A statement may come before the items of a block. -/
theorem Word.items_cons {first items : List Token} (isFirst : Word .statement first)
    (word : Word .items items) : Word .items (first ++ items) := by
  cases word with
  | onlyStatements stmts => exact .onlyStatements (.moreStatements isFirst stmts)
  | ending stmts last =>
    rw [← List.append_assoc]
    exact .ending (.moreStatements isFirst stmts) last

namespace Awaits

variable {consumed front : List Token} {category inner : Category}

/-- Within a category, a part of it is awaited behind what comes before the part. -/
theorem inside (awaits : Awaits consumed category)
    (fits : ∀ word, Word inner word → ∃ behind, Word category (front ++ word ++ behind)) :
    Awaits (consumed ++ front) inner := by
  intro word isWord
  obtain ⟨behind, whole⟩ := fits word isWord
  obtain ⟨more, isSentence⟩ := awaits _ whole
  refine ⟨behind ++ more, ?_⟩
  simpa using isSentence

/-- The part that a category begins with is awaited where the category is. -/
theorem first (awaits : Awaits consumed category)
    (fits : ∀ word, Word inner word → ∃ behind, Word category (word ++ behind)) :
    Awaits consumed inner := by
  rw [← List.append_nil consumed]
  apply awaits.inside
  exact fits

/-- The part that a category ends with is awaited behind all the others. -/
theorem last (awaits : Awaits consumed category)
    (fits : ∀ word, Word inner word → Word category (front ++ word)) :
    Awaits (consumed ++ front) inner := by
  apply awaits.inside
  intro word isWord
  refine ⟨[], ?_⟩
  rw [List.append_nil]
  exact fits word isWord

/-- What a word of the awaited category begins with may be completed. -/
theorem viable (awaits : Awaits consumed category) {behind : List Token}
    (word : Word category (front ++ behind)) : Viable (consumed ++ front) := by
  obtain ⟨more, isSentence⟩ := awaits _ word
  refine ⟨behind ++ more, ?_⟩
  simpa using isSentence

/-- Behind an operator, its right operand is awaited. -/
theorem right {level : Level} {left : List Token} {op : Token}
    (awaits : Awaits consumed (.expression level)) (isLeft : Word (.expression level) left)
    (isOperator : op.kind ∈ level.operators) :
    Awaits (consumed ++ (left ++ [op])) (.expression level.tighter) := by
  apply awaits.last
  intro word isWord
  exact .binary isLeft isOperator isWord

/-- Where an expression of a level is awaited, one of the next tighter level is. -/
theorem tighter {level : Level} (awaits : Awaits consumed (.expression level))
    (notPrimary : level ≠ .primary) : Awaits consumed (.expression level.tighter) :=
  fun word isWord => awaits word (.operand notPrimary isWord)

/-- Where a statement is awaited, an expression is: a semicolon may come behind it. -/
theorem expression (awaits : Awaits consumed .statement) :
    Awaits consumed (.expression .equality) := by
  apply awaits.first
  intro word isWord
  exact ⟨[filler .semi ";"], .terminated isWord rfl⟩

/-- Where an expression is awaited, what was consumed may be completed. -/
theorem viable_expression {level : Level} (awaits : Awaits consumed (.expression level)) :
    Viable consumed := by
  obtain ⟨more, isSentence⟩ := awaits _ Word.ofName
  rw [List.append_assoc] at isSentence
  exact ⟨_, isSentence⟩

/-- Where the items of a block are awaited, a statement is. -/
theorem statement (awaits : Awaits consumed .items) : Awaits consumed .statement := by
  apply awaits.first
  intro word isWord
  exact ⟨[], .onlyStatements (.moreStatements isWord .noStatements)⟩

/-- Behind a statement in a block, more items are awaited. -/
theorem items_behind (awaits : Awaits consumed .items) (isFirst : Word .statement front) :
    Awaits (consumed ++ front) .items := by
  apply awaits.last
  intro word isWord
  exact .items_cons isFirst isWord

end Awaits

end Grammar

/-- What the lexer reports about a source is excused. -/
theorem Cursor.excused_of_start {source : Source} {failure : Failure}
    (isIn : .error failure ∈ (start source).pending) : Parse.Excused failure := by
  obtain ⟨reading, isReading, outcome_eq⟩ := List.mem_map.mp isIn
  have chain := @Stream.readings_chain (.startingAt source 0) (Nat.zero_le _)
  obtain ⟨d, rfl, isLexical, _⟩ := (chain.goesOn reading isReading).failure failure outcome_eq
  rintro _ ⟨⟩
  revert isLexical
  cases d.fault <;> decide

/-- A cursor that has consumed some tokens from the start of a source on. -/
structure Cursor.Past (source : Source) (consumed : List Token) (cursor : Cursor) : Prop where
  consistent : cursor.Consistent
  pending_eq : (start source).pending = consumed.map .ok ++ cursor.pending
  source_eq : cursor.source = source

/-- At the start of a source nothing has been consumed. -/
theorem Cursor.past_start (source : Source) : (start source).Past source [] :=
  ⟨consistent_start source, rfl, rfl⟩

namespace Cursor.Past

variable {source : Source} {consumed tokens : List Token} {cursor after : Cursor}

/-- Behind tokens that are consumed next, those of before and these have been consumed. -/
theorem of_moves (past : cursor.Past source consumed) (moves : Moves cursor tokens after) :
    after.Past source (consumed ++ tokens) where
  consistent := moves.consistent
  pending_eq := by
    rw [past.pending_eq, moves.pending_eq, List.map_append, List.append_assoc]
  source_eq := moves.source_eq.trans past.source_eq

/-- The number of open brackets has nothing to do with what has been consumed. -/
theorem withNesting (past : cursor.Past source consumed) (nesting : Int) :
    (cursor.withNesting nesting).Past source consumed :=
  ⟨past.consistent.withNesting nesting, past.pending_eq, past.source_eq⟩

/-- A failure that is still pending is excused. -/
theorem excused (past : cursor.Past source consumed) {failure : Failure}
    (isIn : .error failure ∈ cursor.pending) : Parse.Excused failure := by
  apply excused_of_start
  rw [past.pending_eq]
  exact List.mem_append_right _ isIn

end Cursor.Past

/-- From a cursor that had consumed some tokens on, a word of a category was consumed. -/
def Cursor.HasRead (source : Source) (consumed : List Token) (category : Category)
    (cursor : Cursor) : Prop :=
  ∃ tokens, Word category tokens ∧ cursor.Past source (consumed ++ tokens)

namespace Parse

variable {source : Source} {consumed tokens : List Token} {cursor : Cursor} {limits : Limits}

/-- A failure that is excused, or the report of a token before which everything may be completed. -/
def Blames (source : Source) (failure : Failure) (after : Cursor) : Prop :=
  Excused failure ∨ ∃ fault token consumed, failure = .diagnostic ⟨fault, token.span⟩ ∧
    after.Past source consumed ∧ after.lookahead = some token ∧ Viable consumed

/-! ## The cursor -/

/-- A run ends well if it answers as promised whenever it answers, and fails as admitted whenever it
fails. -/
theorem Ends.of_runs {α : Type} {action : Parse α} {promised : α → Cursor → Prop}
    {admitted : Failure → Cursor → Prop}
    (ok : ∀ value after, action cursor = (.ok value, after) → promised value after)
    (error : ∀ failure after, action cursor = (.error failure, after) → admitted failure after) :
    Ends action cursor promised admitted := by
  match run : action cursor with
  | (.ok value, after) => exact .of_ok run (ok value after run)
  | (.error failure, after) => exact .of_error run (error failure after run)

/-- The failure of a pull is one of those to be read. -/
theorem pull_error {failure : Failure} {after : Cursor}
    (run : pull cursor = (.error failure, after)) :
    .error failure ∈ cursor.upcoming.map Reading.outcome := by
  unfold pull at run
  split at run
  next => cases run
  next reading later more =>
    split at run
    next => cases run
    next isFailure =>
      cases run
      rw [more, ← isFailure]
      exact List.mem_cons_self

/-- The failure of a look at the token ahead is still to be consumed. -/
theorem current_error {failure : Failure} {after : Cursor}
    (run : current cursor = (.error failure, after)) :
    .error failure ∈ cursor.pending := by
  unfold current at run
  split at run
  next => cases run
  next empty =>
    unfold Cursor.pending
    rw [empty]
    exact pull_error run

/-- The failure of consuming a token is still to be consumed. -/
theorem advance_error {failure : Failure} {after : Cursor} (consistent : cursor.Consistent)
    (run : advance cursor = (.error failure, after)) : .error failure ∈ cursor.pending := by
  unfold advance at run
  match looked : current cursor with
  | (.error failure', middle) =>
    rw [bind_apply_of_error looked] at run
    cases run
    exact current_error looked
  | (.ok held, middle) =>
    rw [bind_apply_of_ok looked] at run
    obtain ⟨moves, full⟩ := current_ok consistent looked
    split at run
    next => cases run
    next notEnd =>
      match pulled : pull middle with
      | (.ok next, final) =>
        rw [bind_apply_of_ok pulled] at run
        cases run
      | (.error failure', final) =>
        rw [bind_apply_of_error pulled] at run
        cases run
        rw [moves.pending_eq]
        unfold Cursor.pending
        simp only [full, if_neg notEnd]
        exact List.mem_cons_of_mem _ (pull_error pulled)

/-- A look at the token ahead consumes nothing. -/
theorem current_viable (past : cursor.Past source consumed) :
    Ends current cursor
      (fun token after => after.Past source consumed ∧ after.lookahead = some token)
      (Blames source) := by
  apply Ends.of_runs
  · intro token after run
    obtain ⟨moves, full⟩ := current_ok past.consistent run
    have past' := past.of_moves moves
    rw [List.append_nil] at past'
    exact ⟨past', full⟩
  · intro failure after run
    exact .inl (past.excused (current_error run))

/-- Consuming the token ahead puts it behind those consumed before. -/
theorem advance_viable {token : Token} (past : cursor.Past source consumed)
    (full : cursor.lookahead = some token) (notEnd : token.kind ≠ .eof) :
    Ends advance cursor
      (fun taken after => taken = token ∧ after.Past source (consumed ++ [token]))
      (Blames source) := by
  apply Ends.of_runs
  · intro taken after run
    obtain rfl := advance_eq_lookahead full run
    exact ⟨rfl, past.of_moves (advance_ok past.consistent run notEnd).1⟩
  · intro failure after run
    exact .inl (past.excused (advance_error past.consistent run))

/-- A match that is found puts its token behind those consumed before, and any other consumes
nothing. -/
theorem accept_viable {kinds : List TokenKind} (noEnd : TokenKind.eof ∉ kinds)
    (past : cursor.Past source consumed) :
    Ends (accept kinds) cursor
      (fun taken? after => match taken? with
        | some taken => taken.kind ∈ kinds ∧ after.Past source (consumed ++ [taken])
        | none => after.Past source consumed)
      (Blames source) := by
  unfold accept
  refine .bind (current_viable past) ?_
  rintro token after ⟨past, full⟩
  split
  next isOne =>
    have isOne : token.kind ∈ kinds := List.contains_iff_mem.mp isOne
    refine .bind (advance_viable past full fun isEnd => noEnd (isEnd ▸ isOne)) ?_
    rintro taken after ⟨rfl, past⟩
    exact .pure ⟨isOne, past⟩
  next => exact .pure past

/-- What is not expected is reported where everything before it may be completed. -/
theorem expect_viable {kind : TokenKind} (fault : Fault) (notEnd : kind ≠ .eof)
    (past : cursor.Past source consumed) (viable : Viable consumed) :
    Ends (expect kind fault) cursor
      (fun token after => token.kind = kind ∧ after.Past source (consumed ++ [token]))
      (Blames source) := by
  have noEnd : TokenKind.eof ∉ [kind] := fun isIn => notEnd (List.mem_singleton.mp isIn).symm
  unfold expect expectAny
  refine .bind (accept_viable noEnd past) fun taken? after kept => ?_
  cases taken? with
  | some taken => exact .pure ⟨List.mem_singleton.mp kept.1, kept.2⟩
  | none =>
    refine .bind (current_viable kept) ?_
    rintro token after ⟨past, full⟩
    exact .fail (.inr ⟨fault, token, consumed, rfl, past, full, viable⟩)

/-! ### Actions that only fail in excused ways -/

/-- Covering two spans consumes nothing. -/
theorem cover_viable (first last : Span) :
    Ends (cover first last) cursor (fun _ after => after = cursor) (Blames source) :=
  .of_runs (fun _ _ run => (congrArg Prod.snd run).symm) fun _ _ run =>
    .inl fun d isDiagnostic => absurd isDiagnostic (cover_error run d)

/-- Building a node consumes nothing, and its failure is excused. -/
theorem build_viable (node : Node) (parts : List Measured) :
    Ends (build limits node parts) cursor
      (fun result after => result.node = node ∧ after = cursor) (Blames source) := by
  unfold build
  dsimp only
  split
  · exact .pure ⟨rfl, rfl⟩
  · exact .fail (.inl (by rintro _ ⟨⟩; rfl))

/-- Opening a bracket consumes nothing, and its failure is excused. -/
theorem openBracket_viable (bracket : Token) :
    Ends (openBracket limits bracket) cursor
      (fun _ after => after = cursor.withNesting (cursor.nesting + 1)) (Blames source) :=
  openBracket_ends (.inl (by rintro _ ⟨⟩; rfl))

/-- Closing a bracket consumes nothing. -/
theorem closeBracket_viable :
    Ends closeBracket cursor
      (fun _ after => after = cursor.withNesting (cursor.nesting - 1)) (Blames source) :=
  .of_ok rfl rfl

/-- The node of an operator is no block, and building it consumes nothing. -/
theorem binaryNode_viable (op : Token) (left right : Measured) :
    Ends (binaryNode limits op left right) cursor
      (fun result after => result.node.isBlock = false ∧ after = cursor) (Blames source) := by
  rcases binaryNode_quiet limits op left right cursor with ⟨_, run, _, rfl⟩ |
    ⟨failure, run, isExcused, _⟩
  · exact .of_ok run ⟨rfl, rfl⟩
  · exact .of_error run (.inl isExcused)

/-! ## Levels of operators -/

/-- Wherever an expression of a level is awaited, a rule consumes one or fails at a token before which
everything may be completed. -/
def Obtains (rule : Parse Measured) (level : Level) : Prop :=
  ∀ ⦃source : Source⦄ ⦃consumed : List Token⦄ ⦃cursor : Cursor⦄,
    cursor.Past source consumed → Awaits consumed (.expression level) →
    Ends rule cursor
      (fun result after => ∃ tokens, Worded level tokens result.node ∧
        after.Past source (consumed ++ tokens))
      (Blames source)

section Levels

variable {level : Level} {operand : Parse Measured} (obtains : Obtains operand level.tighter)
include obtains

omit obtains in
/-- An operator is not the end. -/
theorem notEnd_of_operator {kind : TokenKind} (isOperator : kind ∈ level.operators) :
    kind ≠ .eof := by
  rintro rfl
  revert isOperator
  cases level <;> decide

omit obtains in
/-- The operator ahead is consumed, and its right operand awaited. -/
theorem operator_viable {left : List Token} {op : Token}
    (past : cursor.Past source (consumed ++ left)) (full : cursor.lookahead = some op)
    (awaits : Awaits consumed (.expression level)) (isLeft : Word (.expression level) left)
    (isOperator : op.kind ∈ level.operators) :
    Ends advance cursor
      (fun taken after => taken = op ∧ after.Past source (consumed ++ (left ++ [op])) ∧
        Awaits (consumed ++ (left ++ [op])) (.expression level.tighter))
      (Blames source) := by
  refine (advance_viable past full (notEnd_of_operator isOperator)).mono ?_
  rintro taken after ⟨rfl, past⟩
  rw [List.append_assoc] at past
  exact ⟨rfl, past, awaits.right isLeft isOperator⟩

/-- What was parsed of a level goes on with operators and operands. -/
theorem extendLeft_viable {rounds : Nat} {left : Measured}
    (past : cursor.Past source (consumed ++ tokens))
    (awaits : Awaits consumed (.expression level)) (worded : Worded level tokens left.node) :
    Ends (extendLeft limits operand level.operators rounds left) cursor
      (fun result after => ∃ tokens, Worded level tokens result.node ∧
        after.Past source (consumed ++ tokens))
      (Blames source) := by
  induction rounds generalizing cursor tokens left with
  | zero => exact .fail (.inl (by rintro _ ⟨⟩))
  | succ rounds ih =>
    unfold extendLeft Builder.extendLeft
    refine .bind (current_viable past) ?_
    rintro next c₁ ⟨past, full⟩
    split
    next isOperator =>
      have isOperator : next.kind ∈ level.operators := List.contains_iff_mem.mp isOperator
      refine .bind (operator_viable past full awaits worded.word isOperator) ?_
      rintro op c₂ ⟨rfl, past, awaitsRight⟩
      refine .bind (obtains past awaitsRight) ?_
      rintro right c₃ ⟨rightTokens, wordedRight, past⟩
      refine .bind (binaryNode_viable op left right) ?_
      rintro whole _ ⟨notBlock, rfl⟩
      rw [List.append_assoc] at past
      refine ih past ⟨.binary worded.word isOperator wordedRight.word, ?_⟩
      rw [notBlock]
      exact fun isBlock => absurd isBlock (by decide)
    next => exact .pure ⟨tokens, worded, past⟩

/-- A level with any number of operators obtains an expression of that level if its operands do. -/
theorem leftAssociative_viable (notPrimary : level ≠ .primary) :
    Obtains (leftAssociative limits operand level.operators) level := by
  intro source consumed cursor past awaits
  unfold leftAssociative Builder.leftAssociative
  refine .bind (obtains past (awaits.tighter notPrimary)) ?_
  rintro first c₁ ⟨tokens, worded, past⟩
  exact budget_bind_ends (extendLeft_viable obtains past awaits
    ⟨.operand notPrimary worded.word, worded.block⟩)

/-- A level with at most one operator obtains an expression of that level if its operands do. -/
theorem nonAssociative_viable {chain : Fault} (notPrimary : level ≠ .primary)
    (isExcused : chain.isExpectation = false) :
    Obtains (nonAssociative limits operand level.operators chain) level := by
  intro source consumed cursor past awaits
  unfold nonAssociative Builder.nonAssociative
  refine .bind (obtains past (awaits.tighter notPrimary)) ?_
  rintro left c₁ ⟨leftTokens, worded, past⟩
  have isLeft : Word (.expression level) leftTokens := .operand notPrimary worded.word
  refine .bind (current_viable past) ?_
  rintro next c₂ ⟨past, full⟩
  split
  next isOperator =>
    have isOperator : next.kind ∈ level.operators := List.contains_iff_mem.mp isOperator
    refine .bind (operator_viable past full awaits isLeft isOperator) ?_
    rintro op c₃ ⟨rfl, past, awaitsRight⟩
    refine .bind (obtains past awaitsRight) ?_
    rintro right c₄ ⟨rightTokens, wordedRight, past⟩
    have isWhole : Word (.expression level) (leftTokens ++ [op] ++ rightTokens) :=
      .binary isLeft isOperator wordedRight.word
    rw [List.append_assoc] at past
    refine .bind (current_viable past) ?_
    rintro second c₅ ⟨past, full⟩
    split
    next isSecond =>
      have isSecond : second.kind ∈ level.operators := List.contains_iff_mem.mp isSecond
      refine .bind (operator_viable past full awaits isWhole isSecond) ?_
      rintro _ c₆ ⟨rfl, past, awaitsChained⟩
      refine .bind (obtains past awaitsChained) ?_
      rintro chained c₇ _
      exact .bind (cover_viable _ _) fun span _ _ => .fail (.inl (by rintro _ ⟨⟩; exact isExcused))
    next =>
      refine (binaryNode_viable op left right).mono ?_
      rintro whole _ ⟨notBlock, rfl⟩
      refine ⟨_, ⟨isWhole, ?_⟩, past⟩
      rw [notBlock]
      exact fun isBlock => absurd isBlock (by decide)
  next => exact .pure ⟨leftTokens, ⟨isLeft, worded.block⟩, past⟩

end Levels

/-! ## Prefix operators -/

/-- The loop over prefix operators puts them behind the tokens consumed before. -/
theorem prefixRun_viable {rounds : Nat} (past : cursor.Past source consumed) :
    Ends (prefixRun rounds) cursor
      (fun ops after => (∀ op ∈ ops, op.kind ∈ prefixOperators) ∧
        after.Past source (consumed ++ ops))
      (Blames source) := by
  induction rounds generalizing cursor consumed with
  | zero => exact .fail (.inl (by rintro _ ⟨⟩))
  | succ rounds ih =>
    unfold prefixRun
    refine .bind (current_viable past) ?_
    rintro next c₁ ⟨past, full⟩
    split
    next isPrefix =>
      have isPrefix : next.kind ∈ prefixOperators := List.contains_iff_mem.mp isPrefix
      have notEnd : next.kind ≠ .eof := by
        intro isEnd
        rw [isEnd] at isPrefix
        exact absurd isPrefix (by decide)
      refine .bind (advance_viable past full notEnd) ?_
      rintro op c₂ ⟨rfl, past⟩
      refine .bind (ih past) ?_
      rintro ops c₃ ⟨arePrefixes, past⟩
      rw [List.append_assoc] at past
      exact .pure ⟨List.forall_mem_cons.mpr ⟨isPrefix, arePrefixes⟩, past⟩
    next =>
      refine .pure ⟨fun _ isIn => absurd isIn List.not_mem_nil, ?_⟩
      rw [List.append_nil]
      exact past

/-- Behind prefix operators there is no block any more. -/
theorem applyPrefixes_viable (operand : Measured) (ops : List Token) :
    Ends (applyPrefixes limits operand ops) cursor
      (fun result after => (result.node.isBlock = true → ops = [] ∧ result = operand) ∧
        after = cursor)
      (Blames source) := by
  induction ops with
  | nil => exact .pure ⟨fun _ => ⟨rfl, rfl⟩, rfl⟩
  | cons op ops ih =>
    unfold applyPrefixes Builder.applyPrefixes
    refine .bind ih ?_
    rintro inner _ ⟨_, rfl⟩
    refine .bind (cover_viable _ _) ?_
    rintro span _ rfl
    refine (build_viable _ _).mono ?_
    rintro result _ ⟨node_eq, rfl⟩
    rw [node_eq]
    exact ⟨fun isBlock => (by cases isBlock), rfl⟩

/-- Unary expressions are obtained if primary ones are. -/
theorem unary_viable {expression : Parse Measured}
    (obtains : Obtains (primary limits expression) .primary) :
    Obtains (unary limits expression) .prefixed := by
  intro source consumed cursor past awaits
  refine budget_bind_ends (.bind (prefixRun_viable past) ?_)
  rintro ops c₁ ⟨arePrefixes, past⟩
  have awaitsOperand : Awaits (consumed ++ ops) (.expression .primary) := by
    apply awaits.last
    intro word isWord
    exact (isWord.loosen (by decide)).prefixes arePrefixes
  refine .bind (obtains past awaitsOperand) ?_
  rintro operand c₂ ⟨tokens, worded, past⟩
  refine (applyPrefixes_viable operand ops).mono ?_
  rintro result _ ⟨isOperand, rfl⟩
  rw [List.append_assoc] at past
  refine ⟨ops ++ tokens, ⟨(worded.word.loosen (by decide)).prefixes arePrefixes, ?_⟩, past⟩
  intro isBlock
  obtain ⟨rfl, rfl⟩ := isOperand isBlock
  exact worded.block isBlock

/-! ## Statements -/

/-- A type annotation is consumed, or fails where it may be completed. -/
theorem typePart_viable (past : cursor.Past source consumed)
    (viable : ∀ colon : Token, colon.kind = .colon → Viable (consumed ++ [colon])) :
    Ends typePart cursor
      (fun _ after => ∃ tokens type?, TypePart tokens type? ∧
        after.Past source (consumed ++ tokens))
      (Blames source) := by
  unfold typePart
  refine .bind (accept_viable (by decide) past) fun colon? c₁ kept => ?_
  cases colon? with
  | none => exact .pure ⟨[], none, .absent, by rw [List.append_nil]; exact kept⟩
  | some colon =>
    obtain ⟨isColon, past⟩ := kept
    have isColon : colon.kind = .colon := List.mem_singleton.mp isColon
    refine .map ((expect_viable .expectName (by decide) past (viable colon isColon)).mono ?_)
    rintro type c₂ ⟨isType, past⟩
    rw [List.append_assoc] at past
    exact ⟨[colon, type], some type.value, .present isColon isType, past⟩

section Inside

variable {expression : Parse Measured} (obtains : Obtains expression .equality)
include obtains

/-- A let statement is completed from wherever it breaks off. -/
theorem letStatement_viable {keyword : Token} (past : cursor.Past source consumed)
    (awaits : Awaits consumed .statement) (full : cursor.lookahead = some keyword)
    (isLet : keyword.kind = .letKeyword) :
    Ends (letStatement limits expression) cursor
      (fun _ after => after.HasRead source consumed .statement) (Blames source) := by
  have notEnd : keyword.kind ≠ .eof := by
    rw [isLet]
    decide
  -- whatever is missing, the statement is completed with a name, an equals sign and a semicolon
  have whole {name assign semi : Token} {type value : List Token} {type? : Option Text}
      (isName : name.kind = .ident) (isType : TypePart type type?) (isAssign : assign.kind = .assign)
      (isValue : Word (.expression .equality) value) (isSemi : semi.kind = .semi) :
      Word .statement ([keyword] ++ ([name] ++ (type ++ ([assign] ++ (value ++ [semi]))))) := by
    simpa using Word.binding isLet isName isType isAssign isValue isSemi
  have name : (filler .ident "x").kind = .ident := rfl
  have equals : (filler .assign "=").kind = .assign := rfl
  have semicolon : (filler .semi ";").kind = .semi := rfl
  unfold letStatement Builder.letStatement
  refine .bind (advance_viable past full notEnd) ?_
  rintro _ c₁ ⟨rfl, past⟩
  refine .bind (expect_viable .expectName (by decide) past
    (awaits.viable (whole name .absent equals .ofName semicolon))) ?_
  rintro binding c₂ ⟨isName, past⟩
  rw [List.append_assoc] at past
  refine .bind (typePart_viable past fun colon isColon => ?_) ?_
  · rw [List.append_assoc]
    apply awaits.viable
    simpa using whole isName (.present isColon name) equals .ofName semicolon
  rintro _ c₃ ⟨type, type?, isType, past⟩
  rw [List.append_assoc] at past
  refine .bind (expect_viable .expectEqual (by decide) past ?_) ?_
  · apply awaits.viable
    simpa using whole isName isType equals .ofName semicolon
  rintro assign c₄ ⟨isAssign, past⟩
  rw [List.append_assoc] at past
  refine .bind (obtains past ?_) ?_
  · apply awaits.inside
    intro value isValue
    refine ⟨[filler .semi ";"], ?_⟩
    simpa using whole isName isType isAssign isValue semicolon
  rintro value c₅ ⟨valueTokens, worded, past⟩
  rw [List.append_assoc] at past
  refine .bind (expect_viable .expectSemi (by decide) past ?_) ?_
  · apply awaits.viable
    simpa using whole isName isType isAssign worded.word semicolon
  rintro semi c₆ ⟨isSemi, past⟩
  rw [List.append_assoc] at past
  refine .bind (cover_viable _ _) ?_
  rintro span _ rfl
  refine (build_viable _ _).mono ?_
  rintro result _ ⟨_, rfl⟩
  refine ⟨_, ?_, past⟩
  simpa using whole isName isType isAssign worded.word isSemi

omit obtains in
/-- Behind an expression, a semicolon completes a statement; a block does without. -/
theorem statementEnd_viable {node : Node} (past : cursor.Past source (consumed ++ tokens))
    (awaits : Awaits consumed .statement) (worded : Worded .equality tokens node) :
    Ends (statementEnd node) cursor
      (fun _ after => after.HasRead source consumed .statement) (Blames source) := by
  unfold statementEnd
  split
  next isBlock =>
    refine .bind (accept_viable (by decide) past) fun semi? c₁ kept => ?_
    cases semi? with
    | none => exact .pure ⟨tokens, .standing (worded.block isBlock), kept⟩
    | some semi =>
      obtain ⟨isSemi, past⟩ := kept
      rw [List.append_assoc] at past
      exact .pure ⟨_, .terminated worded.word (List.mem_singleton.mp isSemi), past⟩
  next =>
    have semicolon : (filler .semi ";").kind = .semi := rfl
    have viable : Viable (consumed ++ tokens) :=
      awaits.viable (.terminated worded.word semicolon)
    refine .bind (expect_viable .expectSemi (by decide) past viable) ?_
    rintro semi c₁ ⟨isSemi, past⟩
    rw [List.append_assoc] at past
    exact .pure ⟨_, .terminated worded.word isSemi, past⟩

omit obtains in
/-- An expression becomes a statement, or fails where the statement may be completed. -/
theorem expressionStatement_viable {expr : Measured}
    (past : cursor.Past source (consumed ++ tokens)) (awaits : Awaits consumed .statement)
    (worded : Worded .equality tokens expr.node) :
    Ends (expressionStatement limits expr) cursor
      (fun _ after => after.HasRead source consumed .statement) (Blames source) := by
  unfold expressionStatement Builder.expressionStatement
  refine .bind (statementEnd_viable past awaits worded) ?_
  rintro stop c₁ ⟨tokens, isWord, past⟩
  refine .bind (cover_viable _ _) ?_
  rintro span _ rfl
  refine (build_viable _ _).mono ?_
  rintro result _ ⟨_, rfl⟩
  exact ⟨tokens, isWord, past⟩

/-- A statement is consumed, or fails where it may be completed. -/
theorem statement_viable (past : cursor.Past source consumed)
    (awaits : Awaits consumed .statement) :
    Ends (statement limits expression) cursor
      (fun _ after => after.HasRead source consumed .statement) (Blames source) := by
  unfold statement Builder.statement
  refine .bind (current_viable past) ?_
  rintro token c₁ ⟨past, full⟩
  split
  next isLet => exact letStatement_viable obtains past awaits full isLet
  next =>
    refine .bind (obtains past awaits.expression) ?_
    rintro expr c₂ ⟨tokens, worded, past⟩
    exact expressionStatement_viable past awaits worded

/-- What a block holds is awaited anew behind every statement in it. -/
theorem blockItems_viable {rounds : Nat} (past : cursor.Past source consumed)
    (awaits : Awaits consumed .items) :
    Ends (blockItems limits expression rounds) cursor
      (fun _ after => after.HasRead source consumed .items) (Blames source) := by
  induction rounds generalizing cursor consumed with
  | zero => exact .fail (.inl (by rintro _ ⟨⟩))
  | succ rounds ih =>
    -- the items that come behind a statement
    have goOn {stmt : Measured} {first : List Token} {middle : Cursor}
        (past : middle.Past source (consumed ++ first)) (isFirst : Word .statement first) :
        Ends (blockItems limits expression rounds >>= fun found =>
            Pure.pure (stmt :: found.1, found.2)) middle
          (fun _ after => after.HasRead source consumed .items) (Blames source) := by
      refine .bind (ih past (awaits.items_behind isFirst)) ?_
      rintro found c₁ ⟨tokens, isItems, past⟩
      rw [List.append_assoc] at past
      exact .pure ⟨first ++ tokens, .items_cons isFirst isItems, past⟩
    unfold blockItems Builder.blockItems
    refine .bind (current_viable past) ?_
    rintro token c₁ ⟨past, full⟩
    dsimp only
    split
    next =>
      refine .pure ⟨[], .onlyStatements .noStatements, ?_⟩
      rw [List.append_nil]
      exact past
    next =>
      split
      next isLet =>
        refine .bind (letStatement_viable obtains past awaits.statement full isLet) ?_
        rintro stmt c₂ ⟨tokens, isWord, past⟩
        exact goOn past isWord
      next =>
        refine .bind (obtains past awaits.statement.expression) ?_
        rintro expr c₂ ⟨tokens, worded, past⟩
        refine .bind (current_viable past) ?_
        rintro next c₃ ⟨past, _⟩
        split
        next => exact .pure ⟨tokens, .ending .noStatements worded.word, past⟩
        next =>
          refine .bind (expressionStatement_viable past awaits.statement worded) ?_
          rintro stmt c₄ ⟨tokens, isWord, past⟩
          exact goOn past isWord

/-! ## Brackets -/

/-- A block is consumed, or fails where it may be completed. -/
theorem block_viable (past : cursor.Past source consumed)
    (awaits : Awaits consumed (.expression .primary)) :
    Ends (block limits expression) cursor
      (fun result after => ∃ tokens, Worded .primary tokens result.node ∧
        after.Past source (consumed ++ tokens))
      (Blames source) := by
  have whole {opening closing : Token} {items : List Token} (isOpening : opening.kind = .lbrace)
      (isItems : Word .items items) (isClosing : closing.kind = .rbrace) :
      Word .block ([opening] ++ (items ++ [closing])) := by
    simpa using Word.block isOpening isItems isClosing
  have brace : (filler .rbrace "\x7d").kind = .rbrace := rfl
  unfold block Builder.block
  refine .bind (expect_viable .expectExpr (by decide) past awaits.viable_expression) ?_
  rintro opening c₁ ⟨isOpening, past⟩
  refine .bind (openBracket_viable opening) ?_
  rintro _ _ rfl
  refine budget_bind_ends (.bind (blockItems_viable obtains (past.withNesting _) ?_) ?_)
  · apply awaits.inside
    intro items isItems
    refine ⟨[filler .rbrace "\x7d"], .ofBlock ?_⟩
    simpa using whole isOpening isItems brace
  rintro found c₂ ⟨items, isItems, past⟩
  rw [List.append_assoc] at past
  refine .bind (expect_viable .expectBraceClose (by decide) past ?_) ?_
  · apply awaits.viable
    simpa using Word.ofBlock (whole isOpening isItems brace)
  rintro closing c₃ ⟨isClosing, past⟩
  have past := past.withNesting (c₃.nesting - 1)
  rw [List.append_assoc, List.append_assoc] at past
  refine .bind closeBracket_viable ?_
  rintro _ _ rfl
  refine .bind (cover_viable _ _) ?_
  rintro span _ rfl
  refine (build_viable _ _).mono ?_
  rintro result _ ⟨_, rfl⟩
  have isBlock := whole isOpening isItems isClosing
  exact ⟨_, ⟨.ofBlock isBlock, fun _ => isBlock⟩, past⟩

/-- A group is consumed, or fails where it may be completed. -/
theorem group_viable {opening : Token} (past : cursor.Past source consumed)
    (awaits : Awaits consumed (.expression .primary)) (full : cursor.lookahead = some opening)
    (isOpening : opening.kind = .lparen) :
    Ends (group limits expression opening) cursor
      (fun result after => ∃ tokens, Worded .primary tokens result.node ∧
        after.Past source (consumed ++ tokens))
      (Blames source) := by
  have whole {tokens : List Token} {closing : Token} (isInner : Word (.expression .equality) tokens)
      (isClosing : closing.kind = .rparen) :
      Word (.expression .primary) ([opening] ++ (tokens ++ [closing])) := by
    simpa using Word.group isOpening isInner isClosing
  have parenthesis : (filler .rparen ")").kind = .rparen := rfl
  have notEnd : opening.kind ≠ .eof := by
    rw [isOpening]
    decide
  unfold group Builder.group
  refine .bind (openBracket_viable opening) ?_
  rintro _ _ rfl
  refine .bind (advance_viable (past.withNesting _) full notEnd) ?_
  rintro _ c₁ ⟨rfl, past⟩
  refine .bind (obtains past ?_) ?_
  · apply awaits.inside
    intro tokens isInner
    refine ⟨[filler .rparen ")"], ?_⟩
    simpa using whole isInner parenthesis
  rintro inner c₂ ⟨tokens, worded, past⟩
  rw [List.append_assoc] at past
  refine .bind (expect_viable .expectParenClose (by decide) past ?_) ?_
  · apply awaits.viable
    simpa using whole worded.word parenthesis
  rintro closing c₃ ⟨isClosing, past⟩
  have past := past.withNesting (c₃.nesting - 1)
  rw [List.append_assoc, List.append_assoc] at past
  refine .bind closeBracket_viable ?_
  rintro _ _ rfl
  refine .bind (cover_viable _ _) ?_
  rintro span _ rfl
  refine (build_viable _ _).mono ?_
  rintro result _ ⟨node_eq, rfl⟩
  refine ⟨_, ⟨whole worded.word isClosing, ?_⟩, past⟩
  rw [node_eq]
  exact fun isBlock => (by cases isBlock)

omit obtains in
/-- A token that is a leaf by itself is a word. -/
theorem leaf_worded {token : Token} {node : Node} (found : leafNode? token = some node) :
    Worded .primary [token] node := by
  have nothing : HasWords .equality fun _ _ => False := fun _ _ h => h.elim
  exact primary_hasWords nothing _ _ (leafNode?_eq_some found).1

/-- Primary expressions are obtained if nested ones are. -/
theorem primary_viable : Obtains (primary limits expression) .primary := by
  intro source consumed cursor past awaits
  unfold primary Builder.primary
  refine .bind (current_viable past) ?_
  rintro token c₁ ⟨past, full⟩
  cases found : leafNode? token with
  | some node =>
    dsimp only
    have worded := leaf_worded found
    have notEnd : token.kind ≠ .eof := worded.word.endless token List.mem_cons_self
    refine .bind (advance_viable past full notEnd) ?_
    rintro _ c₂ ⟨rfl, past⟩
    exact .pure ⟨_, worded, past⟩
  | none =>
    dsimp only
    split
    next => exact block_viable obtains past awaits
    next =>
      split
      next isOpening => exact group_viable obtains past awaits full isOpening
      next =>
        exact .fail (.inr ⟨.expectExpr, token, consumed, rfl, past, full, awaits.viable_expression⟩)

/-- Every level obtains its expressions if the ones inside brackets are obtained. -/
theorem equality_viable : Obtains (equality limits expression) .equality := by
  have prefixed : Obtains (unary limits expression) .prefixed :=
    unary_viable (primary_viable obtains)
  have product : Obtains (product limits expression) .product :=
    leftAssociative_viable prefixed (by decide)
  have sum : Obtains (sum limits expression) .sum := leftAssociative_viable product (by decide)
  have concatenation : Obtains (concatenation limits expression) .concatenation :=
    leftAssociative_viable sum (by decide)
  have comparison : Obtains (comparison limits expression) .comparison :=
    nonAssociative_viable concatenation (by decide) rfl
  exact nonAssociative_viable comparison (by decide) rfl

/-- Statements are awaited up to the end. -/
theorem statements_viable {rounds : Nat} (past : cursor.Past source consumed)
    (awaits : Awaits consumed .statements) :
    Ends (statements limits expression rounds) cursor (fun _ _ => True) (Blames source) := by
  induction rounds generalizing cursor consumed with
  | zero => exact .fail (.inl (by rintro _ ⟨⟩))
  | succ rounds ih =>
    unfold statements Builder.statements
    refine .bind (current_viable past) ?_
    rintro token c₁ ⟨past, full⟩
    split
    next => exact .pure trivial
    next =>
      refine .bind (statement_viable obtains past ?_) ?_
      · apply awaits.first
        intro word isWord
        exact ⟨[], .moreStatements isWord .noStatements⟩
      rintro stmt c₂ ⟨tokens, isWord, past⟩
      refine .bind (ih past ?_) fun _ _ _ => .pure trivial
      apply awaits.last
      intro word isWord'
      exact .moreStatements isWord isWord'

end Inside

/-- Expressions of any depth are obtained. -/
theorem expressionWithin_viable (depth : Nat) :
    Obtains (expressionWithin limits depth) .equality := by
  induction depth with
  | zero => exact fun _ _ _ _ _ => .fail (.inl (by rintro _ ⟨⟩))
  | succ depth ih => exact equality_viable ih

/-- A program fails in an excused way or at a token before which everything may be completed. -/
theorem allStatements_viable (source : Source) :
    Ends (allStatements limits) (Cursor.start source) (fun _ _ => True) (Blames source) := by
  have awaits : Awaits [] .statements := by
    intro word isWord
    refine ⟨[], ?_⟩
    rw [List.append_nil]
    exact isWord
  exact budget_bind_ends (budget_bind_ends (statements_viable (expressionWithin_viable _)
    (past_start source) awaits))

end Parse

end SinosLang
