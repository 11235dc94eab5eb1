import SinosLang.Proofs.Grammar.Chains
import SinosLang.Proofs.Parse.Soundness

/-!
# What is derived is parsed

An action of the parser is complete for a phrase if it succeeds wherever the tokens ahead begin with
the yield of a tree of the phrase, the tree keeps within the limits, and behind the yield comes a
token at which the phrase has to stop. It then answers with that very tree and has consumed its
yield. Loops are given more rounds than there are tokens, and brackets more depth, so neither ever
runs out.

Main statement: a program of the grammar that keeps within the limits is parsed.
-/

set_option autoImplicit false

namespace SinosLang

open Grammar Cursor

/-- A span in place between two parts starts with the first and ends with the last of them. -/
theorem Grammar.InPlace.ends {front middle last : List Token} {first final span : Span}
    (inPlace : InPlace (front ++ middle ++ last) span) (atFront : InPlace front first)
    (atLast : InPlace last final) : span.index = first.index ∧ span.stop = final.stop := by
  obtain ⟨a, b, head, tail, index_eq, stop_eq⟩ := inPlace
  obtain ⟨a', _, head', _, start, _⟩ := atFront
  obtain ⟨_, b', _, tail', _, finish⟩ := atLast
  rw [List.append_assoc, List.head?_append, head'] at head
  rw [List.getLast?_append, tail'] at tail
  obtain rfl : a' = a := Option.some.inj head
  obtain rfl : b' = b := Option.some.inj tail
  exact ⟨index_eq.trans start.symm, stop_eq.trans finish.symm⟩

/-- A span in place ends where its last token does. -/
theorem Grammar.InPlace.stop_le {tokens : List Token} {span : Span} {size : Nat}
    (inPlace : InPlace tokens span) (inside : ∀ token ∈ tokens, token.span.stop ≤ size) :
    span.stop ≤ size := by
  obtain ⟨_, last, _, tail, _, stop_eq⟩ := inPlace
  rw [stop_eq]
  exact inside last (List.mem_of_getLast? tail)

namespace Grammar.Level

/-- An operator of a level ends its operands. -/
theorem tighter_stops {level : Level} {kind : TokenKind} (isOperator : kind ∈ level.operators) :
    level.tighter.Stops kind := by
  intro tight le
  revert isOperator le
  cases level <;> cases tight <;> cases kind <;> decide

/-- What stops a level stops every tighter one. -/
theorem Stops.tighter {level : Level} {kind : TokenKind} (stops : level.Stops kind) :
    level.tighter.Stops kind := by
  intro tight le
  refine stops tight (le_trans ?_ le)
  cases level <;> decide

end Grammar.Level

/-- The tokens at the front of those that are held are inside the source. -/
theorem Cursor.Holds.inside_left {cursor : Cursor} {tokens rest : List Token}
    (holds : cursor.Holds (tokens ++ rest)) :
    ∀ token ∈ tokens, token.span.stop ≤ cursor.source.size :=
  fun token isIn => holds.inside token (List.mem_append_left _ isIn)

namespace Parse

/-- Wherever the tokens ahead begin with a yield of a phrase that is shorter than the bound, for a
tree within the limits, and go on with a token at which the phrase may stop, an action answers with
that tree and leaves what comes behind it. -/
def Complete (limits : Limits) (bound : Nat) (rule : Parse Measured) (phrase : Phrase)
    (stops : TokenKind → Prop) : Prop :=
  ∀ ⦃cursor : Cursor⦄ ⦃tokens rest : List Token⦄ ⦃node : Node⦄, cursor.Holds (tokens ++ rest) →
    tokens.length < bound → phrase tokens node → stops (nextKind rest .eof) →
    limits.Fits cursor.nesting node → limits.allows node.height = true →
    ∃ after, rule cursor = (.ok node.measured, after) ∧ Reaches cursor rest after

variable {limits : Limits} {bound : Nat} {expr : Phrase} {cursor : Cursor} {tokens rest : List Token}
  {node : Node}

/-- A node is built from its measured children. -/
theorem build_measured_eq (parts : List Node) (children_eq : node.children = parts)
    (allowed : limits.allows node.height = true) :
    build limits node (parts.map Node.measured) cursor = (.ok node.measured, cursor) :=
  build_eq (Node.recorded_height children_eq) allowed

/-! ## Levels of operators -/

/-- The tree of a binary operator is built once both operands are there. -/
theorem binaryNode_eq {op : Token} {left right : Node} {span : Span}
    {leftTokens rightTokens : List Token} (leftPlaced : InPlace leftTokens left.span)
    (rightPlaced : InPlace rightTokens right.span)
    (placed : InPlace (leftTokens ++ [op] ++ rightTokens) span)
    (inside : ∀ token ∈ leftTokens ++ [op] ++ rightTokens, token.span.stop ≤ cursor.source.size)
    (allowed : limits.allows (Node.binary span op.value left right).height = true) :
    binaryNode limits op left.measured right.measured cursor =
      (.ok (Node.binary span op.value left right).measured, cursor) := by
  obtain ⟨index_eq, stop_eq⟩ := placed.ends leftPlaced rightPlaced
  have covered : cover left.measured.node.span right.measured.node.span cursor =
      (.ok span, cursor) := cover_eq index_eq stop_eq (placed.stop_le inside)
  unfold binaryNode Builder.binaryNode
  rw [bind_apply_of_ok covered]
  exact build_measured_eq [left, right] rfl allowed

section Chains

variable {operand : Parse Measured} {phrase : Phrase} {stops : TokenKind → Prop}
  {ops : List TokenKind} (complete : Complete limits bound operand phrase stops)
  (tight : ∀ kind ∈ ops, stops kind)
  (placed : ∀ tokens node, phrase tokens node → InPlace tokens node.span)
include complete tight placed

/-- The loop of a level that groups to the left gets from the first operand to the whole chain. -/
theorem extendLeft_eq (holds : cursor.Holds (tokens ++ rest)) (short : tokens.length < bound)
    (derived : Chain InPlace phrase ops tokens node) (isStop : stops (nextKind rest .eof))
    (fits : limits.Fits cursor.nesting node) (allowed : limits.allows node.height = true) :
    ∃ first later c₁ steps c₂, operand cursor = (.ok first.measured, c₁) ∧
      Reaches cursor (later ++ rest) c₁ ∧ steps ≤ later.length ∧ Reaches c₁ rest c₂ ∧
      ∀ rounds, extendLeft limits operand ops (steps + rounds) (Node.measured first) c₁ =
        extendLeft limits operand ops rounds node.measured c₂ := by
  induction derived generalizing rest with
  | single derived =>
    obtain ⟨c₁, run, reaches⟩ := complete holds short derived isStop fits allowed
    refine ⟨_, [], c₁, 0, c₁, run, reaches, Nat.zero_le _,
      ⟨reaches.holds, reaches.sees, rfl, rfl⟩, fun rounds => ?_⟩
    rw [Nat.zero_add]
  | @longer leftTokens rightTokens op left right span leftDerived isOperator rightDerived inPlace
      ih =>
    have leftChild : left ∈ (Node.binary span op.value left right).children := by
      simp [Node.children]
    have rightChild : right ∈ (Node.binary span op.value left right).children := by
      simp [Node.children]
    simp only [List.length_append, List.length_cons, List.length_nil] at short
    have holds' : cursor.Holds (leftTokens ++ (op :: (rightTokens ++ rest))) := by
      simpa using holds
    obtain ⟨first, later, c₁, steps, c₂, run, reaches, few, reaches', extend⟩ :=
      ih holds' (by omega) (tight _ isOperator) (fits.of_child leftChild)
        (Limits.allows_child allowed leftChild)
    obtain ⟨c₃, advanced, reaches₃⟩ := exists_advance reaches'.holds
    have nesting : c₃.nesting = cursor.nesting :=
      reaches₃.nesting_eq.trans (reaches'.nesting_eq.trans reaches.nesting_eq)
    obtain ⟨c₄, parsed, reaches₄⟩ := complete reaches₃.holds (by omega) rightDerived isStop
      (nesting ▸ fits.of_child rightChild) (Limits.allows_child allowed rightChild)
    have source : c₄.source = cursor.source :=
      reaches₄.source_eq.trans (reaches₃.source_eq.trans
        (reaches'.source_eq.trans reaches.source_eq))
    have built : binaryNode limits op left.measured right.measured c₄ =
        (.ok (Node.binary span op.value left right).measured, c₄) :=
      binaryNode_eq (leftDerived.placed_span placed) (placed _ _ rightDerived) inPlace
        (source ▸ holds.inside_left) allowed
    refine ⟨first, later ++ (op :: rightTokens), c₁, steps + 1, c₄, run, ?_, ?_,
      (reaches'.trans reaches₃).trans reaches₄, fun rounds => ?_⟩
    · simpa using reaches
    · simp only [List.length_append, List.length_cons]
      omega
    · obtain ⟨held, sees⟩ := reaches'.sees
      obtain rfl := reaches'.holds.lookahead_eq sees
      rw [Nat.add_assoc, extend, Nat.add_comm 1, extendLeft, Builder.extendLeft,
        bind_apply_of_ok (current_of_lookahead sees),
        if_pos (List.contains_iff_mem.mpr isOperator), bind_apply_of_ok advanced,
        bind_apply_of_ok parsed, bind_apply_of_ok built]

/-- Chains are parsed up to where neither the operand nor the chain goes on. -/
theorem leftAssociative_complete :
    Complete limits bound (leftAssociative limits operand ops) (Chain InPlace phrase ops)
      fun kind => stops kind ∧ kind ∉ ops := by
  intro cursor tokens rest node holds short derived isStop fits allowed
  obtain ⟨first, later, c₁, steps, c₂, run, reaches, few, reaches', extend⟩ :=
    extendLeft_eq complete tight placed holds short derived isStop.1 fits allowed
  obtain ⟨rounds, budgeted, enough⟩ := exists_budget reaches.holds
  obtain ⟨spare, rfl⟩ : ∃ spare, rounds = steps + (spare + 1) := by
    rw [List.length_append] at enough
    exact ⟨rounds - steps - 1, by omega⟩
  refine ⟨c₂, ?_, reaches.trans reaches'⟩
  obtain ⟨held, sees⟩ := reaches'.sees
  have noOperator : held.kind ∉ ops := by
    rw [reaches'.holds.lookahead_kind sees]
    exact isStop.2
  unfold leftAssociative Builder.leftAssociative
  rw [bind_apply_of_ok run, bind_apply_of_ok budgeted]
  refine (extend (spare + 1)).trans ?_
  rw [extendLeft, Builder.extendLeft, bind_apply_of_ok (current_of_lookahead sees),
    if_neg (fun isOperator => noOperator (List.contains_iff_mem.mp isOperator))]
  rfl

end Chains

/-- An action is complete for what its phrase contains, up to the tokens at which that one stops. -/
theorem Complete.mono {rule : Parse Measured} {phrase phrase' : Phrase}
    {stops stops' : TokenKind → Prop} (complete : Complete limits bound rule phrase stops)
    (fewer : ∀ tokens node, phrase' tokens node → phrase tokens node)
    (earlier : ∀ kind, stops' kind → stops kind) :
    Complete limits bound rule phrase' stops' :=
  fun _ _ _ _ holds short derived isStop =>
    complete holds short (fewer _ _ derived) (earlier _ isStop)

/-- A level with operators is complete for chains of operands. -/
theorem level_complete (level : Level) {operand : Parse Measured} {phrase : Phrase}
    (complete : Complete limits bound operand phrase level.tighter.Stops)
    (placed : ∀ tokens node, phrase tokens node → InPlace tokens node.span) :
    Complete limits bound (leftAssociative limits operand level.operators)
      (Chain InPlace phrase level.operators) level.Stops :=
  (leftAssociative_complete complete (fun _ => Level.tighter_stops) placed).mono
    (fun _ _ derived => derived) fun _ isStop => ⟨isStop.tighter, isStop level le_rfl⟩

/-- A level that groups to the left is complete if its operands are. -/
theorem grouping_complete (level : Level) {operand : Parse Measured} (groups : level.groups = true)
    (complete : Complete limits bound operand (Derives InPlace expr level.tighter)
      level.tighter.Stops) :
    Complete limits bound (leftAssociative limits operand level.operators)
      (Derives InPlace expr level) level.Stops :=
  (level_complete level complete fun _ _ derived => derived.placed_span).mono
    (fun _ _ derived => derived.chain groups) fun _ isStop => isStop

/-- A level with at most one operator is complete if its operands are. -/
theorem nonAssociative_complete (level : Level) {operand : Parse Measured} {chain : Fault}
    (isSingle : level = .equality ∨ level = .comparison)
    (complete : Complete limits bound operand (Derives InPlace expr level.tighter)
      level.tighter.Stops) :
    Complete limits bound (nonAssociative limits operand level.operators chain)
      (Derives InPlace expr level) level.Stops := by
  have leftOperand : level.leftOperand = level.tighter := by
    rcases isSingle with rfl | rfl <;> rfl
  intro cursor tokens rest node holds short derived stops fits allowed
  have noOperator {middle : Cursor} {held : Token} (h : middle.Holds rest)
      (sees : middle.lookahead = some held) : ¬level.operators.contains held.kind = true := by
    rw [h.lookahead_kind sees]
    exact fun isOperator => stops level le_rfl (List.contains_iff_mem.mp isOperator)
  cases derived with
  | primary _ => rcases isSingle with h | h <;> cases h
  | unary _ _ _ => rcases isSingle with h | h <;> cases h
  | operand _ derived =>
    obtain ⟨c₁, run, reaches⟩ := complete holds short derived stops.tighter fits allowed
    obtain ⟨held, sees⟩ := reaches.sees
    refine ⟨c₁, ?_, reaches⟩
    unfold nonAssociative Builder.nonAssociative
    rw [bind_apply_of_ok run, bind_apply_of_ok (current_of_lookahead sees),
      if_neg (noOperator reaches.holds sees)]
    rfl
  | @binary _ leftTokens rightTokens op left right span leftDerived isOperator rightDerived placed =>
    have leftChild : left ∈ (Node.binary span op.value left right).children := by
      simp [Node.children]
    have rightChild : right ∈ (Node.binary span op.value left right).children := by
      simp [Node.children]
    simp only [List.length_append, List.length_cons, List.length_nil] at short
    have holds' : cursor.Holds (leftTokens ++ (op :: (rightTokens ++ rest))) := by
      simpa using holds
    rw [leftOperand] at leftDerived
    obtain ⟨c₁, run, reaches⟩ := complete holds' (by omega) leftDerived
      (Level.tighter_stops isOperator) (fits.of_child leftChild)
      (Limits.allows_child allowed leftChild)
    obtain ⟨c₂, advanced, reaches₂⟩ := exists_advance reaches.holds
    have nesting : c₂.nesting = cursor.nesting := reaches₂.nesting_eq.trans reaches.nesting_eq
    obtain ⟨c₃, parsed, reaches₃⟩ := complete reaches₂.holds (by omega) rightDerived stops.tighter
      (nesting ▸ fits.of_child rightChild) (Limits.allows_child allowed rightChild)
    have source : c₃.source = cursor.source :=
      reaches₃.source_eq.trans (reaches₂.source_eq.trans reaches.source_eq)
    have built : binaryNode limits op left.measured right.measured c₃ =
        (.ok (Node.binary span op.value left right).measured, c₃) :=
      binaryNode_eq leftDerived.placed_span rightDerived.placed_span placed
        (source ▸ holds.inside_left) allowed
    refine ⟨c₃, ?_, (reaches.trans reaches₂).trans reaches₃⟩
    obtain ⟨held, sees⟩ := reaches.sees
    obtain rfl := reaches.holds.lookahead_eq sees
    obtain ⟨next, seesNext⟩ := reaches₃.sees
    unfold nonAssociative Builder.nonAssociative
    rw [bind_apply_of_ok run, bind_apply_of_ok (current_of_lookahead sees),
      if_pos (List.contains_iff_mem.mpr isOperator), bind_apply_of_ok advanced,
      bind_apply_of_ok parsed, bind_apply_of_ok (current_of_lookahead seesNext),
      if_neg (noOperator reaches₃.holds seesNext)]
    exact built

/-! ## Prefix operators -/

/-- A run of prefix operators is taken up to the first token that is none. -/
theorem exists_prefixRun {ops : List Token} {rounds : Nat} (holds : cursor.Holds (ops ++ rest))
    (arePrefixes : ∀ op ∈ ops, op.kind ∈ Grammar.prefixOperators)
    (noMore : nextKind rest .eof ∉ Grammar.prefixOperators) (enough : ops.length < rounds) :
    ∃ after, prefixRun rounds cursor = (.ok ops, after) ∧ Reaches cursor rest after := by
  induction ops generalizing cursor rounds with
  | nil =>
    obtain ⟨rounds, rfl⟩ := Nat.exists_eq_succ_of_ne_zero (Nat.ne_of_gt enough)
    obtain ⟨held, after, looked, reaches, _, kind⟩ := exists_current holds
    refine ⟨after, ?_, reaches⟩
    unfold prefixRun
    rw [bind_apply_of_ok looked, if_neg]
    · rfl
    · rw [kind]
      exact fun isPrefix => noMore (List.contains_iff_mem.mp isPrefix)
  | cons op ops ih =>
    obtain ⟨rounds, rfl⟩ := Nat.exists_eq_succ_of_ne_zero (Nat.ne_of_gt (Nat.zero_lt_of_lt enough))
    obtain ⟨held, middle, looked, reaches, full, kind⟩ := exists_current holds
    obtain ⟨c₁, advanced, reaches₁⟩ := exists_advance reaches.holds
    obtain ⟨after, run, reaches₂⟩ := ih reaches₁.holds
      (fun other isIn => arePrefixes other (List.mem_cons_of_mem _ isIn))
      (Nat.lt_of_succ_lt_succ enough)
    refine ⟨after, ?_, (reaches.trans reaches₁).trans reaches₂⟩
    have isPrefix : prefixOps.contains held.kind = true := by
      rw [kind]
      exact List.contains_iff_mem.mpr (arePrefixes op List.mem_cons_self)
    unfold prefixRun
    rw [bind_apply_of_ok looked, if_pos isPrefix, bind_apply_of_ok advanced, bind_apply_of_ok run]
    rfl

/-- An expression of the prefixed level is a primary behind a run of prefix operators, and applying
them gives it back. -/
theorem applyPrefixes_eq (derived : Derives InPlace expr .prefixed tokens node)
    (allowed : limits.allows node.height = true) :
    ∃ ops operandTokens operand, tokens = ops ++ operandTokens ∧
      (∀ op ∈ ops, op.kind ∈ Grammar.prefixOperators) ∧
      Derives InPlace expr .primary operandTokens operand ∧
      operand.bracketDepth ≤ node.bracketDepth ∧ limits.allows operand.height = true ∧
      ∀ cursor : Cursor, (∀ token ∈ tokens, token.span.stop ≤ cursor.source.size) →
        applyPrefixes limits operand.measured ops cursor = (.ok node.measured, cursor) := by
  generalize same : Level.prefixed = level at derived
  induction derived with
  | primary _ => cases same
  | binary _ isOperator _ _ _ _ =>
    subst same
    cases isOperator
  | operand _ derived _ =>
    subst same
    exact ⟨[], _, _, rfl, fun _ isIn => absurd isIn List.not_mem_nil, derived, le_rfl, allowed,
      fun _ _ => rfl⟩
  | @unary op tokens inner span isPrefix derived placed ih =>
    have isChild : inner ∈ (Node.unary span op.value inner).children := List.mem_singleton_self _
    obtain ⟨ops, operandTokens, operand, rfl, arePrefixes, primary, deep, allowed', apply⟩ :=
      ih (Limits.allows_child allowed isChild) rfl
    refine ⟨op :: ops, operandTokens, operand, rfl, ?_, primary,
      deep.trans (Node.bracketDepth_le_of_mem_children isChild), allowed', fun cursor inside => ?_⟩
    · intro other isIn
      rcases List.mem_cons.mp isIn with rfl | isLater
      · exact isPrefix
      · exact arePrefixes other isLater
    · have whole : InPlace ([op] ++ [] ++ (ops ++ operandTokens)) span := placed
      obtain ⟨index_eq, stop_eq⟩ := whole.ends (inPlace_singleton op) derived.placed_span
      have covered : cover op.span inner.measured.node.span cursor = (.ok span, cursor) :=
        cover_eq index_eq stop_eq (placed.stop_le inside)
      unfold applyPrefixes Builder.applyPrefixes
      rw [bind_apply_of_ok (apply cursor fun token isIn =>
        inside token (List.mem_cons_of_mem _ isIn)), bind_apply_of_ok covered]
      exact build_measured_eq [inner] rfl allowed

/-- Unary expressions are complete if primary ones are. -/
theorem unary_complete {expression : Parse Measured}
    (complete : Complete limits bound (primary limits expression) (Derives InPlace expr .primary)
      Level.primary.Stops) :
    Complete limits bound (unary limits expression) (Derives InPlace expr .prefixed)
      Level.prefixed.Stops := by
  intro cursor tokens rest node holds short derived stops fits allowed
  obtain ⟨ops, operandTokens, operand, rfl, arePrefixes, primary, deep, allowed', apply⟩ :=
    applyPrefixes_eq derived allowed
  obtain ⟨rounds, budgeted, enough⟩ := exists_budget holds
  simp only [List.length_append] at enough short
  have noMore : nextKind (operandTokens ++ rest) .eof ∉ Grammar.prefixOperators := by
    cases primary with
    | primary primary =>
      obtain ⟨first, later, rfl, _, noPrefix⟩ := primary.exists_head
      exact noPrefix
    | binary _ isOperator _ _ => cases isOperator
    | operand notPrimary _ => exact absurd rfl notPrimary
  rw [List.append_assoc] at holds
  have few : ops.length < rounds := by omega
  obtain ⟨c₁, run, reaches⟩ := exists_prefixRun holds arePrefixes noMore few
  obtain ⟨c₂, parsed, reaches₂⟩ := complete reaches.holds (by omega) primary
    (Level.stops_primary _) (reaches.nesting_eq ▸ fits.of_le deep) allowed'
  have source : c₂.source = cursor.source := reaches₂.source_eq.trans reaches.source_eq
  refine ⟨c₂, ?_, reaches.trans reaches₂⟩
  unfold unary Builder.unary
  rw [bind_apply_of_ok budgeted, bind_apply_of_ok run, bind_apply_of_ok parsed]
  refine apply c₂ ?_
  rw [← List.append_assoc] at holds
  exact source ▸ holds.inside_left

/-! ## Statements and brackets -/

section Inside

variable {expression : Parse Measured} {inside : Bool} {stmt : Node}

/-- A type annotation is read, if no colon is behind it. -/
theorem exists_typePart {typeTokens : List Token} {type? : Option Text}
    (holds : cursor.Holds (typeTokens ++ rest)) (type : TypePart typeTokens type?)
    (noColon : nextKind rest .eof ≠ .colon) :
    ∃ found after, typePart cursor = (.ok found, after) ∧ Reaches cursor rest after ∧
      found.map Token.value = type? := by
  cases type with
  | absent =>
    obtain ⟨after, accepted, reaches⟩ := exists_accept_none [.colon] holds
      (fun isIn => noColon (List.mem_singleton.mp isIn))
    refine ⟨none, after, ?_, reaches, rfl⟩
    unfold typePart
    rw [bind_apply_of_ok accepted]
    rfl
  | @present colon type isColon isName =>
    obtain ⟨c₁, accepted, reaches⟩ := exists_accept [.colon] holds
      (List.mem_singleton.mpr isColon)
    obtain ⟨after, named, reaches'⟩ := exists_expect .expectName reaches.holds isName
    refine ⟨some type, after, ?_, reaches.trans reaches', rfl⟩
    unfold typePart
    rw [bind_apply_of_ok accepted]
    exact bind_apply_of_ok named

/-- A semicolon ends every statement. -/
theorem exists_statementEnd_semi {semi : Token} (node : Node) (holds : cursor.Holds (semi :: rest))
    (isSemi : semi.kind = .semi) :
    ∃ after, statementEnd node cursor = (.ok semi.span, after) ∧ Reaches cursor rest after := by
  unfold statementEnd
  split
  next =>
    obtain ⟨after, accepted, reaches⟩ := exists_accept [.semi] holds
      (List.mem_singleton.mpr isSemi)
    rw [bind_apply_of_ok accepted]
    exact ⟨after, rfl, reaches⟩
  next =>
    obtain ⟨after, ended, reaches⟩ := exists_expect .expectSemi holds isSemi
    rw [bind_apply_of_ok ended]
    exact ⟨after, rfl, reaches⟩

/-- A block ends its statement itself, if no semicolon is behind it. -/
theorem exists_statementEnd_block (holds : cursor.Holds rest) (isBlock : node.isBlock = true)
    (noSemi : nextKind rest .eof ≠ .semi) :
    ∃ after, statementEnd node cursor = (.ok node.span, after) ∧ Reaches cursor rest after := by
  obtain ⟨after, accepted, reaches⟩ := exists_accept_none [.semi] holds
    (fun isIn => noSemi (List.mem_singleton.mp isIn))
  unfold statementEnd
  rw [if_pos isBlock, bind_apply_of_ok accepted]
  exact ⟨after, rfl, reaches⟩

/-- No token that starts an expression is a keyword, a closing brace or the end. -/
theorem ne_of_mem_starters {kind : TokenKind} (isStarter : kind ∈ starters) :
    kind ≠ .letKeyword ∧ ¬(kind = .rbrace ∨ kind = .eof) := by
  revert isStarter
  cases kind <;> decide

variable (complete : Complete limits bound expression expr Level.equality.Stops)
include complete

/-- A let statement is parsed from its keyword to its semicolon. -/
theorem exists_letStatement {keyword name assign semi : Token} {typeTokens valueTokens : List Token}
    {type? : Option Text} {value : Node} {span : Span}
    (holds : cursor.Holds
      ([keyword] ++ (name :: typeTokens ++ assign :: valueTokens) ++ [semi] ++ rest))
    (short : valueTokens.length < bound) (isName : name.kind = .ident)
    (type : TypePart typeTokens type?) (isAssign : assign.kind = .assign)
    (derived : expr valueTokens value) (isSemi : semi.kind = .semi)
    (inPlace : InPlace ([keyword] ++ (name :: typeTokens ++ assign :: valueTokens) ++ [semi]) span)
    (fits : limits.Fits cursor.nesting (.letStmt span name.value type? value))
    (allowed : limits.allows (Node.letStmt span name.value type? value).height = true) :
    ∃ after, letStatement limits expression cursor =
      (.ok (Node.letStmt span name.value type? value).measured, after) ∧
        Reaches cursor rest after := by
  have isChild : value ∈ (Node.letStmt span name.value type? value).children :=
    List.mem_singleton_self _
  have holds' : cursor.Holds
      (keyword :: name :: (typeTokens ++ assign :: (valueTokens ++ semi :: rest))) := by
    simpa using holds
  have noColon : assign.kind ≠ .colon := by
    rw [isAssign]
    decide
  have stops : Level.equality.Stops semi.kind := by
    rw [isSemi]
    exact Level.stops_equality_iff.mpr (by decide)
  obtain ⟨c₁, advanced, reaches₁⟩ := exists_advance holds'
  obtain ⟨c₂, named, reaches₂⟩ := exists_expect .expectName reaches₁.holds isName
  obtain ⟨found, c₃, typed, reaches₃, found_eq⟩ := exists_typePart reaches₂.holds type noColon
  obtain ⟨c₄, assigned, reaches₄⟩ := exists_expect .expectEqual reaches₃.holds isAssign
  have front := ((reaches₁.trans reaches₂).trans reaches₃).trans reaches₄
  obtain ⟨c₅, parsed, reaches₅⟩ := complete reaches₄.holds short derived stops
    (front.nesting_eq ▸ fits.of_child isChild) (Limits.allows_child allowed isChild)
  obtain ⟨c₆, ended, reaches₆⟩ := exists_expect .expectSemi reaches₅.holds isSemi
  have whole := (front.trans reaches₅).trans reaches₆
  obtain ⟨index_eq, stop_eq⟩ := inPlace.ends (inPlace_singleton keyword) (inPlace_singleton semi)
  have covered : cover keyword.span semi.span c₆ = (.ok span, c₆) :=
    cover_eq index_eq stop_eq (inPlace.stop_le (whole.source_eq ▸ holds.inside_left))
  refine ⟨c₆, ?_, whole⟩
  subst found_eq
  unfold letStatement Builder.letStatement
  rw [bind_apply_of_ok advanced, bind_apply_of_ok named, bind_apply_of_ok typed,
    bind_apply_of_ok assigned, bind_apply_of_ok parsed, bind_apply_of_ok ended,
    bind_apply_of_ok covered]
  exact build_measured_eq [value] rfl allowed

variable (placed : ∀ tokens node, expr tokens node → InPlace tokens node.span)
include placed

/-- An expression is parsed up to its semicolon, and then made a statement with it. -/
theorem exists_terminated {front : List Token} {semi : Token} {node : Node} {span : Span}
    (holds : cursor.Holds (front ++ [semi] ++ rest)) (short : front.length < bound)
    (derived : expr front node) (isSemi : semi.kind = .semi)
    (inPlace : InPlace (front ++ [semi]) span)
    (fits : limits.Fits cursor.nesting (.exprStmt span node))
    (allowed : limits.allows (Node.exprStmt span node).height = true) :
    ∃ c₁ after, expression cursor = (.ok node.measured, c₁) ∧ Reaches cursor (semi :: rest) c₁ ∧
      expressionStatement limits node.measured c₁ =
        (.ok (Node.exprStmt span node).measured, after) ∧ Reaches cursor rest after := by
  have isChild : node ∈ (Node.exprStmt span node).children := List.mem_singleton_self _
  have holds' : cursor.Holds (front ++ semi :: rest) := by simpa using holds
  have stops : Level.equality.Stops semi.kind := by
    rw [isSemi]
    exact Level.stops_equality_iff.mpr (by decide)
  obtain ⟨c₁, parsed, reaches₁⟩ := complete holds' short derived stops (fits.of_child isChild)
    (Limits.allows_child allowed isChild)
  obtain ⟨c₂, ended, reaches₂⟩ := exists_statementEnd_semi node reaches₁.holds isSemi
  have whole := reaches₁.trans reaches₂
  have inPlace' : InPlace (front ++ [] ++ [semi]) span := by
    rw [List.append_nil]
    exact inPlace
  obtain ⟨index_eq, stop_eq⟩ := inPlace'.ends (placed _ _ derived) (inPlace_singleton semi)
  have covered : cover node.measured.node.span semi.span c₂ = (.ok span, c₂) :=
    cover_eq index_eq stop_eq (inPlace.stop_le (whole.source_eq ▸ holds.inside_left))
  refine ⟨c₁, c₂, parsed, reaches₁, ?_, whole⟩
  unfold expressionStatement Builder.expressionStatement
  have ended' : statementEnd node.measured.node c₁ = (.ok semi.span, c₂) := ended
  rw [bind_apply_of_ok ended', bind_apply_of_ok covered]
  exact build_measured_eq [node] rfl allowed

/-- A block is parsed, and then made a statement without a semicolon. -/
theorem exists_standing {node : Node} {span : Span} (holds : cursor.Holds (tokens ++ rest))
    (short : tokens.length < bound) (derived : expr tokens node) (isBlock : node.isBlock = true)
    (notSemi : nextKind rest .eof ≠ .semi) (notBinary : nextKind rest .eof ∉ binaryOperators)
    (inPlace : InPlace tokens span) (fits : limits.Fits cursor.nesting (.exprStmt span node))
    (allowed : limits.allows (Node.exprStmt span node).height = true) :
    ∃ c₁ after, expression cursor = (.ok node.measured, c₁) ∧ Reaches cursor rest c₁ ∧
      expressionStatement limits node.measured c₁ =
        (.ok (Node.exprStmt span node).measured, after) ∧ Reaches cursor rest after := by
  have isChild : node ∈ (Node.exprStmt span node).children := List.mem_singleton_self _
  obtain ⟨c₁, parsed, reaches₁⟩ := complete holds short derived
    (Level.stops_equality_iff.mpr notBinary) (fits.of_child isChild)
    (Limits.allows_child allowed isChild)
  obtain ⟨c₂, ended, reaches₂⟩ := exists_statementEnd_block reaches₁.holds isBlock notSemi
  have whole := reaches₁.trans reaches₂
  obtain rfl := inPlace.unique (placed _ _ derived)
  have covered : cover node.measured.node.span node.span c₂ = (.ok node.span, c₂) :=
    cover_eq rfl rfl (inPlace.stop_le (whole.source_eq ▸ holds.inside_left))
  refine ⟨c₁, c₂, parsed, reaches₁, ?_, whole⟩
  unfold expressionStatement Builder.expressionStatement
  have ended' : statementEnd node.measured.node c₁ = (.ok node.span, c₂) := ended
  rw [bind_apply_of_ok ended', bind_apply_of_ok covered]
  exact build_measured_eq [node] rfl allowed

variable (starts : ∀ tokens node, expr tokens node →
    ∃ first later, tokens = first :: later ∧ first.kind ∈ starters)
include starts

/-- What a statement is made of decides how it is parsed: from its keyword on, or as an expression
and what completes it. -/
theorem exists_statement_run (holds : cursor.Holds (tokens ++ rest)) (short : tokens.length < bound)
    (derived : Statement InPlace expr inside (nextKind rest .eof) tokens stmt)
    (fits : limits.Fits cursor.nesting stmt) (allowed : limits.allows stmt.height = true) :
    (nextKind tokens .eof = .letKeyword ∧
      ∃ after, letStatement limits expression cursor = (.ok stmt.measured, after) ∧
        Reaches cursor rest after) ∨
    (nextKind tokens .eof ∈ starters ∧
      ∃ (node : Node) (behind : List Token) (c₁ after : Cursor),
        expression cursor = (.ok node.measured, c₁) ∧ Reaches cursor behind c₁ ∧
        (inside = true → nextKind behind .eof ≠ .rbrace) ∧
        expressionStatement limits node.measured c₁ = (.ok stmt.measured, after) ∧
        Reaches cursor rest after) := by
  cases derived with
  | @binding keyword name assign semi typeTokens valueTokens type? value span isLet isName type
      isAssign derived isSemi inPlace =>
    simp only [List.length_append, List.length_cons, List.length_nil] at short
    exact Or.inl ⟨isLet, exists_letStatement complete holds (by omega) isName type isAssign derived
      isSemi inPlace fits allowed⟩
  | @terminated front semi node span derived isSemi inPlace =>
    obtain ⟨first, later, shape, isStarter⟩ := starts _ _ derived
    have noBrace : semi.kind ≠ .rbrace := by
      rw [isSemi]
      decide
    rw [List.length_append] at short
    obtain ⟨c₁, after, parsed, reaches, run, whole⟩ := exists_terminated complete placed holds
      (by omega) derived isSemi inPlace fits allowed
    refine Or.inr ⟨?_, node, semi :: rest, c₁, after, parsed, reaches, fun _ => noBrace, run, whole⟩
    rw [shape]
    exact isStarter
  | @standing _ node span derived isBlock notSemi notBinary notBrace inPlace =>
    obtain ⟨first, later, shape, isStarter⟩ := starts _ _ derived
    obtain ⟨c₁, after, parsed, reaches, run, whole⟩ := exists_standing complete placed holds short
      derived isBlock notSemi notBinary inPlace fits allowed
    refine Or.inr ⟨?_, node, rest, c₁, after, parsed, reaches, notBrace, run, whole⟩
    rw [shape]
    exact isStarter

omit complete placed in
/-- A statement has a token. -/
theorem ne_nil_of_statement {next : TokenKind}
    (derived : Statement InPlace expr inside next tokens stmt) : tokens ≠ [] :=
  derived.ne_nil fun tokens node inner => by
    obtain ⟨_, _, rfl, _⟩ := starts _ _ inner
    exact List.cons_ne_nil _ _

omit placed in
/-- At the closing brace, or at the expression before it, the items of a block end. -/
theorem exists_blockItems_ending {rounds : Nat} {lastTokens : List Token} {last? : Option Node}
    (holds : cursor.Holds (lastTokens ++ rest)) (short : lastTokens.length < bound)
    (ending : Ending expr lastTokens last?) (closed : nextKind rest .eof = .rbrace)
    (fits : ∀ node ∈ last?.toList, limits.Fits cursor.nesting node)
    (allowed : ∀ node ∈ last?.toList, limits.allows node.height = true) :
    ∃ after, blockItems limits expression (rounds + 1) cursor =
      (.ok ([], last?.map Node.measured), after) ∧ Reaches cursor rest after := by
  obtain ⟨held, c₁, looked, reaches₁, full, kind⟩ := exists_current holds
  cases ending with
  | absent =>
    have isBrace : held.kind = .rbrace := kind.trans closed
    refine ⟨c₁, ?_, reaches₁⟩
    unfold blockItems Builder.blockItems
    rw [bind_apply_of_ok looked, if_pos (Or.inl isBrace)]
    rfl
  | @present _ node derived =>
    obtain ⟨first, later, rfl, isStarter⟩ := starts _ _ derived
    have isLast : node ∈ (some node).toList := List.mem_singleton_self _
    have stops : Level.equality.Stops (nextKind rest .eof) := by
      rw [closed]
      exact Level.stops_equality_iff.mpr (by decide)
    obtain ⟨c₂, parsed, reaches₂⟩ := complete reaches₁.holds short derived stops
      (reaches₁.nesting_eq ▸ fits node isLast) (allowed node isLast)
    obtain ⟨next, sees⟩ := reaches₂.sees
    have isBrace : next.kind = .rbrace := (reaches₂.holds.lookahead_kind sees).trans closed
    have isFirst : held.kind = first.kind := kind
    rw [← isFirst] at isStarter
    obtain ⟨notLet, notEnd⟩ := ne_of_mem_starters isStarter
    refine ⟨c₂, ?_, reaches₁.trans reaches₂⟩
    unfold blockItems Builder.blockItems
    rw [bind_apply_of_ok looked, if_neg notEnd, if_neg notLet, bind_apply_of_ok parsed,
      bind_apply_of_ok (current_of_lookahead sees), if_pos isBrace]
    rfl

/-- A statement is the first item of a block, and the others are those behind it. -/
theorem exists_blockItems_cons {rounds : Nat} {stmts : List Node} {last? : Option Node}
    (holds : cursor.Holds (tokens ++ rest)) (short : tokens.length < bound)
    (derived : Statement InPlace expr true (nextKind rest .eof) tokens stmt)
    (fits : limits.Fits cursor.nesting stmt) (allowed : limits.allows stmt.height = true)
    {finish : List Token}
    (later : ∀ ⦃middle : Cursor⦄, Reaches cursor rest middle →
      ∃ after, blockItems limits expression rounds middle =
        (.ok (stmts.map Node.measured, last?.map Node.measured), after) ∧
          Reaches middle finish after) :
    ∃ after, blockItems limits expression (rounds + 1) cursor =
      (.ok ((stmt :: stmts).map Node.measured, last?.map Node.measured), after) ∧
        Reaches cursor finish after := by
  obtain ⟨held, c₁, looked, reaches₁, full, kind⟩ := exists_current holds
  rw [nextKind_append, nextKind_of_ne_nil (ne_nil_of_statement starts derived) _ .eof] at kind
  rcases exists_statement_run complete placed starts reaches₁.holds short derived
    (reaches₁.nesting_eq ▸ fits) allowed with
    ⟨isLet, c₂, run, reaches₂⟩ | ⟨isStarter, node, ahead, c₂, c₃, parsed, reaches₂, notBrace, run,
      reaches₃⟩
  · obtain ⟨after, items, reaches⟩ := later (reaches₁.trans reaches₂)
    refine ⟨after, ?_, (reaches₁.trans reaches₂).trans reaches⟩
    rw [isLet] at kind
    unfold blockItems Builder.blockItems
    rw [bind_apply_of_ok looked, if_neg (by simp [kind]), if_pos kind, bind_apply_of_ok run,
      bind_apply_of_ok items]
    rfl
  · obtain ⟨after, items, reaches⟩ := later (reaches₁.trans reaches₃)
    refine ⟨after, ?_, (reaches₁.trans reaches₃).trans reaches⟩
    obtain ⟨next, sees⟩ := reaches₂.sees
    have noBrace : next.kind ≠ .rbrace := by
      rw [reaches₂.holds.lookahead_kind sees]
      exact notBrace rfl
    rw [← kind] at isStarter
    obtain ⟨notLet, notEnd⟩ := ne_of_mem_starters isStarter
    unfold blockItems Builder.blockItems
    rw [bind_apply_of_ok looked, if_neg notEnd, if_neg notLet, bind_apply_of_ok parsed,
      bind_apply_of_ok (current_of_lookahead sees), if_neg noBrace, bind_apply_of_ok run,
      bind_apply_of_ok items]
    rfl

/-- The items of a block are taken up to its closing brace. -/
theorem exists_blockItems {rounds : Nat} {stmtTokens lastTokens : List Token} {stmts : List Node}
    {last? : Option Node} (holds : cursor.Holds (stmtTokens ++ (lastTokens ++ rest)))
    (short : (stmtTokens ++ lastTokens).length < bound)
    (derived : Statements InPlace expr true (nextKind lastTokens .rbrace) stmtTokens stmts)
    (ending : Ending expr lastTokens last?) (closed : nextKind rest .eof = .rbrace)
    (fits : ∀ node ∈ stmts ++ last?.toList, limits.Fits cursor.nesting node)
    (allowed : ∀ node ∈ stmts ++ last?.toList, limits.allows node.height = true)
    (enough : (stmtTokens ++ lastTokens).length < rounds) :
    ∃ after, blockItems limits expression rounds cursor =
      (.ok (stmts.map Node.measured, last?.map Node.measured), after) ∧ Reaches cursor rest after := by
  obtain ⟨rounds, rfl⟩ := Nat.exists_eq_succ_of_ne_zero (Nat.ne_of_gt (Nat.zero_lt_of_lt enough))
  induction derived generalizing cursor rounds with
  | nil => exact exists_blockItems_ending complete starts holds short ending closed fits allowed
  | @cons front later stmt stmts derived _ ih =>
    have size := List.length_pos_of_ne_nil (ne_nil_of_statement starts derived)
    simp only [List.length_append] at short enough
    rw [List.append_assoc] at holds
    have behind : nextKind later (nextKind lastTokens .rbrace) =
        nextKind (later ++ (lastTokens ++ rest)) .eof := by
      rw [nextKind_append, nextKind_append, closed]
    rw [behind] at derived
    have isFirst : stmt ∈ stmt :: stmts ++ last?.toList := List.mem_cons_self
    have areLater {node : Node} (isIn : node ∈ stmts ++ last?.toList) :
        node ∈ stmt :: stmts ++ last?.toList := List.mem_cons_of_mem _ isIn
    refine exists_blockItems_cons complete placed starts holds (by omega) derived
      (fits stmt isFirst) (allowed stmt isFirst) fun middle reaches => ?_
    obtain ⟨rounds, rfl⟩ : ∃ fewer, rounds = fewer + 1 := ⟨rounds - 1, by omega⟩
    refine ih reaches.holds ?_ ?_ (fun node isIn => allowed node (areLater isIn)) rounds ?_
    · rw [List.length_append]
      omega
    · rw [reaches.nesting_eq]
      exact fun node isIn => fits node (areLater isIn)
    · rw [List.length_append]
      omega

omit placed starts in
/-- A group is parsed if the expression in it is. -/
theorem exists_group {opening closing : Token} {span : Span}
    (holds : cursor.Holds ([opening] ++ tokens ++ [closing] ++ rest)) (short : tokens.length < bound)
    (derived : expr tokens node) (isClosing : closing.kind = .rparen)
    (inPlace : InPlace ([opening] ++ tokens ++ [closing]) span)
    (fits : limits.Fits cursor.nesting (.group span node))
    (allowed : limits.allows (Node.group span node).height = true) :
    ∃ after, group limits expression opening cursor = (.ok (Node.group span node).measured, after) ∧
      Reaches cursor rest after := by
  have isChild : node ∈ (Node.group span node).children := List.mem_singleton_self _
  have entered : openBracket limits opening cursor =
      (.ok (), cursor.withNesting (cursor.nesting + 1)) := openBracket_of_not_full (fits.room rfl)
  have holds' : (cursor.withNesting (cursor.nesting + 1)).Holds
      (opening :: (tokens ++ closing :: rest)) := by
    simpa using holds.withNesting (cursor.nesting + 1)
  obtain ⟨c₁, advanced, reaches₁⟩ := exists_advance holds'
  have nesting : c₁.nesting = cursor.nesting + 1 := reaches₁.nesting_eq
  obtain ⟨c₂, parsed, reaches₂⟩ := complete reaches₁.holds short derived
    (by show Level.equality.Stops closing.kind
        rw [isClosing]
        exact Level.stops_equality_iff.mpr (by decide))
    (nesting ▸ fits.inside rfl isChild) (Limits.allows_child allowed isChild)
  obtain ⟨c₃, closed, reaches₃⟩ := exists_expect .expectParenClose reaches₂.holds isClosing
  have inner := ((reaches₁.trans reaches₂).trans reaches₃)
  have whole : Reaches cursor rest (c₃.withNesting (c₃.nesting - 1)) := inner.enclosed
  have left : closeBracket c₃ = (.ok (), c₃.withNesting (c₃.nesting - 1)) := rfl
  obtain ⟨index_eq, stop_eq⟩ :=
    inPlace.ends (inPlace_singleton opening) (inPlace_singleton closing)
  have covered : cover opening.span closing.span (c₃.withNesting (c₃.nesting - 1)) =
      (.ok span, c₃.withNesting (c₃.nesting - 1)) :=
    cover_eq index_eq stop_eq (inPlace.stop_le (whole.source_eq ▸ holds.inside_left))
  refine ⟨_, ?_, whole⟩
  unfold group Builder.group
  rw [bind_apply_of_ok entered, bind_apply_of_ok advanced, bind_apply_of_ok parsed,
    bind_apply_of_ok closed, bind_apply_of_ok left, bind_apply_of_ok covered]
  exact build_measured_eq [node] rfl allowed

/-- A block is parsed if what it holds is. -/
theorem exists_block {opening closing : Token} {span : Span} {stmtTokens lastTokens : List Token}
    {stmts : List Node} {last? : Option Node}
    (holds : cursor.Holds ([opening] ++ (stmtTokens ++ lastTokens) ++ [closing] ++ rest))
    (short : (stmtTokens ++ lastTokens).length < bound) (isOpening : opening.kind = .lbrace)
    (derived : Statements InPlace expr true (nextKind lastTokens .rbrace) stmtTokens stmts)
    (ending : Ending expr lastTokens last?) (isClosing : closing.kind = .rbrace)
    (inPlace : InPlace ([opening] ++ (stmtTokens ++ lastTokens) ++ [closing]) span)
    (fits : limits.Fits cursor.nesting (.block span stmts last?))
    (allowed : limits.allows (Node.block span stmts last?).height = true) :
    ∃ after, block limits expression cursor = (.ok (Node.block span stmts last?).measured, after) ∧
      Reaches cursor rest after := by
  have children_eq : (Node.block span stmts last?).children = stmts ++ last?.toList := rfl
  have room := fits.room rfl
  have holds' : cursor.Holds
      (opening :: (stmtTokens ++ (lastTokens ++ closing :: rest))) := by
    simpa using holds
  obtain ⟨c₁, opened, reaches₁⟩ := exists_expect .expectExpr holds' isOpening
  have entered : openBracket limits opening c₁ = (.ok (), c₁.withNesting (c₁.nesting + 1)) :=
    openBracket_of_not_full (reaches₁.nesting_eq ▸ room)
  have inside := reaches₁.holds.withNesting (c₁.nesting + 1)
  obtain ⟨rounds, budgeted, enough⟩ := exists_budget inside
  have enough' : (stmtTokens ++ lastTokens).length < rounds := by
    simp only [List.length_append, List.length_cons] at enough ⊢
    omega
  have nesting : (c₁.withNesting (c₁.nesting + 1)).nesting = cursor.nesting + 1 :=
    congrArg (· + 1) reaches₁.nesting_eq
  obtain ⟨c₂, held, reaches₂⟩ := exists_blockItems complete placed starts inside short derived
    ending isClosing (fun node isIn => nesting ▸ fits.inside rfl isIn)
    (fun node isIn => Limits.allows_child allowed isIn) enough'
  obtain ⟨c₃, closed, reaches₃⟩ := exists_expect .expectBraceClose reaches₂.holds isClosing
  have inner : Reaches c₁ rest (c₃.withNesting (c₃.nesting - 1)) :=
    (reaches₂.trans reaches₃).enclosed
  have whole := reaches₁.trans inner
  have left : closeBracket c₃ = (.ok (), c₃.withNesting (c₃.nesting - 1)) := rfl
  obtain ⟨index_eq, stop_eq⟩ :=
    inPlace.ends (inPlace_singleton opening) (inPlace_singleton closing)
  have covered : cover opening.span closing.span (c₃.withNesting (c₃.nesting - 1)) =
      (.ok span, c₃.withNesting (c₃.nesting - 1)) :=
    cover_eq index_eq stop_eq (inPlace.stop_le (whole.source_eq ▸ holds.inside_left))
  refine ⟨_, ?_, whole⟩
  unfold block Builder.block
  rw [bind_apply_of_ok opened, bind_apply_of_ok entered, bind_apply_of_ok budgeted,
    bind_apply_of_ok held]
  dsimp only
  rw [bind_apply_of_ok closed, bind_apply_of_ok left, bind_apply_of_ok covered, measured_nodes,
    measured_node?, measured_toList]
  exact build_measured_eq _ children_eq allowed

omit complete placed starts in
/-- A leaf is found for the token that stands for it by itself. -/
theorem leafNode?_eq {token : Token} {span : Span} (same : span = token.span) :
    (token.kind = .int →
      leafNode? token = some (.integer span (Text.toNat token.value))) ∧
    (token.kind = .float →
      leafNode? token = some (.float span (Binary64.ofLiteral token.value))) ∧
    (token.kind = .bool →
      leafNode? token = some (.boolean span (token.value == "true".toList))) ∧
    (token.kind = .string → leafNode? token = some (.string span token.value)) ∧
    (token.kind = .ident → leafNode? token = some (.name span token.value)) := by
  subst same
  unfold leafNode?
  refine ⟨?_, ?_, ?_, ?_, ?_⟩ <;> intro isKind <;> rw [isKind]

/-- Primary expressions are complete for one token more than the expressions in them. -/
theorem primary_complete :
    Complete limits (bound + 1) (primary limits expression) (Derives InPlace expr .primary)
      Level.primary.Stops := by
  intro cursor tokens rest node holds short derived _ fits allowed
  obtain ⟨held, c₁, looked, reaches₁, full, kind⟩ := exists_current holds
  suffices ∃ after, (primary limits expression c₁ = (.ok node.measured, after)) ∧
      Reaches c₁ rest after by
    obtain ⟨after, run, reaches⟩ := this
    refine ⟨after, ?_, reaches₁.trans reaches⟩
    unfold primary Builder.primary at run ⊢
    rw [bind_apply_of_ok (current_of_lookahead full)] at run
    rw [bind_apply_of_ok looked]
    exact run
  rw [← reaches₁.nesting_eq] at fits
  have holds := reaches₁.holds
  -- a token that is a leaf by itself is consumed and answered
  have leaf {token : Token} (holds : c₁.Holds ([token] ++ rest))
      (found : leafNode? token = some node) (noChild : node.children = []) :
      ∃ after, primary limits expression c₁ = (.ok node.measured, after) ∧
        Reaches c₁ rest after := by
    obtain ⟨after, advanced, reaches⟩ := exists_advance holds
    obtain rfl := holds.lookahead_eq full
    refine ⟨after, ?_, reaches⟩
    unfold primary Builder.primary
    rw [bind_apply_of_ok (current_of_lookahead full), found]
    dsimp only
    rw [bind_apply_of_ok advanced, Node.measured, Node.height_eq, noChild]
    rfl
  cases derived with
  | binary _ isOperator _ _ => cases isOperator
  | operand notPrimary _ => exact absurd rfl notPrimary
  | primary derived =>
    cases derived with
    | integer isKind inPlace =>
      exact leaf holds ((leafNode?_eq (inPlace.unique (inPlace_singleton _))).1 isKind) rfl
    | float isKind inPlace =>
      exact leaf holds ((leafNode?_eq (inPlace.unique (inPlace_singleton _))).2.1 isKind) rfl
    | boolean isKind inPlace =>
      exact leaf holds ((leafNode?_eq (inPlace.unique (inPlace_singleton _))).2.2.1 isKind) rfl
    | string isKind inPlace =>
      exact leaf holds ((leafNode?_eq (inPlace.unique (inPlace_singleton _))).2.2.2.1 isKind) rfl
    | name isKind inPlace =>
      exact leaf holds ((leafNode?_eq (inPlace.unique (inPlace_singleton _))).2.2.2.2 isKind) rfl
    | @group opening closing tokens node span isOpening derived isClosing inPlace =>
      simp only [List.length_append, List.length_cons, List.length_nil] at short
      obtain rfl := @Cursor.Holds.lookahead_eq _ opening _ holds _ full
      obtain ⟨after, run, reaches⟩ := exists_group complete holds (by omega) derived
        isClosing inPlace fits allowed
      refine ⟨after, ?_, reaches⟩
      unfold primary Builder.primary
      rw [bind_apply_of_ok (current_of_lookahead full)]
      simpa [leafNode?, isOpening] using run
    | @block opening closing stmtTokens lastTokens stmts last? span isOpening derived ending
        isClosing inPlace =>
      have few : (stmtTokens ++ lastTokens).length < bound := by
        simp only [List.length_append, List.length_cons, List.length_nil] at short ⊢
        omega
      obtain rfl := @Cursor.Holds.lookahead_eq _ opening _ holds _ full
      obtain ⟨after, run, reaches⟩ := exists_block complete placed starts holds few isOpening
        derived ending isClosing inPlace fits allowed
      refine ⟨after, ?_, reaches⟩
      unfold primary Builder.primary
      rw [bind_apply_of_ok (current_of_lookahead full)]
      simpa [leafNode?, isOpening] using run

/-- The levels up to concatenation are complete if the expressions inside brackets are, up to yields
one longer. -/
theorem concatenation_complete :
    Complete limits (bound + 1) (concatenation limits expression)
      (Derives InPlace expr .concatenation) Level.concatenation.Stops := by
  have prefixed : Complete limits (bound + 1) (unary limits expression)
      (Derives InPlace expr .prefixed) Level.prefixed.Stops :=
    unary_complete (primary_complete complete placed starts)
  have product : Complete limits (bound + 1) (product limits expression)
      (Derives InPlace expr .product) Level.product.Stops :=
    grouping_complete .product rfl prefixed
  have sum : Complete limits (bound + 1) (sum limits expression) (Derives InPlace expr .sum)
      Level.sum.Stops := grouping_complete .sum rfl product
  exact grouping_complete .concatenation rfl sum

/-- Comparisons are complete for one token more than the expressions in brackets. -/
theorem comparison_complete :
    Complete limits (bound + 1) (comparison limits expression) (Derives InPlace expr .comparison)
      Level.comparison.Stops :=
  nonAssociative_complete .comparison (Or.inr rfl) (concatenation_complete complete placed starts)

/-- All levels are complete if the expressions inside brackets are, up to yields one longer. -/
theorem equality_complete :
    Complete limits (bound + 1) (equality limits expression) (Derives InPlace expr .equality)
      Level.equality.Stops :=
  nonAssociative_complete .equality (Or.inl rfl) (comparison_complete complete placed starts)

/-- A statement is parsed wherever it stands. -/
theorem exists_statement (holds : cursor.Holds (tokens ++ rest)) (short : tokens.length < bound)
    (derived : Statement InPlace expr inside (nextKind rest .eof) tokens stmt)
    (fits : limits.Fits cursor.nesting stmt) (allowed : limits.allows stmt.height = true) :
    ∃ after, statement limits expression cursor = (.ok stmt.measured, after) ∧
      Reaches cursor rest after := by
  obtain ⟨held, c₁, looked, reaches₁, full, kind⟩ := exists_current holds
  rw [nextKind_append, nextKind_of_ne_nil (ne_nil_of_statement starts derived) _ .eof] at kind
  unfold statement Builder.statement
  rw [bind_apply_of_ok looked]
  rcases exists_statement_run complete placed starts reaches₁.holds short derived
    (reaches₁.nesting_eq ▸ fits) allowed with
    ⟨isLet, c₂, run, reaches₂⟩ | ⟨isStarter, node, ahead, c₂, c₃, parsed, _, _, run, reaches₃⟩
  · rw [if_pos (kind.trans isLet)]
    exact ⟨c₂, run, reaches₁.trans reaches₂⟩
  · rw [← kind] at isStarter
    rw [if_neg (ne_of_mem_starters isStarter).1, bind_apply_of_ok parsed]
    exact ⟨c₃, run, reaches₁.trans reaches₃⟩

/-- Statements are taken up to the end. -/
theorem exists_statements {rounds : Nat} {stmts : List Node} (holds : cursor.Holds tokens)
    (short : tokens.length < bound) (derived : Statements InPlace expr false .eof tokens stmts)
    (fits : ∀ node ∈ stmts, limits.Fits cursor.nesting node)
    (allowed : ∀ node ∈ stmts, limits.allows node.height = true) (enough : tokens.length < rounds) :
    ∃ after, statements limits expression rounds cursor = (.ok (stmts.map Node.measured), after) ∧
      Reaches cursor [] after := by
  obtain ⟨rounds, rfl⟩ := Nat.exists_eq_succ_of_ne_zero (Nat.ne_of_gt (Nat.zero_lt_of_lt enough))
  induction derived generalizing cursor rounds with
  | nil =>
    obtain ⟨held, c₁, looked, reaches, full, kind⟩ := exists_current holds
    have isEnd : held.kind = .eof := kind
    refine ⟨c₁, ?_, reaches⟩
    unfold statements Builder.statements
    rw [bind_apply_of_ok looked, if_pos isEnd]
    rfl
  | @cons front later stmt stmts derived _ ih =>
    have filled := ne_nil_of_statement starts derived
    have size := List.length_pos_of_ne_nil filled
    rw [List.length_append] at short enough
    obtain ⟨held, c₁, looked, reaches₁, full, kind⟩ := exists_current holds
    have notEnd : held.kind ≠ .eof := by
      obtain ⟨first, more, rfl⟩ := List.exists_cons_of_ne_nil filled
      rw [kind]
      exact holds.notEnd List.mem_cons_self
    obtain ⟨c₂, run, reaches₂⟩ := exists_statement complete placed starts reaches₁.holds
      (by omega) derived (reaches₁.nesting_eq ▸ fits stmt List.mem_cons_self)
      (allowed stmt List.mem_cons_self)
    have reaches := reaches₁.trans reaches₂
    obtain ⟨rounds, rfl⟩ : ∃ fewer, rounds = fewer + 1 := ⟨rounds - 1, by omega⟩
    obtain ⟨after, rest_run, reaches₃⟩ := ih reaches.holds (by omega)
      (fun node isIn => reaches.nesting_eq ▸ fits node (List.mem_cons_of_mem _ isIn))
      (fun node isIn => allowed node (List.mem_cons_of_mem _ isIn)) rounds (by omega)
    refine ⟨after, ?_, reaches.trans reaches₃⟩
    rw [statements, Builder.statements, bind_apply_of_ok looked, if_neg notEnd, bind_apply_of_ok run,
      bind_apply_of_ok rest_run]
    rfl

end Inside

/-! ## Expressions and programs -/

/-- Expressions are parsed, however deep their brackets are nested, as long as the depth that is
tried exceeds the number of their tokens. -/
theorem expressionWithin_complete (depth bound : Nat) :
    Complete limits bound (expressionWithin limits bound) (Expression InPlace depth .equality)
      Level.equality.Stops := by
  induction bound generalizing depth with
  | zero =>
    intro cursor tokens rest node _ short
    exact absurd short (Nat.not_lt_zero _)
  | succ bound ih =>
    cases depth with
    | zero =>
      intro cursor tokens rest node _ _ derived
      exact derived.elim
    | succ depth =>
      exact equality_complete (ih depth) (fun _ _ derived => derived.placed_span)
        fun _ _ derived => derived.exists_head

/-- A program of the grammar that keeps within the limits is parsed. -/
theorem exists_program {span : Span} {stmts : List Node} (holds : cursor.Holds tokens)
    (derived : Program InPlace tokens (.module span stmts)) (covers : span = ⟨0, cursor.source.size⟩)
    (fits : limits.Fits cursor.nesting (.module span stmts))
    (allowed : limits.allows (Node.module span stmts).height = true) :
    ∃ after, program limits cursor = (.ok (Node.module span stmts).measured, after) := by
  obtain ⟨depth, _, _, shape, derived⟩ := derived
  cases shape
  obtain ⟨rounds, budgeted, enough⟩ := exists_budget holds
  obtain ⟨after, run, reaches⟩ := exists_statements (expressionWithin_complete depth rounds)
    (fun _ _ derived => derived.placed_span) (fun _ _ derived => derived.exists_head) holds enough
    derived (fun node isIn => fits.of_child isIn) (fun node isIn => Limits.allows_child allowed isIn)
    enough
  obtain ⟨finish, sees⟩ := reaches.sees
  have isEnd : finish.kind = .eof := reaches.holds.lookahead_kind sees
  obtain ⟨_, rfl⟩ := reaches.holds.consistent.finish finish sees isEnd
  have covered : cover ⟨0, 0⟩ after.endToken.span after = (.ok span, after) := by
    subst covers
    refine cover_eq rfl ?_ ?_
    · simp [Span.stop, Cursor.endToken, reaches.source_eq]
    · simp [Span.stop, reaches.source_eq]
  refine ⟨after, ?_⟩
  unfold program Builder.program withBrackets Builder.withBrackets
  rw [bind_apply_of_ok budgeted]
  dsimp only
  rw [bind_apply_of_ok budgeted, bind_apply_of_ok run, bind_apply_of_ok (current_of_lookahead sees),
    bind_apply_of_ok covered, measured_nodes]
  exact build_measured_eq stmts rfl allowed

/-- An expression of the grammar that keeps within the limits is parsed. -/
theorem exists_expression {depth : Nat} {rest : List Token} (holds : cursor.Holds (tokens ++ rest))
    (derived : Expression InPlace depth .equality tokens node)
    (stops : nextKind rest .eof ∉ binaryOperators) (fits : limits.Fits cursor.nesting node)
    (allowed : limits.allows node.height = true) :
    ∃ after, expression limits cursor = (.ok node.measured, after) ∧ Reaches cursor rest after := by
  cases depth with
  | zero => exact derived.elim
  | succ depth =>
    obtain ⟨rounds, budgeted, enough⟩ := exists_budget holds
    rw [List.length_append] at enough
    obtain ⟨after, run, reaches⟩ := equality_complete (expressionWithin_complete depth rounds)
      (fun _ _ derived => derived.placed_span) (fun _ _ derived => derived.exists_head) holds
      (by omega) derived (Level.stops_equality_iff.mpr stops) fits allowed
    refine ⟨after, ?_, reaches⟩
    unfold Parse.expression withBrackets Builder.withBrackets
    rw [bind_apply_of_ok budgeted]
    exact run

end Parse

end SinosLang
