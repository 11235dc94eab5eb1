import SinosLang.Proofs.Node.Spans
import SinosLang.Token
import SinosLang.Decimal.Reading

/-!
# The grammar on tokens

A phrase relates the tokens of a piece of a program, its yield, to the trees that they stand for.
Every rule builds the tree of its yield; which spans the nodes may carry is decided by a placement,
a relation between the yield of a node and its span. With the placement `Plain` this is the plain
grammar of trees without spans; with `InPlace` every span runs from the first token of the yield to
the last one.

The rules below brackets are given the phrases that may stand inside, so `ExpressionWithin` has one
stage for each level of nested brackets, and an expression is what some stage derives.

Main statements: the first token of an expression is a literal, a name, an opening bracket or a
prefix operator; the span of an expression is the one that its placement allows for its yield.
-/

set_option autoImplicit false

namespace SinosLang.Grammar

/-- A phrase: which trees a list of tokens may stand for. -/
abbrev Phrase :=
  List Token → Node → Prop

/-- A placement: which spans a node with the given yield may have. -/
abbrev Placement :=
  List Token → Span → Prop

/-- The placement of trees without spans. -/
def Plain : Placement :=
  fun _ span => span = Span.origin

/-- The placement from the start of the first token to the end of the last one. -/
def InPlace : Placement := fun tokens span =>
  ∃ first last, tokens.head? = some first ∧ tokens.getLast? = some last ∧
    span.index = first.span.index ∧ span.stop = last.span.stop

/-- The levels of expressions, from the loosest to the tightest. -/
inductive Level where
  | equality
  | comparison
  | concatenation
  | sum
  | product
  | prefixed
  | primary
deriving DecidableEq, Repr

namespace Level

/-- The next tighter level. -/
def tighter : Level → Level
  | equality => comparison
  | comparison => concatenation
  | concatenation => sum
  | sum => product
  | product => prefixed
  | prefixed => primary
  | primary => primary

/-- The operators that stand between two operands of a level. -/
def operators : Level → List TokenKind
  | equality => [.eq, .ne]
  | comparison => [.lt, .le, .gt, .ge]
  | concatenation => [.cat]
  | sum => [.plus, .sub]
  | product => [.mult, .div, .mod]
  | prefixed => []
  | primary => []

/-- Whether the operators of a level group to the left; the other levels take at most one. -/
def groups : Level → Bool
  | concatenation | sum | product => true
  | _ => false

/-- The place of a level in the order from the loosest to the tightest. -/
def rank : Level → Nat
  | equality => 1
  | comparison => 2
  | concatenation => 3
  | sum => 4
  | product => 5
  | prefixed => 6
  | primary => 7

/-- The level of a left operand; that of a right operand is the next tighter one. -/
def leftOperand (level : Level) : Level :=
  if level.groups then level else level.tighter

/-- Two levels of one rank are the same level. -/
theorem rank_injective {first second : Level} (same : first.rank = second.rank) :
    first = second := by
  cases first <;> cases second <;> first | rfl | cases same

/-- Primary expressions are of the highest rank. -/
theorem rank_le (level : Level) : level.rank ≤ 7 := by
  cases level <;> decide

/-- The next tighter level is one rank higher. -/
theorem rank_tighter (level : Level) (h : level ≠ primary) :
    level.tighter.rank = level.rank + 1 := by
  cases level <;> first | rfl | exact absurd rfl h

end Level

/-- The operators that stand before their operand. -/
def prefixOperators : List TokenKind :=
  [.not, .sub, .plus]

/-- All operators that stand between two operands. -/
def binaryOperators : List TokenKind :=
  [.eq, .ne, .lt, .le, .gt, .ge, .cat, .plus, .sub, .mult, .div, .mod]

/-- The kind of the first of some tokens, or of what stands behind them if there are none. -/
def nextKind (tokens : List Token) (behind : TokenKind) : TokenKind :=
  (tokens.head?.map Token.kind).getD behind

/-- What comes next after two lists of tokens is read off the first list and then off the second. -/
theorem nextKind_append (front tokens : List Token) (behind : TokenKind) :
    nextKind (front ++ tokens) behind = nextKind front (nextKind tokens behind) := by
  cases front <;> rfl

/-- What stands behind some tokens does not matter unless there are none. -/
theorem nextKind_of_ne_nil {tokens : List Token} (filled : tokens ≠ []) (behind other : TokenKind) :
    nextKind tokens behind = nextKind tokens other := by
  cases tokens with
  | nil => exact absurd rfl filled
  | cons token tokens => rfl

section Rules

variable (placed : Placement)

/-- The type that a let statement may give: `[: IDENT]`. -/
inductive TypePart : List Token → Option Text → Prop
  | absent : TypePart [] none
  | present {colon type : Token} :
    colon.kind = .colon → type.kind = .ident → TypePart [colon, type] (some type.value)

/-- A statement, given whether it stands inside a block and the kind of the token behind it. Only a
block may do without a semicolon, and only where nothing behind it could still belong to it. -/
inductive Statement (expr : Phrase) (inside : Bool) (next : TokenKind) : Phrase
  | binding {keyword name assign semi : Token} {typeTokens valueTokens : List Token}
      {type? : Option Text} {value : Node} {span : Span} :
    keyword.kind = .letKeyword → name.kind = .ident → TypePart typeTokens type? →
    assign.kind = .assign → expr valueTokens value → semi.kind = .semi →
    placed ([keyword] ++ (name :: typeTokens ++ assign :: valueTokens) ++ [semi]) span →
    Statement expr inside next
      ([keyword] ++ (name :: typeTokens ++ assign :: valueTokens) ++ [semi])
      (.letStmt span name.value type? value)
  | terminated {tokens : List Token} {semi : Token} {node : Node} {span : Span} :
    expr tokens node → semi.kind = .semi → placed (tokens ++ [semi]) span →
    Statement expr inside next (tokens ++ [semi]) (.exprStmt span node)
  | standing {tokens : List Token} {node : Node} {span : Span} :
    expr tokens node → node.isBlock = true → next ≠ .semi → next ∉ binaryOperators →
    (inside = true → next ≠ .rbrace) → placed tokens span →
    Statement expr inside next tokens (.exprStmt span node)

/-- Statements one after the other, given the kind of the token behind the last one. -/
inductive Statements (expr : Phrase) (inside : Bool) (behind : TokenKind) :
    List Token → List Node → Prop
  | nil : Statements expr inside behind [] []
  | cons {first rest : List Token} {stmt : Node} {stmts : List Node} :
    Statement placed expr inside (nextKind rest behind) first stmt →
    Statements expr inside behind rest stmts →
    Statements expr inside behind (first ++ rest) (stmt :: stmts)

/-- The expression that a block may end with. -/
inductive Ending (expr : Phrase) : List Token → Option Node → Prop
  | absent : Ending expr [] none
  | present {tokens : List Token} {node : Node} : expr tokens node → Ending expr tokens (some node)

/-- A primary: a literal, a name, an expression in parentheses or a block. -/
inductive Primary (expr : Phrase) : Phrase
  | integer {token : Token} {span : Span} :
    token.kind = .int → placed [token] span →
    Primary expr [token] (.integer span (Text.toNat token.value))
  | float {token : Token} {span : Span} :
    token.kind = .float → placed [token] span →
    Primary expr [token] (.float span (Binary64.ofLiteral token.value))
  | boolean {token : Token} {span : Span} :
    token.kind = .bool → placed [token] span →
    Primary expr [token] (.boolean span (token.value == "true".toList))
  | string {token : Token} {span : Span} :
    token.kind = .string → placed [token] span →
    Primary expr [token] (.string span token.value)
  | name {token : Token} {span : Span} :
    token.kind = .ident → placed [token] span →
    Primary expr [token] (.name span token.value)
  | group {opening closing : Token} {tokens : List Token} {node : Node} {span : Span} :
    opening.kind = .lparen → expr tokens node → closing.kind = .rparen →
    placed ([opening] ++ tokens ++ [closing]) span →
    Primary expr ([opening] ++ tokens ++ [closing]) (.group span node)
  | block {opening closing : Token} {stmtTokens lastTokens : List Token} {stmts : List Node}
      {last? : Option Node} {span : Span} :
    opening.kind = .lbrace →
    Statements placed expr true (nextKind lastTokens .rbrace) stmtTokens stmts →
    Ending expr lastTokens last? → closing.kind = .rbrace →
    placed ([opening] ++ (stmtTokens ++ lastTokens) ++ [closing]) span →
    Primary expr ([opening] ++ (stmtTokens ++ lastTokens) ++ [closing]) (.block span stmts last?)

/-- The phrases of a level, given the expressions that may stand inside brackets. -/
inductive Derives (expr : Phrase) : Level → Phrase
  | primary {tokens : List Token} {node : Node} :
    Primary placed expr tokens node → Derives expr .primary tokens node
  | unary {op : Token} {tokens : List Token} {operand : Node} {span : Span} :
    op.kind ∈ prefixOperators → Derives expr .prefixed tokens operand →
    placed (op :: tokens) span →
    Derives expr .prefixed (op :: tokens) (.unary span op.value operand)
  | binary {level : Level} {leftTokens rightTokens : List Token} {op : Token} {left right : Node}
      {span : Span} :
    Derives expr level.leftOperand leftTokens left → op.kind ∈ level.operators →
    Derives expr level.tighter rightTokens right →
    placed (leftTokens ++ [op] ++ rightTokens) span →
    Derives expr level (leftTokens ++ [op] ++ rightTokens) (.binary span op.value left right)
  | operand {level : Level} {tokens : List Token} {node : Node} :
    level ≠ .primary → Derives expr level.tighter tokens node → Derives expr level tokens node

/-- The expressions of a level in which brackets are nested less than so deep. -/
def Expression : Nat → Level → Phrase
  | 0, _ => fun _ _ => False
  | depth + 1, level => Derives placed (Expression depth .equality) level

/-- A program: statements up to the end. -/
def Program (tokens : List Token) (tree : Node) : Prop :=
  ∃ depth span stmts, tree = .module span stmts ∧
    Statements placed (Expression placed depth .equality) false .eof tokens stmts

/-- The kinds of token that an expression may start with. -/
def starters : List TokenKind :=
  [.int, .float, .bool, .string, .ident, .lparen, .lbrace] ++ prefixOperators

variable {placed} {expr : Phrase}

/-- A primary starts like an expression, but with no prefix operator. -/
theorem Primary.exists_head {tokens : List Token} {node : Node}
    (h : Primary placed expr tokens node) :
    ∃ first rest, tokens = first :: rest ∧ first.kind ∈ starters ∧
      first.kind ∉ prefixOperators := by
  cases h with
  | integer kind _ | float kind _ | boolean kind _ | string kind _ | name kind _ =>
    exact ⟨_, [], rfl, by rw [kind]; decide, by rw [kind]; decide⟩
  | group kind _ _ _ | block kind _ _ _ _ =>
    exact ⟨_, _, rfl, by rw [kind]; decide, by rw [kind]; decide⟩

/-- An expression of any level has a first token, of one of the kinds that start expressions. -/
theorem Derives.exists_head {level : Level} {tokens : List Token} {node : Node}
    (h : Derives placed expr level tokens node) :
    ∃ first rest, tokens = first :: rest ∧ first.kind ∈ starters := by
  induction h with
  | primary inner =>
    obtain ⟨first, rest, shape, starts, _⟩ := inner.exists_head
    exact ⟨first, rest, shape, starts⟩
  | unary isPrefix _ _ _ => exact ⟨_, _, rfl, List.mem_append_right _ isPrefix⟩
  | binary _ _ _ _ ih _ =>
    obtain ⟨first, rest, rfl, starts⟩ := ih
    exact ⟨first, _, rfl, starts⟩
  | operand _ _ ih => exact ih

/-- The span of a primary is one that its placement allows. -/
theorem Primary.placed_span {tokens : List Token} {node : Node}
    (h : Primary placed expr tokens node) : placed tokens node.span := by
  cases h <;> assumption

/-- The span of an expression is one that its placement allows. -/
theorem Derives.placed_span {level : Level} {tokens : List Token} {node : Node}
    (h : Derives placed expr level tokens node) : placed tokens node.span := by
  induction h with
  | primary inner => exact inner.placed_span
  | unary _ _ allowed _ => exact allowed
  | binary _ _ _ allowed _ _ => exact allowed
  | operand _ _ ih => exact ih

/-- The span of a statement is one that its placement allows. -/
theorem Statement.placed_span {inside : Bool} {next : TokenKind} {tokens : List Token} {node : Node}
    (h : Statement placed expr inside next tokens node) : placed tokens node.span := by
  cases h <;> assumption

/-- A statement is not empty if the expressions in it are not. -/
theorem Statement.ne_nil {inside : Bool} {next : TokenKind} {tokens : List Token} {node : Node}
    (filled : ∀ tokens node, expr tokens node → tokens ≠ [])
    (h : Statement placed expr inside next tokens node) : tokens ≠ [] := by
  cases h with
  | binding => simp
  | terminated _ _ _ => simp
  | standing derived _ _ _ _ _ => exact filled _ _ derived

/-- An expression begins with a token that an expression may begin with. -/
theorem Expression.exists_head {depth : Nat} {level : Level} {tokens : List Token} {node : Node}
    (h : Expression placed depth level tokens node) :
    ∃ first rest, tokens = first :: rest ∧ first.kind ∈ starters := by
  cases depth with
  | zero => exact h.elim
  | succ depth => exact Derives.exists_head h

/-- An expression has a token. -/
theorem Expression.ne_nil {depth : Nat} {level : Level} {tokens : List Token} {node : Node}
    (h : Expression placed depth level tokens node) : tokens ≠ [] := by
  obtain ⟨_, _, rfl, _⟩ := h.exists_head
  exact List.cons_ne_nil _ _

/-- The span of an expression is one that its tokens may be placed at. -/
theorem Expression.placed_span {depth : Nat} {level : Level} {tokens : List Token} {node : Node}
    (h : Expression placed depth level tokens node) : placed tokens node.span := by
  cases depth with
  | zero => exact h.elim
  | succ depth => exact Derives.placed_span h

/-! ### The end is no token of a program -/

/-- The end is not among some tokens. -/
def Endless (tokens : List Token) : Prop :=
  ∀ token ∈ tokens, token.kind ≠ .eof

/-- An empty list of tokens does not have the end in it. -/
@[simp]
theorem endless_nil : Endless [] :=
  fun _ isIn => absurd isIn List.not_mem_nil

/-- The end is not among some tokens if it is neither the first of them nor among the others. -/
@[simp]
theorem endless_cons {token : Token} {tokens : List Token} :
    Endless (token :: tokens) ↔ token.kind ≠ .eof ∧ Endless tokens :=
  List.forall_mem_cons

/-- The end is not among two lists of tokens if it is in neither of them. -/
@[simp]
theorem endless_append {front tokens : List Token} :
    Endless (front ++ tokens) ↔ Endless front ∧ Endless tokens :=
  List.forall_mem_append

/-- The end is not among the tokens of a type annotation. -/
theorem TypePart.endless {tokens : List Token} {type? : Option Text} (h : TypePart tokens type?) :
    Endless tokens := by
  cases h with
  | absent => exact endless_nil
  | present isColon isType => simp [isColon, isType]

section Endless

variable (inner : ∀ tokens node, expr tokens node → Endless tokens)
include inner

/-- The end is not among the tokens of a statement if it is in no expression. -/
theorem Statement.endless {inside : Bool} {next : TokenKind} {tokens : List Token} {node : Node}
    (h : Statement placed expr inside next tokens node) : Endless tokens := by
  cases h with
  | binding isLet isName type isAssign value isSemi _ =>
    simp [isLet, isName, isAssign, isSemi, type.endless, inner _ _ value]
  | terminated value isSemi _ => simp [inner _ _ value, isSemi]
  | standing value _ _ _ _ _ => exact inner _ _ value

/-- The end is not among the tokens of statements in a row if it is in no expression. -/
theorem Statements.endless {inside : Bool} {behind : TokenKind} {tokens : List Token}
    {stmts : List Node} (h : Statements placed expr inside behind tokens stmts) :
    Endless tokens := by
  induction h with
  | nil => exact endless_nil
  | cons first _ ih => exact endless_append.mpr ⟨first.endless inner, ih⟩

/-- The end is not among the tokens that a block ends with if it is in no expression. -/
theorem Ending.endless {tokens : List Token} {last? : Option Node} (h : Ending expr tokens last?) :
    Endless tokens := by
  cases h with
  | absent => exact endless_nil
  | present value => exact inner _ _ value

/-- The end is not among the tokens of a primary expression if it is in no nested one. -/
theorem Primary.endless {tokens : List Token} {node : Node} (h : Primary placed expr tokens node) :
    Endless tokens := by
  cases h with
  | integer kind _ | float kind _ | boolean kind _ | string kind _ | name kind _ => simp [kind]
  | group isOpening value isClosing _ => simp [isOpening, isClosing, inner _ _ value]
  | block isOpening stmts ending isClosing _ =>
    simp [isOpening, isClosing, stmts.endless inner, ending.endless inner]

/-- The end is not among the tokens of an expression of any level if it is in no nested one. -/
theorem Derives.endless {level : Level} {tokens : List Token} {node : Node}
    (h : Derives placed expr level tokens node) : Endless tokens := by
  induction h with
  | primary value => exact value.endless inner
  | @unary op _ _ _ isPrefix _ _ ih =>
    have notEnd : op.kind ≠ .eof := by
      rintro isEnd
      rw [isEnd] at isPrefix
      exact absurd isPrefix (by decide)
    exact endless_cons.mpr ⟨notEnd, ih⟩
  | @binary level _ _ op _ _ _ _ isOperator _ _ ihLeft ihRight =>
    have notEnd : op.kind ≠ .eof := by
      rintro isEnd
      rw [isEnd] at isOperator
      revert isOperator
      cases level <;> decide
    simp [ihLeft, ihRight, notEnd]
  | operand _ _ ih => exact ih

end Endless

/-- The end is not among the tokens of an expression. -/
theorem Expression.endless {depth : Nat} {level : Level} {tokens : List Token} {node : Node}
    (h : Expression placed depth level tokens node) : Endless tokens := by
  induction depth generalizing level tokens node with
  | zero => exact h.elim
  | succ depth ih => exact Derives.endless (fun _ _ value => ih value) h

/-- The end is not among the tokens of a program. -/
theorem Program.endless {tokens : List Token} {tree : Node} (h : Program placed tokens tree) :
    Endless tokens := by
  obtain ⟨_, _, _, _, stmts⟩ := h
  exact stmts.endless fun _ _ value => value.endless

/-- An expression of a level is one of every looser level. -/
theorem Derives.loosen {looser level : Level} {tokens : List Token} {node : Node}
    (h : Derives placed expr level tokens node) (le : looser.rank ≤ level.rank) :
    Derives placed expr looser tokens node := by
  by_cases same : looser.rank = level.rank
  · rw [Level.rank_injective same]
    exact h
  · have isLooser : looser ≠ .primary := by
      rintro rfl
      have := level.rank_le
      simp only [Level.rank] at le same this
      omega
    have step := looser.rank_tighter isLooser
    exact .operand isLooser (Derives.loosen h (by omega))
termination_by level.rank - looser.rank
decreasing_by omega

end Rules

/-- A single token is in place at its own span. -/
theorem inPlace_singleton (token : Token) : InPlace [token] token.span :=
  ⟨token, token, rfl, rfl, rfl, rfl⟩

/-- A span from the start of one phrase to the end of a later one is in place for everything from
the one to the other. -/
theorem InPlace.join {front middle last : List Token} {first final span : Span}
    (atFront : InPlace front first) (atLast : InPlace last final)
    (index_eq : span.index = first.index) (stop_eq : span.stop = final.stop) :
    InPlace (front ++ middle ++ last) span := by
  obtain ⟨a, _, head, _, start, _⟩ := atFront
  obtain ⟨_, b, _, tail, _, finish⟩ := atLast
  refine ⟨a, b, ?_, ?_, index_eq.trans start, stop_eq.trans finish⟩
  · rw [List.append_assoc, List.head?_append, head]
    rfl
  · rw [List.getLast?_append, tail]
    rfl

/-- Tokens in place have one span only. -/
theorem InPlace.unique {tokens : List Token} {first second : Span}
    (h : InPlace tokens first) (k : InPlace tokens second) : first = second := by
  obtain ⟨a, b, head, last, index_eq, stop_eq⟩ := h
  obtain ⟨c, d, head', last', index_eq', stop_eq'⟩ := k
  obtain rfl : a = c := Option.some.inj (head.symm.trans head')
  obtain rfl : b = d := Option.some.inj (last.symm.trans last')
  have sameIndex : first.index = second.index := index_eq.trans index_eq'.symm
  have sameStop : first.stop = second.stop := stop_eq.trans stop_eq'.symm
  cases first
  cases second
  simp only [Span.stop] at sameIndex sameStop
  subst sameIndex
  rw [Nat.add_left_cancel sameStop]

end SinosLang.Grammar
