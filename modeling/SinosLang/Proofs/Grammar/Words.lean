import SinosLang.Proofs.Grammar.Rules

/-!
# The words of the grammar

The grammar as it would be written down: which lists of tokens each category of phrases has, with no
trees, no limits, and any number of operators on every level. In particular the operators of equality
and of comparison may be chained, and nothing says which of several readings of a text is meant. A
sentence is a list of statements.

Every list of tokens that stands for a program is a sentence. Statements that are blocks without a
semicolon bring ambiguity in: with a sign behind it, such a block is as well the left operand of what
follows.

Main statements: `Program.sentence`, what stands for a program is a sentence, and `Word.absorb`, a
block may be made the operand of a sign that comes behind it.
-/

set_option autoImplicit false

namespace SinosLang.Grammar

/-- The categories of phrases. Items are what a block holds: statements, and the expression that it
may end with. -/
inductive Category where
  | statements
  | statement
  | items
  | block
  | expression (level : Level)

/-- The kinds of token that are expressions by themselves. -/
def leaves : List TokenKind :=
  [.int, .float, .bool, .string, .ident]

/-- The words of a category. -/
inductive Word : Category → List Token → Prop
  | noStatements : Word .statements []
  | moreStatements {first rest : List Token} :
    Word .statement first → Word .statements rest → Word .statements (first ++ rest)
  | binding {keyword name assign semi : Token} {type value : List Token} {type? : Option Text} :
    keyword.kind = .letKeyword → name.kind = .ident → TypePart type type? →
    assign.kind = .assign → Word (.expression .equality) value → semi.kind = .semi →
    Word .statement ([keyword] ++ (name :: type ++ assign :: value) ++ [semi])
  | terminated {tokens : List Token} {semi : Token} :
    Word (.expression .equality) tokens → semi.kind = .semi → Word .statement (tokens ++ [semi])
  | standing {tokens : List Token} :
    Word .block tokens → Word .statement tokens
  | onlyStatements {stmts : List Token} :
    Word .statements stmts → Word .items stmts
  | ending {stmts last : List Token} :
    Word .statements stmts → Word (.expression .equality) last → Word .items (stmts ++ last)
  | block {opening closing : Token} {items : List Token} :
    opening.kind = .lbrace → Word .items items → closing.kind = .rbrace →
    Word .block ([opening] ++ items ++ [closing])
  | leaf {token : Token} :
    token.kind ∈ leaves → Word (.expression .primary) [token]
  | group {opening closing : Token} {tokens : List Token} :
    opening.kind = .lparen → Word (.expression .equality) tokens → closing.kind = .rparen →
    Word (.expression .primary) ([opening] ++ tokens ++ [closing])
  | ofBlock {tokens : List Token} :
    Word .block tokens → Word (.expression .primary) tokens
  | unary {op : Token} {tokens : List Token} :
    op.kind ∈ prefixOperators → Word (.expression .prefixed) tokens →
    Word (.expression .prefixed) (op :: tokens)
  | binary {level : Level} {left right : List Token} {op : Token} :
    Word (.expression level) left → op.kind ∈ level.operators →
    Word (.expression level.tighter) right → Word (.expression level) (left ++ [op] ++ right)
  | operand {level : Level} {tokens : List Token} :
    level ≠ .primary → Word (.expression level.tighter) tokens → Word (.expression level) tokens

/-- The sentences of the grammar: statements one after the other. -/
def Sentence (tokens : List Token) : Prop :=
  Word .statements tokens

namespace Word

variable {tokens : List Token} {level : Level}

/-- An expression of a level is one of every looser level. -/
theorem loosen {looser level : Level} (word : Word (.expression level) tokens)
    (le : looser.rank ≤ level.rank) : Word (.expression looser) tokens := by
  by_cases same : looser.rank = level.rank
  · rw [Level.rank_injective same]
    exact word
  · have isLooser : looser ≠ .primary := by
      rintro rfl
      have := level.rank_le
      simp only [Level.rank] at le same this
      omega
    have step := looser.rank_tighter isLooser
    exact .operand isLooser (loosen word (by omega))
termination_by level.rank - looser.rank
decreasing_by omega

/-- A block is an expression of every level. -/
theorem expression_of_block (word : Word .block tokens) : Word (.expression level) tokens :=
  (Word.ofBlock word).loosen (by cases level <;> decide)

/-- What the words of a category begin with. -/
def Begins : Category → List Token → Prop
  | .expression _, tokens | .block, tokens =>
    ∃ first rest, tokens = first :: rest ∧ first.kind ∈ starters
  | .statement, tokens =>
    ∃ first rest, tokens = first :: rest ∧ (first.kind = .letKeyword ∨ first.kind ∈ starters)
  | _, _ => True

/-- The words of a category begin as its words have to. -/
theorem begins {category : Category} (word : Word category tokens) : Begins category tokens := by
  induction word with
  | noStatements | moreStatements | onlyStatements | ending => trivial
  | binding isLet => exact ⟨_, _, rfl, .inl isLet⟩
  | terminated _ _ ih =>
    obtain ⟨first, rest, rfl, starts⟩ := ih
    exact ⟨first, _, rfl, .inr starts⟩
  | standing _ ih =>
    obtain ⟨first, rest, rfl, starts⟩ := ih
    exact ⟨first, _, rfl, .inr starts⟩
  | block isOpening => exact ⟨_, _, rfl, by rw [isOpening]; decide⟩
  | leaf isLeaf =>
    have areStarters : leaves ⊆ starters := by decide
    exact ⟨_, _, rfl, areStarters isLeaf⟩
  | group isOpening => exact ⟨_, _, rfl, by rw [isOpening]; decide⟩
  | unary isPrefix => exact ⟨_, _, rfl, List.mem_append_right _ isPrefix⟩
  | binary _ _ _ ih _ =>
    obtain ⟨first, rest, rfl, starts⟩ := ih
    exact ⟨first, _, rfl, starts⟩
  | ofBlock _ ih | operand _ _ ih => exact ih

/-- The end is not among the tokens of a word. -/
theorem endless {category : Category} (word : Word category tokens) : Endless tokens := by
  induction word with
  | noStatements => exact endless_nil
  | moreStatements _ _ ih ih' | ending _ _ ih ih' => exact endless_append.mpr ⟨ih, ih'⟩
  | binding isLet isName type isAssign _ isSemi ih =>
    simp [isLet, isName, isAssign, isSemi, type.endless, ih]
  | terminated _ isSemi ih => simp [isSemi, ih]
  | block isOpening _ isClosing ih | group isOpening _ isClosing ih =>
    simp [isOpening, isClosing, ih]
  | leaf isLeaf =>
    refine endless_cons.mpr ⟨?_, endless_nil⟩
    rintro isEnd
    rw [isEnd] at isLeaf
    exact absurd isLeaf (by decide)
  | unary isPrefix _ ih =>
    refine endless_cons.mpr ⟨?_, ih⟩
    rintro isEnd
    rw [isEnd] at isPrefix
    exact absurd isPrefix (by decide)
  | @binary level _ _ op _ isOperator _ ih ih' =>
    have notEnd : op.kind ≠ .eof := by
      rintro isEnd
      rw [isEnd] at isOperator
      revert isOperator
      cases level <;> decide
    simp [ih, ih', notEnd]
  | standing _ ih | onlyStatements _ ih | ofBlock _ ih | operand _ _ ih => exact ih

/-! ## Signs behind blocks -/

/-- No block begins with a sign. -/
theorem not_sign_of_block {sign : Token} {rest : List Token}
    (isSign : sign.kind ∈ Level.sum.operators) : ¬Word .block (sign :: rest) := by
  intro word
  generalize shape : sign :: rest = tokens at word
  cases word with
  | block isOpening _ _ =>
    obtain ⟨rfl, _⟩ := List.cons_eq_cons.mp shape
    rw [isOpening] at isSign
    exact absurd isSign (by decide)

/-- Without its sign, an expression of a product or a tighter level is a product. -/
theorem strip {sign : Token} {rest : List Token} (isSign : sign.kind ∈ Level.sum.operators)
    (tight : Level.product.rank ≤ level.rank) (word : Word (.expression level) (sign :: rest)) :
    Word (.expression .product) rest := by
  generalize category_eq : Category.expression level = category at word
  generalize tokens_eq : sign :: rest = tokens at word
  induction word generalizing level rest with
  | noStatements | moreStatements | binding | terminated | standing | onlyStatements | ending
    | block => cases category_eq
  | leaf isLeaf =>
    obtain ⟨rfl, _⟩ := List.cons_eq_cons.mp tokens_eq
    have apart : ∀ kind ∈ leaves, kind ∉ Level.sum.operators := by decide
    exact absurd isSign (apart _ isLeaf)
  | group isOpening _ _ _ =>
    obtain ⟨rfl, _⟩ := List.cons_eq_cons.mp tokens_eq
    rw [isOpening] at isSign
    exact absurd isSign (by decide)
  | ofBlock isBlock _ =>
    subst tokens_eq
    exact absurd isBlock (not_sign_of_block isSign)
  | unary _ operand _ =>
    obtain ⟨_, rfl⟩ := List.cons_eq_cons.mp tokens_eq
    exact operand.loosen (by decide)
  | @binary level _ _ op left isOperator right ih _ =>
    obtain rfl := Category.expression.inj category_eq
    have isProduct : level = .product := by
      cases level with
      | product => rfl
      | prefixed | primary => cases isOperator
      | _ => exact absurd tight (by decide)
    subst isProduct
    obtain ⟨first, left', rfl, _⟩ := left.begins
    obtain ⟨rfl, rfl⟩ := List.cons_eq_cons.mp tokens_eq
    exact .binary (ih tight rfl rfl) isOperator right
  | @operand level _ notPrimary _ ih =>
    obtain rfl := Category.expression.inj category_eq
    have step := level.rank_tighter notPrimary
    exact ih (by omega) rfl tokens_eq

/-- A block before a sign is an operand of what the sign begins. -/
theorem absorb {sign : Token} {block rest : List Token} (isBlock : Word .block block)
    (isSign : sign.kind ∈ Level.sum.operators) (loose : level.rank ≤ Level.sum.rank)
    (word : Word (.expression level) (sign :: rest)) :
    Word (.expression level) (block ++ sign :: rest) := by
  generalize category_eq : Category.expression level = category at word
  generalize tokens_eq : sign :: rest = tokens at word
  induction word generalizing level rest with
  | noStatements | moreStatements | binding | terminated | standing | onlyStatements | ending
    | block => cases category_eq
  | leaf | group | ofBlock | unary =>
    cases category_eq
    exact absurd loose (by decide)
  | binary left isOperator right ih _ =>
    cases category_eq
    obtain ⟨first, left', rfl, _⟩ := left.begins
    obtain ⟨rfl, rfl⟩ := List.cons_eq_cons.mp tokens_eq
    have whole := Word.binary (ih loose rfl rfl) isOperator right
    simpa using whole
  | @operand level _ notPrimary inner ih =>
    obtain rfl := Category.expression.inj category_eq
    subst tokens_eq
    by_cases isSum : level = .sum
    · subst isSum
      have left : Word (.expression .sum) block := isBlock.expression_of_block
      have whole := Word.binary left isSign (inner.strip isSign le_rfl)
      simpa using whole
    · have step := level.rank_tighter notPrimary
      have notSame : level.rank ≠ Level.sum.rank := fun same => isSum (Level.rank_injective same)
      exact .operand notPrimary (ih (by omega) rfl rfl)

end Word

/-! ## The words that trees are read from -/

/-- Some tokens are a word of a level, and of a block if the tree that they stand for is one. -/
structure Worded (level : Level) (tokens : List Token) (node : Node) : Prop where
  word : Word (.expression level) tokens
  block : node.isBlock = true → Word .block tokens

/-- The yields of a phrase are words of a level. -/
def HasWords (level : Level) (phrase : Phrase) : Prop :=
  ∀ tokens node, phrase tokens node → Worded level tokens node

section Inside

variable {placed : Placement} {expr : Phrase} (inner : HasWords .equality expr)
  {tokens : List Token} {node : Node}
include inner

/-- The tokens of a statement are a word of the statements. -/
theorem Statement.word {inside : Bool} {next : TokenKind}
    (h : Statement placed expr inside next tokens node) : Word .statement tokens := by
  cases h with
  | binding isLet isName type isAssign value isSemi _ =>
    exact .binding isLet isName type isAssign (inner _ _ value).word isSemi
  | terminated value isSemi _ => exact .terminated (inner _ _ value).word isSemi
  | standing value isBlock _ _ _ _ => exact .standing ((inner _ _ value).block isBlock)

/-- The tokens of statements in a row are a word of them. -/
theorem Statements.word {inside : Bool} {behind : TokenKind} {stmts : List Node}
    (h : Statements placed expr inside behind tokens stmts) : Word .statements tokens := by
  induction h with
  | nil => exact .noStatements
  | cons first _ ih => exact .moreStatements (first.word inner) ih

/-- What a block holds is a word of items. -/
theorem Statements.word_items {inside : Bool} {behind : TokenKind} {stmts : List Node}
    {lastTokens : List Token} {last? : Option Node}
    (h : Statements placed expr inside behind tokens stmts) (ending : Ending expr lastTokens last?) :
    Word .items (tokens ++ lastTokens) := by
  cases ending with
  | absent =>
    rw [List.append_nil]
    exact .onlyStatements (h.word inner)
  | present last => exact .ending (h.word inner) (inner _ _ last).word

/-- The tokens of a primary expression are a word if those of nested expressions are. -/
theorem primary_hasWords : HasWords .primary (Primary placed expr) := by
  intro tokens node h
  cases h with
  | integer isKind _ | float isKind _ | boolean isKind _ | string isKind _ | name isKind _ =>
    exact ⟨.leaf (by rw [isKind]; decide), fun isBlock => by cases isBlock⟩
  | group isOpening value isClosing _ =>
    exact ⟨.group isOpening (inner _ _ value).word isClosing, fun isBlock => by cases isBlock⟩
  | block isOpening stmts ending isClosing _ =>
    have word := Word.block isOpening (stmts.word_items inner ending) isClosing
    exact ⟨.ofBlock word, fun _ => word⟩

/-- The tokens of an expression of any level are a word of that level if those of nested ones
are. -/
theorem derives_hasWords (level : Level) : HasWords level (Derives placed expr level) := by
  intro tokens node h
  induction h with
  | primary value => exact primary_hasWords inner _ _ value
  | unary isPrefix _ _ ih => exact ⟨.unary isPrefix ih.word, fun isBlock => by cases isBlock⟩
  | @binary level _ _ _ _ _ _ _ isOperator _ _ ihLeft ihRight =>
    have looser : level.rank ≤ level.leftOperand.rank := by cases level <;> decide
    exact ⟨.binary (ihLeft.word.loosen looser) isOperator ihRight.word,
      fun isBlock => by cases isBlock⟩
  | operand notPrimary _ ih => exact ⟨.operand notPrimary ih.word, ih.block⟩

end Inside

/-- The tokens of an expression of any depth are a word of the expressions. -/
theorem expression_hasWords (placed : Placement) (depth : Nat) :
    HasWords .equality (Expression placed depth .equality) := by
  induction depth with
  | zero =>
    intro tokens node h
    exact h.elim
  | succ depth ih => exact derives_hasWords ih .equality

/-- What stands for a program is a sentence. -/
theorem Program.sentence {placed : Placement} {tokens : List Token} {tree : Node}
    (h : Program placed tokens tree) : Sentence tokens := by
  obtain ⟨depth, _, _, _, stmts⟩ := h
  exact stmts.word (expression_hasWords placed depth)

end SinosLang.Grammar
