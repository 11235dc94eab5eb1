import SinosLang.Proofs.Grammar.Chains
import SinosLang.Proofs.Grammar.Words

/-!
# Trees for sentences

Every sentence has a tree, with chains on all levels. A sentence may be read in several ways, since a
block without a semicolon may stand before something that it could be the left operand of. The trees
that are wanted are those in which such a block is an operand wherever it can be. So a sentence is
taken from its end: a block that comes before statements already dealt with stands for itself, or is
made the left operand of the first of them; at the end of the block around it, it becomes what that
one ends with.

Main statement: `Sentence.exists_statements`.
-/

set_option autoImplicit false

namespace SinosLang.Grammar

/-- A phrase has trees for all expressions and all blocks that are shorter than so many tokens. -/
structure Reads (expr : Phrase) (bound : Nat) : Prop where
  expression : ∀ tokens, Word (.expression .equality) tokens → tokens.length < bound →
    ∃ node, expr tokens node
  block : ∀ tokens, Word .block tokens → tokens.length < bound →
    ∃ node, expr tokens node ∧ node.isBlock = true

/-- What a block holds: statements, and the expression that it may end with. -/
def Items (expr : Phrase) (tokens : List Token) : Prop :=
  ∃ stmtTokens lastTokens stmts last?, tokens = stmtTokens ++ lastTokens ∧
    Statements Plain expr true (nextKind lastTokens .rbrace) stmtTokens stmts ∧
    Ending expr lastTokens last?

/-- Where a statement or an expression begins that does so without a sign, a block before it may
stand for itself. -/
theorem free_of_begins {kind : TokenKind} (begins : kind = .letKeyword ∨ kind ∈ starters)
    (noSign : kind ∉ Level.sum.operators) :
    kind ≠ .semi ∧ kind ∉ binaryOperators ∧ kind ≠ .rbrace := by
  revert begins noSign
  cases kind <;> decide

section Reading

variable {expr : Phrase} {bound : Nat} (reads : Reads expr bound) {inside : Bool}
  {tokens first block : List Token}
include reads

/-- A block stands for itself before anything that it cannot be the operand of. -/
theorem exists_standing {next : TokenKind} (isBlock : Word .block block)
    (short : block.length < bound) (notSemi : next ≠ .semi) (notBinary : next ∉ binaryOperators)
    (notBrace : inside = true → next ≠ .rbrace) :
    ∃ stmt, Statement Plain expr inside next block stmt := by
  obtain ⟨node, derived, nodeIsBlock⟩ := reads.block _ isBlock short
  exact ⟨_, .standing derived nodeIsBlock notSemi notBinary notBrace rfl⟩

/-- A statement that is no block stands wherever it comes. -/
theorem block_or_exists_statement (word : Word .statement first) (short : first.length < bound) :
    Word .block first ∨ ∀ next, ∃ stmt, Statement Plain expr inside next first stmt := by
  cases word with
  | binding isLet isName type isAssign value isSemi =>
    simp only [List.length_append, List.length_cons] at short
    obtain ⟨node, derived⟩ := reads.expression _ value (by omega)
    exact .inr fun _ => ⟨_, .binding isLet isName type isAssign derived isSemi rfl⟩
  | terminated value isSemi =>
    rw [List.length_append] at short
    obtain ⟨node, derived⟩ := reads.expression _ value (by omega)
    exact .inr fun _ => ⟨_, .terminated derived isSemi rfl⟩
  | standing isBlock => exact .inl isBlock

/-- A block before a statement is the left operand of what that begins with, if this is a sign, and
stands for itself otherwise. -/
theorem exists_statement_behind_block (isBlock : Word .block block) (word : Word .statement first)
    (short : (block ++ first).length < bound) :
    (∀ next, ∃ stmt, Statement Plain expr inside next (block ++ first) stmt) ∨
      ∀ behind, ∃ stmt, Statement Plain expr inside (nextKind first behind) block stmt := by
  rw [List.length_append] at short
  obtain ⟨head, more, rfl, begins⟩ := word.begins
  by_cases isSign : head.kind ∈ Level.sum.operators
  · generalize shape : head :: more = first at word short ⊢
    cases word with
    | binding isLet =>
      obtain ⟨rfl, _⟩ := List.cons_eq_cons.mp shape
      rw [isLet] at isSign
      exact absurd isSign (by decide)
    | standing isBlock' =>
      subst shape
      exact absurd isBlock' (Word.not_sign_of_block isSign)
    | @terminated value semi word isSemi =>
      obtain ⟨head', value', rfl, _⟩ := word.begins
      obtain ⟨rfl, _⟩ := List.cons_eq_cons.mp shape
      have whole := isBlock.absorb isSign (by decide) word
      have short' : (block ++ head :: value').length < bound := by
        simp only [List.length_append] at short ⊢
        omega
      obtain ⟨node, derived⟩ := reads.expression _ whole short'
      left
      intro next
      rw [← List.append_assoc]
      exact ⟨_, .terminated derived isSemi rfl⟩
  · right
    intro behind
    obtain ⟨notSemi, notBinary, notBrace⟩ := free_of_begins begins isSign
    exact exists_standing reads isBlock (by omega) notSemi notBinary fun _ => notBrace

/-- Something holds of all that statements come before if it holds of what comes behind them, with or
without a block between, and if it is kept when a statement is put in front. -/
theorem of_statements {behind : TokenKind} {last : List Token} {items : List Token → Prop}
    (cons : ∀ first rest stmt, Statement Plain expr inside (nextKind rest behind) first stmt →
      items rest → items (first ++ rest))
    (base : items last)
    (baseBlock : ∀ block, Word .block block → (block ++ last).length < bound → items (block ++ last))
    (word : Word .statements tokens) (short : (tokens ++ last).length < bound) :
    items (tokens ++ last) ∧ ∀ block, Word .block block →
      (block ++ (tokens ++ last)).length < bound → items (block ++ (tokens ++ last)) := by
  generalize category_eq : Category.statements = category at word
  induction word with
  | noStatements => exact ⟨base, baseBlock⟩
  | @moreStatements first rest isFirst _ _ ih =>
    rw [List.append_assoc] at short ⊢
    have short' := short
    rw [List.length_append] at short'
    obtain ⟨isRest, afterBlock⟩ := ih (by omega) rfl
    have whole : items (first ++ (rest ++ last)) := by
      rcases block_or_exists_statement reads isFirst (by omega) with isBlock | standing
      · exact afterBlock first isBlock short
      · obtain ⟨stmt, derived⟩ := standing (nextKind (rest ++ last) behind)
        exact cons first _ stmt derived isRest
    refine ⟨whole, ?_⟩
    intro block isBlock shortBlock
    simp only [List.length_append] at shortBlock
    rcases exists_statement_behind_block reads isBlock isFirst
      (by rw [List.length_append]; omega) with merged | standing
    · obtain ⟨stmt, derived⟩ := merged (nextKind (rest ++ last) behind)
      rw [← List.append_assoc]
      exact cons (block ++ first) _ stmt derived isRest
    · obtain ⟨stmt, derived⟩ := standing (nextKind (rest ++ last) behind)
      rw [← nextKind_append] at derived
      exact cons block _ stmt derived whole
  | _ => cases category_eq

/-- What is a word of items is read as what a block holds. A block at their end is what it ends
with. -/
theorem items_of_word (word : Word .items tokens) (short : tokens.length < bound) :
    Items expr tokens := by
  have cons : ∀ first rest stmt, Statement Plain expr true (nextKind rest .rbrace) first stmt →
      Items expr rest → Items expr (first ++ rest) := by
    rintro first _ stmt derived ⟨stmtTokens, lastTokens, stmts, last?, rfl, areStmts, isEnding⟩
    rw [nextKind_append] at derived
    exact ⟨first ++ stmtTokens, lastTokens, stmt :: stmts, last?, (List.append_assoc ..).symm,
      .cons derived areStmts, isEnding⟩
  have ofLast {last : List Token} (isLast : Word (.expression .equality) last)
      (short : last.length < bound) : Items expr last := by
    obtain ⟨node, derived⟩ := reads.expression _ isLast short
    exact ⟨[], last, [], some node, rfl, .nil, .present derived⟩
  cases word with
  | onlyStatements word =>
    have nothing : Items expr [] := ⟨[], [], [], none, rfl, .nil, .absent⟩
    have blockLast : ∀ block, Word .block block → (block ++ []).length < bound →
        Items expr (block ++ []) := by
      intro block isBlock short
      rw [List.append_nil] at short ⊢
      exact ofLast isBlock.expression_of_block short
    rw [← List.append_nil tokens] at short ⊢
    exact (of_statements reads cons nothing blockLast word short).1
  | @ending stmts last word isLast =>
    have shortLast : last.length < bound := by
      rw [List.length_append] at short
      omega
    refine (of_statements reads cons (ofLast isLast shortLast) ?_ word short).1
    intro block isBlock short
    obtain ⟨head, more, rfl, begins⟩ := isLast.begins
    by_cases isSign : head.kind ∈ Level.sum.operators
    · exact ofLast (isBlock.absorb isSign (by decide) isLast) short
    · obtain ⟨notSemi, notBinary, notBrace⟩ := free_of_begins (.inr begins) isSign
      have shortBlock : block.length < bound := by
        rw [List.length_append] at short
        omega
      obtain ⟨stmt, derived⟩ := exists_standing reads isBlock shortBlock notSemi notBinary
        fun _ => notBrace
      exact cons block (head :: more) stmt derived (ofLast isLast shortLast)

/-- The words of statements are read as those of a program. -/
theorem statements_of_word (word : Word .statements tokens) (short : tokens.length < bound) :
    ∃ stmts, Statements Plain expr false .eof tokens stmts := by
  have cons : ∀ first rest stmt, Statement Plain expr false (nextKind rest .eof) first stmt →
      (∃ stmts, Statements Plain expr false .eof rest stmts) →
      ∃ stmts, Statements Plain expr false .eof (first ++ rest) stmts := by
    rintro first rest stmt derived ⟨stmts, areStmts⟩
    exact ⟨stmt :: stmts, .cons derived areStmts⟩
  have blockLast : ∀ block, Word .block block → (block ++ []).length < bound →
      ∃ stmts, Statements Plain expr false .eof (block ++ []) stmts := by
    intro block isBlock short
    rw [List.append_nil] at short
    obtain ⟨stmt, derived⟩ : ∃ stmt, Statement Plain expr false .eof block stmt :=
      exists_standing reads isBlock short (by decide) (by decide) (by simp)
    exact cons block [] stmt derived ⟨[], .nil⟩
  rw [← List.append_nil tokens] at short ⊢
  exact (of_statements reads cons ⟨[], .nil⟩ blockLast word short).1

/-- A word of a block is read as a primary if what it holds is read. -/
theorem exists_block (word : Word .block tokens) (short : tokens.length < bound + 1) :
    ∃ node, Primary Plain expr tokens node ∧ node.isBlock = true := by
  cases word with
  | block isOpening items isClosing =>
    simp only [List.length_append, List.length_cons, List.length_nil] at short
    obtain ⟨stmtTokens, lastTokens, stmts, last?, rfl, areStmts, isEnding⟩ :=
      items_of_word reads items (by omega)
    exact ⟨_, .block isOpening areStmts isEnding isClosing rfl, rfl⟩

omit reads in
/-- A token that is an expression by itself is a primary. -/
theorem exists_leaf {token : Token} (isLeaf : token.kind ∈ leaves) :
    ∃ node, Primary Plain expr [token] node := by
  have cases_kind : token.kind = .int ∨ token.kind = .float ∨ token.kind = .bool ∨
      token.kind = .string ∨ token.kind = .ident := by
    simpa [leaves] using isLeaf
  rcases cases_kind with isKind | isKind | isKind | isKind | isKind
  · exact ⟨_, .integer isKind rfl⟩
  · exact ⟨_, .float isKind rfl⟩
  · exact ⟨_, .boolean isKind rfl⟩
  · exact ⟨_, .string isKind rfl⟩
  · exact ⟨_, .name isKind rfl⟩

/-- The words of a level have trees, with chains on all levels, if there are trees for what is inside
their brackets. -/
theorem exists_loose {level : Level} (word : Word (.expression level) tokens)
    (short : tokens.length < bound + 1) : ∃ node, Loose Plain expr level tokens node := by
  generalize category_eq : Category.expression level = category at word
  induction word generalizing level with
  | leaf isLeaf =>
    cases category_eq
    obtain ⟨node, derived⟩ := exists_leaf isLeaf
    exact ⟨node, .primary derived⟩
  | group isOpening value isClosing _ =>
    cases category_eq
    simp only [List.length_append, List.length_cons, List.length_nil] at short
    obtain ⟨node, derived⟩ := reads.expression _ value (by omega)
    exact ⟨_, .primary (.group isOpening derived isClosing rfl)⟩
  | ofBlock isBlock _ =>
    cases category_eq
    obtain ⟨node, derived, _⟩ := exists_block reads isBlock short
    exact ⟨node, .primary derived⟩
  | unary isPrefix _ ih =>
    cases category_eq
    obtain ⟨node, derived⟩ := ih (Nat.lt_of_succ_lt short) rfl
    exact ⟨_, .unary isPrefix derived rfl⟩
  | binary _ isOperator _ ihLeft ihRight =>
    cases category_eq
    simp only [List.length_append, List.length_cons, List.length_nil] at short
    obtain ⟨left, isLeft⟩ := ihLeft (by omega) rfl
    obtain ⟨right, isRight⟩ := ihRight (by omega) rfl
    exact ⟨_, isLeft.binary isOperator isRight rfl⟩
  | operand notPrimary _ ih =>
    cases category_eq
    obtain ⟨node, derived⟩ := ih short rfl
    exact ⟨node, derived.operand notPrimary⟩
  | _ => cases category_eq

end Reading

/-- Expressions and blocks have trees with chains on all levels. -/
theorem reads_chained (bound : Nat) : Reads (Chained Plain bound) bound := by
  induction bound with
  | zero => exact ⟨fun _ _ short => absurd short (Nat.not_lt_zero _),
      fun _ _ short => absurd short (Nat.not_lt_zero _)⟩
  | succ bound ih =>
    constructor
    · intro tokens word short
      exact exists_loose ih word short
    · intro tokens word short
      obtain ⟨node, derived, isBlock⟩ := exists_block ih word short
      exact ⟨node, .of_primary derived, isBlock⟩

/-- Every sentence has trees for its statements, with chains on all levels. -/
theorem Sentence.exists_statements {tokens : List Token} (isSentence : Sentence tokens) :
    ∃ depth stmts, Statements Plain (Chained Plain depth) false .eof tokens stmts :=
  ⟨_, statements_of_word (reads_chained (tokens.length + 1)) isSentence (Nat.lt_succ_self _)⟩

end SinosLang.Grammar
