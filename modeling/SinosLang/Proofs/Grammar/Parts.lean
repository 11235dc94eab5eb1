import SinosLang.Proofs.Grammar.Rules

/-!
# The parts of a derivation

Every node of a tree that a list of tokens stands for is itself what some of these tokens in a row
stand for, as an expression or as a statement, before the token that comes next. It also does so on
its own: an expression of a tight level is an expression, and a statement inside a block is one that
may stand alone.

Main statement: `Program.stands`, every node below the root of a program stands for some of its
tokens.
-/

set_option autoImplicit false

namespace SinosLang

namespace Node

/-- Whether a node is a statement. -/
def isStatement : Node → Bool
  | letStmt .. => true
  | exprStmt .. => true
  | _ => false

/-- Whether a node is an expression. -/
def isExpression : Node → Bool
  | module .. => false
  | letStmt .. => false
  | exprStmt .. => false
  | _ => true

end Node

namespace Grammar

variable {placed : Placement} {tokens : List Token} {node part : Node}

/-- A node stands in a list of tokens if some of them in a row stand for it on their own. -/
def Stands (placed : Placement) (tokens : List Token) (node : Node) : Prop :=
  ∃ before inner after depth, tokens = before ++ inner ++ after ∧
    (Expression placed depth .equality inner node ∨
      Statement placed (Expression placed depth .equality) false .eof inner node)

/-- A statement may also stand alone. -/
theorem Statement.alone {expr : Phrase} {inside : Bool} {next : TokenKind}
    (h : Statement placed expr inside next tokens node) :
    Statement placed expr false .eof tokens node := by
  cases h with
  | binding isLet isName type isAssign value isSemi allowed =>
    exact .binding isLet isName type isAssign value isSemi allowed
  | terminated value isSemi allowed => exact .terminated value isSemi allowed
  | standing value isBlock _ _ _ allowed =>
    exact .standing value isBlock (by decide) (by decide) (fun inside => by cases inside) allowed

/-- A node occurs in a list of tokens if some of them in a row stand for it; a statement has to be one
that may stand before the token that comes next. -/
def Occurs (placed : Placement) (tokens : List Token) (node : Node) : Prop :=
  ∃ before inner after depth, tokens = before ++ inner ++ after ∧
    (Expression placed depth .equality inner node ∨
      ∃ inside, Statement placed (Expression placed depth .equality) inside
        (nextKind after .eof) inner node)

/-- A node that occurs in some tokens stands for some of them. -/
theorem Occurs.stands (h : Occurs placed tokens node) : Stands placed tokens node := by
  obtain ⟨before, inner, after, depth, split, derived⟩ := h
  refine ⟨before, inner, after, depth, split, derived.imp_right ?_⟩
  rintro ⟨_, statement⟩
  exact statement.alone

/-- All nodes of the trees of a phrase occur in its tokens, whatever comes before and after. -/
def AllOccur (placed : Placement) (phrase : Phrase) : Prop :=
  ∀ (before tokens after : List Token) (node : Node), phrase tokens node →
    ∀ part ∈ node.preorder, Occurs placed (before ++ tokens ++ after) part

section Inside

variable {depth : Nat} (inner : AllOccur placed (Expression placed depth .equality))
include inner

/-- The nodes of a statement occur in its tokens if what comes next is what it was derived for. -/
theorem Statement.occurs {inside : Bool} (before after : List Token)
    (derived : Statement placed (Expression placed depth .equality) inside (nextKind after .eof)
      tokens node) :
    ∀ part ∈ node.preorder, Occurs placed (before ++ tokens ++ after) part := by
  intro part isPart
  rcases Node.mem_preorder_iff.mp isPart with rfl | ⟨child, isChild, within⟩
  · exact ⟨before, tokens, after, depth, rfl, .inr ⟨inside, derived⟩⟩
  · cases derived with
    | @binding keyword name assign semi typeTokens valueTokens type? value span _ _ _ _ derived =>
      rw [List.mem_singleton.mp isChild] at within
      have occurs := inner (before ++ keyword :: name :: (typeTokens ++ [assign])) _
        (semi :: after) _ derived part within
      simpa using occurs
    | @terminated front semi value span derived =>
      rw [List.mem_singleton.mp isChild] at within
      have occurs := inner before _ (semi :: after) _ derived part within
      simpa using occurs
    | standing derived =>
      rw [List.mem_singleton.mp isChild] at within
      exact inner before _ after _ derived part within

/-- The nodes of statements in a row occur in their tokens. -/
theorem Statements.occurs {inside : Bool} {behind : TokenKind} {stmts : List Node}
    (before after : List Token) (behind_eq : nextKind after .eof = behind)
    (derived : Statements placed (Expression placed depth .equality) inside behind tokens stmts) :
    ∀ stmt ∈ stmts, ∀ part ∈ stmt.preorder,
      Occurs placed (before ++ tokens ++ after) part := by
  induction derived generalizing before with
  | nil => exact fun _ isIn => absurd isIn List.not_mem_nil
  | @cons first rest stmt stmts derived _ ih =>
    intro other isIn part isPart
    rcases List.mem_cons.mp isIn with rfl | later
    · rw [← behind_eq, ← nextKind_append] at derived
      have occurs := Statement.occurs inner before (rest ++ after) derived part isPart
      simpa using occurs
    · have occurs := ih (before ++ first) other later part isPart
      simpa using occurs

/-- The nodes below the root of a primary occur in its tokens. -/
theorem Primary.occurs (before after : List Token)
    (derived : Primary placed (Expression placed depth .equality) tokens node) :
    ∀ child ∈ node.children, ∀ part ∈ child.preorder,
      Occurs placed (before ++ tokens ++ after) part := by
  intro child isChild part isPart
  cases derived with
  | integer | float | boolean | string | name => cases isChild
  | @group opening closing tokens value span _ derived _ _ =>
    rw [List.mem_singleton.mp isChild] at isPart
    have occurs := inner (before ++ [opening]) _ (closing :: after) _ derived part isPart
    simpa using occurs
  | @block opening closing stmtTokens lastTokens stmts last? span _ derived ending isClosing _ =>
    rcases List.mem_append.mp isChild with isStmt | isLast
    · have behind_eq : nextKind (lastTokens ++ closing :: after) .eof =
          nextKind lastTokens .rbrace := by
        rw [nextKind_append, ← isClosing]
        rfl
      have occurs := Statements.occurs inner (before ++ [opening]) (lastTokens ++ closing :: after)
        behind_eq derived child isStmt part isPart
      simpa using occurs
    · cases ending with
      | absent => cases isLast
      | present derived =>
        rw [List.mem_singleton.mp isLast] at isPart
        have occurs := inner (before ++ opening :: stmtTokens) _ (closing :: after) _ derived part
          isPart
        simpa using occurs

omit inner in
/-- The tree of a derivation occurs in its tokens, at whatever level it was derived. -/
theorem Derives.occurs_root {level : Level} (before after : List Token)
    (derived : Derives placed (Expression placed depth .equality) level tokens node) :
    Occurs placed (before ++ tokens ++ after) node :=
  ⟨before, tokens, after, depth + 1, rfl, .inl (derived.loosen (by cases level <;> decide))⟩

/-- The nodes of an expression of any level occur in its tokens if those of nested expressions
do. -/
theorem Derives.occurs (level : Level) :
    AllOccur placed (Derives placed (Expression placed depth .equality) level) := by
  intro before tokens after node derived
  induction derived generalizing before after with
  | primary derived =>
    intro part isPart
    rcases Node.mem_preorder_iff.mp isPart with rfl | ⟨child, isChild, within⟩
    · exact (Derives.primary derived).occurs_root before after
    · exact derived.occurs inner before after child isChild part within
  | @unary op tokens operand span isPrefix derived allowed ih =>
    intro part isPart
    rcases Node.mem_preorder_iff.mp isPart with rfl | ⟨child, isChild, within⟩
    · exact (Derives.unary isPrefix derived allowed).occurs_root before after
    · rw [List.mem_singleton.mp isChild] at within
      have occurs := ih (before ++ [op]) after part within
      simpa using occurs
  | @binary level leftTokens rightTokens op left right span leftDerived isOperator rightDerived
      allowed ihLeft ihRight =>
    intro part isPart
    rcases Node.mem_preorder_iff.mp isPart with rfl | ⟨child, isChild, within⟩
    · exact (Derives.binary leftDerived isOperator rightDerived allowed).occurs_root before after
    · rcases List.mem_cons.mp isChild with rfl | isRight
      · have occurs := ihLeft before (op :: (rightTokens ++ after)) part within
        simpa using occurs
      · rw [List.mem_singleton.mp isRight] at within
        have occurs := ihRight (before ++ (leftTokens ++ [op])) after part within
        simpa using occurs
  | operand _ _ ih => exact ih before after

end Inside

/-- The nodes of an expression of any depth occur in its tokens. -/
theorem Expression.occurs (depth : Nat) (level : Level) :
    AllOccur placed (Expression placed depth level) := by
  induction depth generalizing level with
  | zero => exact fun _ _ _ _ derived => derived.elim
  | succ depth ih => exact Derives.occurs (ih .equality) level

/-- All nodes of an expression stand in its tokens. -/
theorem Expression.stands {depth : Nat} {level : Level}
    (derived : Expression placed depth level tokens node) :
    ∀ part ∈ node.preorder, Stands placed tokens part := by
  intro part isPart
  have occurs := Expression.occurs depth level [] tokens [] node derived part isPart
  simpa using occurs.stands

/-- All nodes of a statement that stands alone stand in its tokens. -/
theorem Statement.stands {depth : Nat} {inside : Bool}
    (derived : Statement placed (Expression placed depth .equality) inside .eof tokens node) :
    ∀ part ∈ node.preorder, Stands placed tokens part := by
  intro part isPart
  have occurs := Statement.occurs (Expression.occurs depth .equality) [] [] derived part isPart
  simpa using occurs.stands

/-- Every node of a program but the root occurs in its tokens. -/
theorem Program.occurs {tree : Node} (h : Program placed tokens tree) :
    ∀ part ∈ tree.preorder, part = tree ∨ Occurs placed tokens part := by
  obtain ⟨depth, span, stmts, rfl, derived⟩ := h
  intro part isPart
  rcases Node.mem_preorder_iff.mp isPart with isRoot | ⟨child, isChild, within⟩
  · exact .inl isRoot
  · have occurs := Statements.occurs (Expression.occurs depth .equality) [] [] rfl derived child
      isChild part within
    exact .inr (by simpa using occurs)

/-- Every node of a program but the root stands in its tokens. -/
theorem Program.stands {tree : Node} (h : Program placed tokens tree) :
    ∀ part ∈ tree.preorder, part = tree ∨ Stands placed tokens part :=
  fun part isPart => (h.occurs part isPart).imp_right Occurs.stands

/-! ### The sorts of what is derived -/

/-- A primary expression has a node of an expression. -/
theorem Primary.isExpression {expr : Phrase} (h : Primary placed expr tokens node) :
    node.isExpression = true := by
  cases h <;> rfl

/-- An expression of any level has a node of an expression. -/
theorem Derives.isExpression {expr : Phrase} {level : Level}
    (h : Derives placed expr level tokens node) : node.isExpression = true := by
  induction h with
  | primary derived => exact derived.isExpression
  | unary | binary => rfl
  | operand _ _ ih => exact ih

/-- An expression of any depth has a node of an expression. -/
theorem Expression.isExpression {depth : Nat} {level : Level}
    (h : Expression placed depth level tokens node) : node.isExpression = true := by
  cases depth with
  | zero => exact h.elim
  | succ depth => exact Derives.isExpression h

/-- A statement has a node of a statement. -/
theorem Statement.isStatement {expr : Phrase} {inside : Bool} {next : TokenKind}
    (h : Statement placed expr inside next tokens node) : node.isStatement = true := by
  cases h <;> rfl

/-- All nodes of statements in a row are those of statements. -/
theorem Statements.isStatement {expr : Phrase} {inside : Bool} {behind : TokenKind}
    {stmts : List Node} (h : Statements placed expr inside behind tokens stmts) :
    ∀ stmt ∈ stmts, stmt.isStatement = true := by
  induction h with
  | nil => exact fun _ isIn => absurd isIn List.not_mem_nil
  | cons derived _ ih => exact List.forall_mem_cons.mpr ⟨derived.isStatement, ih⟩

end Grammar

/-- No statement is an expression. -/
theorem Node.isExpression_of_isStatement {node : Node} (h : node.isStatement = true) :
    node.isExpression = false := by
  cases node <;> first | rfl | cases h

end SinosLang
