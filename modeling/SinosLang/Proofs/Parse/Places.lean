import SinosLang.Proofs.Parse.Rereading

/-!
# Where the nodes of a tree stand

The tokens of a source are in order, and the tokens of a node are those of its children, one after
the other, with tokens of its own around and between them. So the span of every node runs between two
definite tokens, the spans of its children lie in it one after the other, and the spans of a whole
tree form a laminar family.

Main statement: `spans_laminar`.
-/

set_option autoImplicit false

namespace SinosLang

open Grammar

/-- Each of some nodes is in place at tokens of its own. -/
def Yields (yields : List (List Token)) (nodes : List Node) : Prop :=
  List.Forall₂ (fun yield node => InPlace yield node.span) yields nodes

/-- The tokens that a node's span runs between, among all the tokens of its source. Tokens that the
node has besides those of its children are the ones that its rule of the grammar gives it. -/
def Node.Bounded (tokens : List Token) : Node → Prop
  | .module _ stmts => ∃ yields, yields.flatten = tokens ∧ Yields yields stmts
  | .letStmt span binding type? value => ∃ keyword bound type assign inner semi,
      [keyword] ++ (bound :: type ++ assign :: inner) ++ [semi] <:+: tokens ∧
      keyword.kind = .letKeyword ∧ bound.kind = .ident ∧ bound.value = binding ∧
      TypePart type type? ∧ assign.kind = .assign ∧ InPlace inner value.span ∧ semi.kind = .semi ∧
      span.index = keyword.span.index ∧ span.stop = semi.span.stop
  | .exprStmt span expr => ∃ before inner after,
      before ++ inner ++ after = tokens ∧ InPlace inner expr.span ∧ span.index = expr.span.index ∧
      ((∃ semi rest, after = semi :: rest ∧ semi.kind = .semi ∧ span.stop = semi.span.stop) ∨
        expr.isBlock = true ∧ nextKind after .eof ≠ .semi ∧ span.stop = expr.span.stop)
  | .block span stmts last? => ∃ opening yields closing,
      [opening] ++ yields.flatten ++ [closing] <:+: tokens ∧ opening.kind = .lbrace ∧
      Yields yields (stmts ++ last?.toList) ∧ closing.kind = .rbrace ∧
      span.index = opening.span.index ∧ span.stop = closing.span.stop
  | .binary span op left right => ∃ front operator back,
      front ++ [operator] ++ back <:+: tokens ∧ InPlace front left.span ∧
      operator.kind ∈ binaryOperators ∧ operator.value = op ∧ InPlace back right.span ∧
      span.index = left.span.index ∧ span.stop = right.span.stop
  | .unary span op operand => ∃ operator inner,
      [operator] ++ inner <:+: tokens ∧ operator.kind ∈ prefixOperators ∧ operator.value = op ∧
      InPlace inner operand.span ∧ span.index = operator.span.index ∧
      span.stop = operand.span.stop
  | .group span expr => ∃ opening inner closing,
      [opening] ++ inner ++ [closing] <:+: tokens ∧ opening.kind = .lparen ∧
      InPlace inner expr.span ∧ closing.kind = .rparen ∧ span.index = opening.span.index ∧
      span.stop = closing.span.stop
  | .name span value => ∃ token ∈ tokens, token.kind = .ident ∧ value = token.value ∧
      span = token.span
  | .integer span value => ∃ token ∈ tokens, token.kind = .int ∧
      value = Text.toNat token.value ∧ span = token.span
  | .float span value => ∃ token ∈ tokens, token.kind = .float ∧
      value = Binary64.ofLiteral token.value ∧ span = token.span
  | .boolean span value => ∃ token ∈ tokens, token.kind = .bool ∧
      value = (token.value == "true".toList) ∧ span = token.span
  | .string span value => ∃ token ∈ tokens, token.kind = .string ∧ value = token.value ∧
      span = token.span

/-! ## From derivations to bounds -/

namespace Grammar

variable {expr : Phrase} {tokens before after : List Token} {node : Node}

/-- The only span in place for a single token is its own. -/
theorem InPlace.eq_of_singleton {token : Token} {span : Span} (inPlace : InPlace [token] span) :
    span = token.span :=
  inPlace.unique (inPlace_singleton token)

/-- A span in place runs from its first token to its last one. -/
theorem InPlace.between {first last : Token} {middle : List Token} {span : Span}
    (inPlace : InPlace ([first] ++ middle ++ [last]) span) :
    span.index = first.span.index ∧ span.stop = last.span.stop :=
  inPlace.ends (inPlace_singleton first) (inPlace_singleton last)

/-- The statements of a list have their tokens one after the other. -/
theorem Statements.exists_yields {inside : Bool} {behind : TokenKind} {stmts : List Node}
    (derived : Statements InPlace expr inside behind tokens stmts) :
    ∃ yields, yields.flatten = tokens ∧ Yields yields stmts := by
  induction derived with
  | nil => exact ⟨[], rfl, .nil⟩
  | @cons first rest stmt stmts derived _ ih =>
    obtain ⟨yields, rfl, inTurn⟩ := ih
    exact ⟨first :: yields, rfl, .cons derived.placed_span inTurn⟩

section Inside

variable (placed : ∀ tokens node, expr tokens node → InPlace tokens node.span)
include placed

/-- A statement is bounded by the tokens that it is derived from. -/
theorem Statement.bounded {inside : Bool}
    (derived : Statement InPlace expr inside (nextKind after .eof) tokens node) :
    node.Bounded (before ++ tokens ++ after) := by
  cases derived with
  | @binding keyword binding assign semi type inner type? value span isLet isName hasType isAssign
      derived isSemi inPlace =>
    obtain ⟨index_eq, stop_eq⟩ := inPlace.between
    refine ⟨keyword, binding, type, assign, inner, semi, ⟨before, after, by simp⟩, isLet, isName,
      rfl, hasType, isAssign, placed _ _ derived, isSemi, index_eq, stop_eq⟩
  | @terminated inner semi value span derived isSemi inPlace =>
    have inPlace' : InPlace (inner ++ [] ++ [semi]) span := by simpa using inPlace
    obtain ⟨index_eq, stop_eq⟩ := inPlace'.ends (placed _ _ derived) (inPlace_singleton semi)
    exact ⟨before, inner, semi :: after, by simp, placed _ _ derived, index_eq,
      .inl ⟨semi, after, rfl, isSemi, stop_eq⟩⟩
  | @standing _ value span derived isBlock notSemi _ _ inPlace =>
    obtain rfl := inPlace.unique (placed _ _ derived)
    exact ⟨before, tokens, after, rfl, inPlace, rfl, .inr ⟨isBlock, notSemi, rfl⟩⟩

/-- A primary expression is bounded by the tokens that it is derived from. -/
theorem Primary.bounded (derived : Primary InPlace expr tokens node) :
    node.Bounded (before ++ tokens ++ after) := by
  cases derived with
  | integer isKind inPlace | float isKind inPlace | boolean isKind inPlace | string isKind inPlace
  | name isKind inPlace =>
    exact ⟨_, by simp, isKind, rfl, inPlace.eq_of_singleton⟩
  | @group opening closing inner value span isOpening derived isClosing inPlace =>
    obtain ⟨index_eq, stop_eq⟩ := inPlace.between
    exact ⟨opening, inner, closing, ⟨before, after, by simp⟩, isOpening, placed _ _ derived,
      isClosing, index_eq, stop_eq⟩
  | @block opening closing stmtTokens lastTokens stmts last? span isOpening derived ending isClosing
      inPlace =>
    obtain ⟨index_eq, stop_eq⟩ := inPlace.between
    obtain ⟨yields, rfl, inTurn⟩ := derived.exists_yields
    have all : ∃ yields', yields'.flatten = yields.flatten ++ lastTokens ∧
        Yields yields' (stmts ++ last?.toList) := by
      cases ending with
      | absent => exact ⟨yields, by simp, by simpa using inTurn⟩
      | present derived =>
        exact ⟨yields ++ [lastTokens], by simp,
          List.rel_append inTurn (.cons (placed _ _ derived) .nil)⟩
    obtain ⟨yields', flat, inTurn'⟩ := all
    exact ⟨opening, yields', closing, ⟨before, after, by simp [flat]⟩, isOpening, inTurn', isClosing,
      index_eq, stop_eq⟩

/-- An expression of any level is bounded by the tokens that it is derived from. -/
theorem Derives.bounded {level : Level} (derived : Derives InPlace expr level tokens node) :
    node.Bounded (before ++ tokens ++ after) := by
  induction derived with
  | primary derived => exact derived.bounded placed
  | @unary op inner operand span isPrefix derived inPlace _ =>
    have inPlace' : InPlace ([op] ++ [] ++ inner) span := inPlace
    obtain ⟨index_eq, stop_eq⟩ := inPlace'.ends (inPlace_singleton op) derived.placed_span
    exact ⟨op, inner, ⟨before, after, by simp⟩, isPrefix, rfl, derived.placed_span, index_eq, stop_eq⟩
  | @binary level front back op left right span leftDerived isOperator rightDerived inPlace _ _ =>
    obtain ⟨index_eq, stop_eq⟩ := inPlace.ends leftDerived.placed_span rightDerived.placed_span
    have areBinary : level.operators ⊆ binaryOperators := by cases level <;> decide
    exact ⟨front, op, back, ⟨before, after, by simp⟩, leftDerived.placed_span, areBinary isOperator,
      rfl, rightDerived.placed_span, index_eq, stop_eq⟩
  | operand _ _ ih => exact ih

end Inside

/-- The span of a node runs between the tokens that its rule of the grammar gives it. -/
theorem Occurs.bounded (occurs : Occurs InPlace tokens node) : node.Bounded tokens := by
  obtain ⟨before, inner, after, depth, rfl, expression | ⟨inside, statement⟩⟩ := occurs
  · cases depth with
    | zero => exact expression.elim
    | succ depth => exact Derives.bounded (fun _ _ derived => derived.placed_span) expression
  · exact statement.bounded fun _ _ derived => derived.placed_span

/-- A module is the root of its tree only. -/
theorem Occurs.not_module {placed : Placement} {span : Span} {stmts : List Node} :
    ¬Occurs placed tokens (.module span stmts) := by
  rintro ⟨_, _, _, _, _, expression | ⟨_, statement⟩⟩
  · exact absurd expression.isExpression Bool.false_ne_true
  · exact absurd statement.isStatement Bool.false_ne_true

/-- The span of every node of a program runs between the tokens that its rule gives it. -/
theorem Program.bounded {tree : Node} (derived : Program InPlace tokens tree) :
    ∀ node ∈ tree.preorder, node.Bounded tokens := by
  intro node isPart
  rcases derived.occurs node isPart with rfl | occurs
  · obtain ⟨depth, span, stmts, rfl, derived⟩ := derived
    exact derived.exists_yields
  · exact occurs.bounded

end Grammar

/-! ## One after the other -/

/-- The last of some tokens in order ends behind all of them. -/
theorem Token.Ordered.le_stop {tokens : List Token} {last : Token} (ordered : Ordered tokens)
    (tail : tokens.getLast? = some last) : ∀ token ∈ tokens, token.span.stop ≤ last.span.stop := by
  obtain ⟨front, rfl⟩ := List.getLast?_eq_some_iff.mp tail
  intro token isIn
  rcases List.mem_append.mp isIn with before | isLast
  · have le := (List.pairwise_append.mp ordered).2.2 token before last (List.mem_singleton_self _)
    exact le.trans (Nat.le_add_right _ _)
  · rw [List.mem_singleton.mp isLast]

/-- Some tokens in a row are in order if all of them are. -/
theorem Token.Ordered.inner {inner tokens : List Token} (ordered : Ordered tokens)
    (isInfix : inner <:+: tokens) : Ordered inner :=
  List.Pairwise.sublist isInfix.sublist ordered

namespace Grammar

variable {tokens front inner back : List Token} {first second span : Span}

/-- What is in place at earlier tokens stops before what is in place at later ones. -/
theorem InPlace.stop_le_index (ordered : Token.Ordered (front ++ back))
    (atFront : InPlace front first) (atBack : InPlace back second) : first.stop ≤ second.index := by
  obtain ⟨_, last, _, tail, _, stop_eq⟩ := atFront
  obtain ⟨head, _, isHead, _, index_eq, _⟩ := atBack
  rw [stop_eq, index_eq]
  exact (List.pairwise_append.mp ordered).2.2 last (List.mem_of_getLast? tail) head
    (List.mem_of_head? isHead)

/-- What is in place at some of the tokens lies inside of what is in place at all of them. -/
theorem InPlace.contains (ordered : Token.Ordered tokens) (atAll : InPlace tokens span)
    (isInfix : inner <:+: tokens) (atInner : InPlace inner first) : span.contains first = true := by
  obtain ⟨head, last, isHead, tail, index_eq, stop_eq⟩ := atAll
  obtain ⟨head', last', isHead', tail', index_eq', stop_eq'⟩ := atInner
  have starts := ordered.index_le isHead head' (isInfix.subset (List.mem_of_head? isHead'))
  have ends := ordered.le_stop tail last' (isInfix.subset (List.mem_of_getLast? tail'))
  simp only [Span.contains, Bool.and_eq_true, decide_eq_true_eq]
  omega

/-- Nodes stand in some tokens one after the other, each in place at tokens of its own. -/
inductive InTurn : List Token → List Node → Prop
  | nil {tokens : List Token} : InTurn tokens []
  | cons {node : Node} {nodes : List Node} {inner rest : List Token} (front : List Token) :
    InPlace inner node.span → InTurn rest nodes → InTurn (front ++ inner ++ rest) (node :: nodes)

variable {nodes : List Node} {node : Node}

/-- There may be more tokens around. -/
theorem InTurn.within (front back : List Token) (inTurn : InTurn tokens nodes) :
    InTurn (front ++ tokens ++ back) nodes := by
  induction inTurn generalizing front with
  | nil => exact .nil
  | @cons node nodes inner rest front' inPlace _ ih =>
    have later := InTurn.cons (front ++ front') inPlace (ih [])
    simpa using later

/-- Nodes with yields in a row stand one after the other. -/
theorem inTurn_of_yields {yields : List (List Token)} (inPlace : Yields yields nodes) :
    InTurn yields.flatten nodes := by
  induction inPlace with
  | nil => exact .nil
  | cons here _ ih => exact .cons [] here ih

/-- A single node stands in its tokens. -/
theorem inTurn_singleton (inPlace : InPlace inner node.span) : InTurn inner [node] := by
  have single := @InTurn.cons node [] inner [] [] inPlace .nil
  simpa using single

/-- Each of the nodes that stand one after the other is in place at some of the tokens. -/
theorem InTurn.exists_inPlace (inTurn : InTurn tokens nodes) :
    ∀ node ∈ nodes, ∃ inner, inner <:+: tokens ∧ InPlace inner node.span := by
  induction inTurn with
  | nil => exact fun _ isIn => absurd isIn List.not_mem_nil
  | @cons first nodes inner rest front inPlace _ ih =>
    intro node isIn
    rcases List.mem_cons.mp isIn with rfl | later
    · exact ⟨inner, ⟨front, rest, rfl⟩, inPlace⟩
    · obtain ⟨inner', isInfix, inPlace'⟩ := ih node later
      exact ⟨inner', isInfix.trans (List.suffix_append _ _).isInfix, inPlace'⟩

/-- Nodes that stand one after the other in tokens in order have their spans in order. -/
theorem InTurn.pairwise (inTurn : InTurn tokens nodes) (ordered : Token.Ordered tokens) :
    nodes.Pairwise fun first second => first.span.stop ≤ second.span.index := by
  induction inTurn with
  | nil => exact .nil
  | @cons first nodes inner rest front inPlace inTurn ih =>
    have orderedRest := ordered.inner (List.suffix_append _ _).isInfix
    refine .cons ?_ (ih orderedRest)
    intro second isIn
    obtain ⟨inner', isInfix, inPlace'⟩ := inTurn.exists_inPlace second isIn
    have orderedBoth : Token.Ordered (inner ++ inner') := by
      refine List.Pairwise.sublist ?_ ordered
      rw [List.append_assoc]
      exact (List.Sublist.append_left isInfix.sublist inner).trans (List.sublist_append_right _ _)
    exact inPlace.stop_le_index orderedBoth inPlace'

end Grammar

namespace Node

variable {tokens : List Token} {node : Node}

/-- The children of a node stand one after the other in its tokens. Those of a module are all of
the tokens, though its span may begin before the first of them. -/
theorem Bounded.inTurn (bounded : node.Bounded tokens) :
    ∃ inner, inner <:+: tokens ∧ InTurn inner node.children ∧
      (InPlace inner node.span ∨ ∃ span stmts, node = .module span stmts) := by
  cases node with
  | module span stmts =>
    obtain ⟨yields, rfl, inPlace⟩ := bounded
    exact ⟨_, List.infix_refl _, inTurn_of_yields inPlace, .inr ⟨span, stmts, rfl⟩⟩
  | letStmt span name type? value =>
    obtain ⟨keyword, bound, type, assign, inner, semi, isInfix, _, _, _, _, _, inPlace, _, index_eq,
      stop_eq⟩ := bounded
    refine ⟨_, isInfix, ?_, .inl ?_⟩
    · have inTurn := (inTurn_singleton inPlace).within (keyword :: bound :: type ++ [assign]) [semi]
      simpa [children] using inTurn
    · exact (inPlace_singleton keyword).join (inPlace_singleton semi) index_eq stop_eq
  | exprStmt span expr =>
    obtain ⟨before, inner, after, rfl, inPlace, index_eq, ends⟩ := bounded
    rcases ends with ⟨semi, rest, rfl, _, stop_eq⟩ | ⟨_, _, stop_eq⟩
    · refine ⟨inner ++ [semi], ⟨before, rest, by simp⟩, ?_, .inl ?_⟩
      · exact (inTurn_singleton inPlace).within [] [semi]
      · have whole := @InPlace.join inner [] _ _ _ span inPlace (inPlace_singleton semi) index_eq
          stop_eq
        simpa [Node.span] using whole
    · refine ⟨inner, ⟨before, after, rfl⟩, inTurn_singleton inPlace, .inl ?_⟩
      obtain ⟨first, last, head, tail, index_eq', stop_eq'⟩ := inPlace
      exact ⟨first, last, head, tail, index_eq.trans index_eq', stop_eq.trans stop_eq'⟩
  | block span stmts last? =>
    obtain ⟨opening, yields, closing, isInfix, _, inPlace, _, index_eq, stop_eq⟩ := bounded
    refine ⟨_, isInfix, (inTurn_of_yields inPlace).within [opening] [closing], .inl ?_⟩
    exact (inPlace_singleton opening).join (inPlace_singleton closing) index_eq stop_eq
  | binary span op left right =>
    obtain ⟨front, operator, back, isInfix, atFront, _, _, atBack, index_eq, stop_eq⟩ := bounded
    refine ⟨_, isInfix, ?_, .inl (atFront.join atBack index_eq stop_eq)⟩
    have inTurn := InTurn.cons [] atFront (inTurn_singleton atBack |>.within [operator] [])
    simpa [children] using inTurn
  | unary span op operand =>
    obtain ⟨operator, inner, isInfix, _, _, inPlace, index_eq, stop_eq⟩ := bounded
    refine ⟨_, isInfix, ?_, .inl ?_⟩
    · have inTurn := (inTurn_singleton inPlace).within [operator] []
      simpa [children] using inTurn
    · exact @InPlace.join _ [] _ _ _ span (inPlace_singleton operator) inPlace index_eq stop_eq
  | group span expr =>
    obtain ⟨opening, inner, closing, isInfix, _, inPlace, _, index_eq, stop_eq⟩ := bounded
    refine ⟨_, isInfix, (inTurn_singleton inPlace).within [opening] [closing], .inl ?_⟩
    exact (inPlace_singleton opening).join (inPlace_singleton closing) index_eq stop_eq
  | name span _ | integer span _ | float span _ | boolean span _ | string span _ =>
    obtain ⟨token, isIn, _, _, rfl⟩ := bounded
    obtain ⟨before, after, rfl⟩ := List.append_of_mem isIn
    exact ⟨[token], ⟨before, after, by simp⟩, .nil, .inl (inPlace_singleton token)⟩

/-- A node whose children lie inside of it one after the other. -/
structure Nests (node : Node) : Prop where
  contains : ∀ child ∈ node.children, node.span.contains child.span = true
  inOrder : node.children.Pairwise fun first second => first.span.stop ≤ second.span.index

/-- Two nodes of which one lies inside of the other or behind it. -/
def Laminar (first second : Node) : Prop :=
  first.span.contains second.span = true ∨ second.span.contains first.span = true ∨
    first.span.stop ≤ second.span.index ∨ second.span.stop ≤ first.span.index

/-- A span within a span within a third is within the third. -/
theorem contains_trans {outer middle inner : Span} (h : outer.contains middle = true)
    (k : middle.contains inner = true) : outer.contains inner = true := by
  simp only [Span.contains, Bool.and_eq_true, decide_eq_true_eq] at h k ⊢
  omega

/-- A span contains itself. -/
theorem contains_refl (span : Span) : span.contains span = true := by
  simp [Span.contains]

/-- A tree whose nodes all contain their children contains all its nodes. -/
theorem contains_of_mem_preorder {tree part : Node}
    (nests : ∀ node ∈ tree.preorder, node.Nests) (isPart : part ∈ tree.preorder) :
    tree.span.contains part.span = true := by
  induction tree using induction_on_children with
  | step tree ih =>
    rcases mem_preorder_iff.mp isPart with rfl | ⟨child, isChild, within⟩
    · exact contains_refl _
    · have below : ∀ node ∈ child.preorder, node.Nests := fun node isIn =>
        nests node (mem_preorder_iff.mpr (.inr ⟨child, isChild, isIn⟩))
      exact contains_trans ((nests tree (mem_preorder_self tree)).contains child isChild)
        (ih child isChild below within)

/-- Of two nodes that stand one after the other in a list, one is behind the other. -/
theorem apart_of_pairwise {nodes : List Node} {first second : Node}
    (inOrder : nodes.Pairwise fun first second => first.span.stop ≤ second.span.index)
    (isFirst : first ∈ nodes) (isSecond : second ∈ nodes) (different : first ≠ second) :
    first.span.stop ≤ second.span.index ∨ second.span.stop ≤ first.span.index := by
  induction inOrder with
  | nil => cases isFirst
  | cons before _ ih =>
    rcases List.mem_cons.mp isFirst with rfl | later <;>
      rcases List.mem_cons.mp isSecond with rfl | later'
    · exact absurd rfl different
    · exact .inl (before second later')
    · exact .inr (before first later)
    · exact ih later later'

/-- In a tree whose nodes all have their children in order, any two nodes are nested or apart. -/
theorem laminar_of_nests {tree first second : Node} (nests : ∀ node ∈ tree.preorder, node.Nests)
    (isFirst : first ∈ tree.preorder) (isSecond : second ∈ tree.preorder) :
    Laminar first second := by
  induction tree using induction_on_children with
  | step tree ih =>
    have below {child : Node} (isChild : child ∈ tree.children) :
        ∀ node ∈ child.preorder, node.Nests := fun node isIn =>
      nests node (mem_preorder_iff.mpr (.inr ⟨child, isChild, isIn⟩))
    rcases mem_preorder_iff.mp isFirst with rfl | ⟨child, isChild, within⟩
    · exact .inl (contains_of_mem_preorder nests isSecond)
    rcases mem_preorder_iff.mp isSecond with rfl | ⟨child', isChild', within'⟩
    · exact .inr (.inl (contains_of_mem_preorder nests isFirst))
    by_cases same : child = child'
    · subst same
      exact ih child isChild (below isChild) within within'
    · have inside := contains_of_mem_preorder (below isChild) within
      have inside' := contains_of_mem_preorder (below isChild') within'
      simp only [Span.contains, Bool.and_eq_true, decide_eq_true_eq] at inside inside'
      have apart := apart_of_pairwise (nests tree (mem_preorder_self tree)).inOrder isChild isChild'
        same
      refine .inr (.inr ?_)
      omega

/-- In a program that covers a whole text, the children of every node lie inside of it one after the
other. -/
theorem nests_of_program {tree : Node} {size : Nat} (derived : Program InPlace tokens tree)
    (ordered : Token.Ordered tokens) (inside : ∀ token ∈ tokens, token.span.stop ≤ size)
    (covers : tree.span = ⟨0, size⟩) : ∀ node ∈ tree.preorder, node.Nests := by
  intro node isPart
  obtain ⟨inner, isInfix, inTurn, whole⟩ := (derived.bounded node isPart).inTurn
  refine ⟨?_, inTurn.pairwise (ordered.inner isInfix)⟩
  intro child isChild
  obtain ⟨inner', isInfix', inPlace⟩ := inTurn.exists_inPlace child isChild
  rcases derived.occurs node isPart with rfl | occurs
  · have le := inPlace.stop_le fun token isIn => inside token (isInfix.subset (isInfix'.subset isIn))
    rw [covers]
    simpa [Span.contains, Span.stop] using le
  · rcases whole with whole | ⟨_, _, rfl⟩
    · exact whole.contains (ordered.inner isInfix) isInfix' inPlace
    · exact absurd occurs Occurs.not_module

end Node

namespace Source

/-- The spans of an accepted text are an ordered laminar family. The module covers the whole text;
the children of every node lie inside of it, each behind the one before; and every span runs between
the two tokens that the rule of its node gives it. So every token lies in the module, and any two
nodes are nested or apart. -/
theorem spans_laminar (source : Source) (tree : Node) (parsed : source.parse = .ok tree) :
    tree.span = ⟨0, source.size⟩ ∧
    ∃ tokens, source.tokenize.result = .ok (tokens ++ [source.endToken]) ∧
      (∀ node ∈ tree.preorder,
        (∀ child ∈ node.children, node.span.contains child.span = true) ∧
        node.children.Pairwise (fun first second => first.span.stop ≤ second.span.index) ∧
        node.Bounded tokens) ∧
      (∀ token ∈ tokens ++ [source.endToken], tree.span.contains token.span = true) ∧
      ∀ first ∈ tree.preorder, ∀ second ∈ tree.preorder,
        first.span.contains second.span = true ∨ second.span.contains first.span = true ∨
          first.span.stop ≤ second.span.index ∨ second.span.stop ≤ first.span.index := by
  obtain ⟨tokens, lexes, derived, covers, _, _⟩ := parse_eq_ok_iff.mp parsed
  have inside : ∀ token ∈ tokens, token.span.stop ≤ source.size :=
    (Cursor.holds_start lexes).inside
  have nests := Node.nests_of_program derived lexes.ordered inside covers
  refine ⟨covers, tokens, tokenize_eq_ok_iff.mpr ⟨tokens, lexes, rfl⟩, ?_, ?_, ?_⟩
  · intro node isPart
    exact ⟨(nests node isPart).contains, (nests node isPart).inOrder, derived.bounded node isPart⟩
  · intro token isIn
    rw [covers]
    have le : token.span.stop ≤ source.size := by
      rcases List.mem_append.mp isIn with isToken | isEnd
      · exact inside token isToken
      · rw [List.mem_singleton.mp isEnd]
        exact le_rfl
    simpa [Span.contains, Span.stop] using le
  · exact fun first isFirst second isSecond => Node.laminar_of_nests nests isFirst isSecond

/-- A block without a semicolon is a statement that ends with its brace. -/
theorem spans_laminar_block :
    ∃ tokens, (ofText [] " \x7bx\x7d 1;".toList).tokenize.result =
        .ok (tokens ++ [(ofText [] " \x7bx\x7d 1;".toList).endToken]) ∧
      (Node.exprStmt ⟨1, 3⟩ (.block ⟨1, 3⟩ [] (some (.name ⟨2, 1⟩ ['x'])))).Bounded tokens := by
  have parsed : (ofText [] " \x7bx\x7d 1;".toList).parse = .ok (.module ⟨0, 7⟩
      [.exprStmt ⟨1, 3⟩ (.block ⟨1, 3⟩ [] (some (.name ⟨2, 1⟩ ['x']))),
        .exprStmt ⟨5, 2⟩ (.integer ⟨5, 1⟩ 1)]) := by cbv
  obtain ⟨_, tokens, tokenized, places, _⟩ := spans_laminar _ _ parsed
  refine ⟨tokens, tokenized, (places _ ?_).2.2⟩
  exact Node.mem_preorder_iff.mpr (.inr ⟨_, List.mem_cons_self, Node.mem_preorder_self _⟩)

end Source

end SinosLang
