import SinosLang.Proofs.Grammar.Rules
import SinosLang.Proofs.Lexing.Lexes

/-!
# Carrying derivations over

The grammar looks at the kinds and the values of tokens, never at their spans. A derivation can
therefore be carried over to tokens with other spans and to another placement, as long as the new
placement allows a span for every yield.

Main statement: if every span of the old placement has a counterpart in the new one, so has every
statement, every expression and every program: a tree of the same shape with counterparts for
spans.
-/

set_option autoImplicit false

namespace SinosLang.Grammar

/-- What it takes to carry derivations over: the tokens are changed in their spans only, and a span
of the old placement has a counterpart in the new one, namely one with the same image. The yields in
question are among the good ones, with which all their parts are good. -/
structure Carrying (placed placed' : Placement) (good : List Token → Prop) (f : Token → Token)
    (g g' : Span → Span) : Prop where
  kind_eq : ∀ token, (f token).kind = token.kind
  value_eq : ∀ token, (f token).value = token.value
  good_left : ∀ left right : List Token, good (left ++ right) → good left
  good_right : ∀ left right : List Token, good (left ++ right) → good right
  place : ∀ (tokens : List Token) (span : Span), good tokens → tokens ≠ [] → placed tokens span →
    ∃ span', placed' (tokens.map f) span' ∧ g' span' = g span

/-- One phrase is carried over into another: its trees have counterparts there. -/
def Carries (good : List Token → Prop) (f : Token → Token) (g g' : Span → Span)
    (phrase phrase' : Phrase) : Prop :=
  ∀ (tokens : List Token) (node : Node), good tokens → phrase tokens node →
    ∃ node', phrase' (tokens.map f) node' ∧ node'.mapSpans g' = node.mapSpans g

namespace Carrying

variable {placed placed' : Placement} {good : List Token → Prop} {f : Token → Token}
  {g g' : Span → Span} (carry : Carrying placed placed' good f g g')
include carry

/-- A token that is carried over keeps its kind. -/
theorem kind_f {token : Token} {kind : TokenKind} (h : token.kind = kind) : (f token).kind = kind :=
  (carry.kind_eq token).trans h

/-- What comes next is of the same kind after the tokens are carried over. -/
theorem nextKind_map (tokens : List Token) (behind : TokenKind) :
    nextKind (tokens.map f) behind = nextKind tokens behind := by
  cases tokens with
  | nil => rfl
  | cons token tokens => simp [nextKind, carry.kind_eq]

/-- A type annotation is carried over into one of the same type. -/
theorem typePart {tokens : List Token} {type? : Option Text} (h : TypePart tokens type?) :
    TypePart (tokens.map f) type? := by
  cases h with
  | absent => exact .absent
  | @present colon type isColon isName =>
    rw [← carry.value_eq type]
    exact .present (carry.kind_f isColon) (carry.kind_f isName)

section Inside

variable {expr expr' : Phrase} (filled : ∀ tokens node, expr tokens node → tokens ≠ [])
  (inner : Carries good f g g' expr expr')
include filled inner

/-- Statements are carried over if the expressions in them are. -/
theorem statement (inside : Bool) (next : TokenKind) :
    Carries good f g g' (Statement placed expr inside next)
      (Statement placed' expr' inside next) := by
  intro tokens node ok h
  cases h with
  | @binding keyword name assign semi typeTokens valueTokens type? value span isLet isName type
      isAssign derived isSemi allowed =>
    obtain ⟨span', allowed', sameSpan⟩ := carry.place _ _ ok (by simp) allowed
    have okMiddle := carry.good_right _ _ (carry.good_left _ _ ok)
    have okValue := carry.good_right [assign] _ (carry.good_right (name :: typeTokens) _ okMiddle)
    obtain ⟨value', derived', sameValue⟩ := inner _ _ okValue derived
    refine ⟨.letStmt span' name.value type? value', ?_, ?_⟩
    · simp only [List.map_append, List.map_cons, List.map_nil] at allowed' ⊢
      rw [← carry.value_eq name]
      exact .binding (carry.kind_f isLet) (carry.kind_f isName) (carry.typePart type)
        (carry.kind_f isAssign) derived' (carry.kind_f isSemi) allowed'
    · simp only [Node.mapSpans, sameSpan, sameValue]
  | terminated derived isSemi allowed =>
    obtain ⟨span', allowed', sameSpan⟩ := carry.place _ _ ok (by simp) allowed
    obtain ⟨node', derived', sameNode⟩ := inner _ _ (carry.good_left _ _ ok) derived
    refine ⟨.exprStmt span' node', ?_, ?_⟩
    · simp only [List.map_append, List.map_cons, List.map_nil] at allowed' ⊢
      exact .terminated derived' (carry.kind_f isSemi) allowed'
    · simp only [Node.mapSpans, sameSpan, sameNode]
  | standing derived isBlock notSemi notBinary notBrace allowed =>
    obtain ⟨span', allowed', sameSpan⟩ := carry.place _ _ ok (filled _ _ derived) allowed
    obtain ⟨node', derived', sameNode⟩ := inner _ _ ok derived
    have isBlock' : node'.isBlock = true := by
      rw [← Node.isBlock_mapSpans g' node', sameNode, Node.isBlock_mapSpans, isBlock]
    refine ⟨.exprStmt span' node', ?_, ?_⟩
    · exact .standing derived' isBlock' notSemi notBinary notBrace allowed'
    · simp only [Node.mapSpans, sameSpan, sameNode]

/-- Statements in a row are carried over, each to its counterpart. -/
theorem statements {inside : Bool} {behind : TokenKind} {tokens : List Token} {stmts : List Node}
    (ok : good tokens) (h : Statements placed expr inside behind tokens stmts) :
    ∃ stmts', Statements placed' expr' inside behind (tokens.map f) stmts' ∧
      stmts'.map (Node.mapSpans g') = stmts.map (Node.mapSpans g) := by
  induction h with
  | nil => exact ⟨[], .nil, rfl⟩
  | @cons first rest stmt stmts derived _ ih =>
    obtain ⟨stmt', derived', sameStmt⟩ :=
      carry.statement filled inner inside _ _ _ (carry.good_left _ _ ok) derived
    obtain ⟨stmts', rest', sameRest⟩ := ih (carry.good_right _ _ ok)
    refine ⟨stmt' :: stmts', ?_, ?_⟩
    · rw [List.map_append]
      rw [← carry.nextKind_map] at derived'
      exact .cons derived' rest'
    · rw [List.map_cons, List.map_cons, sameStmt, sameRest]

omit carry filled in
/-- What a block ends with is carried over. -/
theorem ending {tokens : List Token} {last? : Option Node} (ok : good tokens)
    (h : Ending expr tokens last?) :
    ∃ last'?, Ending expr' (tokens.map f) last'? ∧
      last'?.map (Node.mapSpans g') = last?.map (Node.mapSpans g) := by
  cases h with
  | absent => exact ⟨none, .absent, rfl⟩
  | present derived =>
    obtain ⟨node', derived', sameNode⟩ := inner _ _ ok derived
    exact ⟨some node', .present derived', congrArg some sameNode⟩

/-- Primary expressions are carried over if the expressions in them are. -/
theorem primary :
    Carries good f g g' (Primary placed expr) (Primary placed' expr') := by
  intro tokens node ok h
  have filledOut : tokens ≠ [] := by
    obtain ⟨_, _, rfl, _⟩ := h.exists_head
    exact List.cons_ne_nil _ _
  obtain ⟨span', allowed', sameSpan⟩ := carry.place _ _ ok filledOut h.placed_span
  cases h with
  | @integer token span isKind _ =>
    refine ⟨.integer span' (Text.toNat (f token).value), ?_, ?_⟩
    · exact .integer (carry.kind_f isKind) allowed'
    · rw [carry.value_eq, Node.mapSpans, Node.mapSpans, sameSpan, Node.span]
  | @float token span isKind _ =>
    refine ⟨.float span' (Binary64.ofLiteral (f token).value), ?_, ?_⟩
    · exact .float (carry.kind_f isKind) allowed'
    · rw [carry.value_eq, Node.mapSpans, Node.mapSpans, sameSpan, Node.span]
  | @boolean token span isKind _ =>
    refine ⟨.boolean span' ((f token).value == "true".toList), ?_, ?_⟩
    · exact .boolean (carry.kind_f isKind) allowed'
    · rw [carry.value_eq, Node.mapSpans, Node.mapSpans, sameSpan, Node.span]
  | @string token span isKind _ =>
    refine ⟨.string span' (f token).value, ?_, ?_⟩
    · exact .string (carry.kind_f isKind) allowed'
    · rw [carry.value_eq, Node.mapSpans, Node.mapSpans, sameSpan, Node.span]
  | @name token span isKind _ =>
    refine ⟨.name span' (f token).value, ?_, ?_⟩
    · exact .name (carry.kind_f isKind) allowed'
    · rw [carry.value_eq, Node.mapSpans, Node.mapSpans, sameSpan, Node.span]
  | @group opening closing tokens node span isOpening derived isClosing _ =>
    have okInner := carry.good_right _ _ (carry.good_left _ _ ok)
    obtain ⟨node', derived', sameNode⟩ := inner _ _ okInner derived
    refine ⟨.group span' node', ?_, ?_⟩
    · simp only [List.map_append, List.map_cons, List.map_nil] at allowed' ⊢
      exact .group (carry.kind_f isOpening) derived' (carry.kind_f isClosing) allowed'
    · rw [Node.mapSpans, Node.mapSpans, sameSpan, sameNode, Node.span]
  | @block opening closing stmtTokens lastTokens stmts last? span isOpening derived last isClosing
      _ =>
    have okInner := carry.good_right _ _ (carry.good_left _ _ ok)
    obtain ⟨stmts', derived', sameStmts⟩ :=
      carry.statements filled inner (carry.good_left _ _ okInner) derived
    obtain ⟨last'?, ending', sameLast⟩ := ending inner (carry.good_right _ _ okInner) last
    rw [← carry.nextKind_map] at derived'
    refine ⟨.block span' stmts' last'?, ?_, ?_⟩
    · simp only [List.map_append, List.map_cons, List.map_nil] at allowed' ⊢
      exact .block (carry.kind_f isOpening) derived' ending' (carry.kind_f isClosing) allowed'
    · simp only [Node.mapSpans, Node.mapSpansAll_eq_map, Node.mapSpansOption_eq_map, sameStmts,
        sameLast, sameSpan, Node.span]

/-- Expressions of every level are carried over if the expressions nested in them are. -/
theorem derives (level : Level) :
    Carries good f g g' (Derives placed expr level) (Derives placed' expr' level) := by
  intro tokens node ok h
  induction h with
  | primary derived =>
    obtain ⟨node', derived', same⟩ := carry.primary filled inner _ _ ok derived
    exact ⟨node', .primary derived', same⟩
  | @unary op tokens operand span isPrefix _ allowed ih =>
    obtain ⟨span', allowed', sameSpan⟩ := carry.place _ _ ok (List.cons_ne_nil _ _) allowed
    obtain ⟨operand', derived', sameOperand⟩ := ih (carry.good_right [op] _ ok)
    refine ⟨.unary span' (f op).value operand', ?_, ?_⟩
    · rw [List.map_cons] at allowed' ⊢
      exact .unary ((carry.kind_eq op).symm ▸ isPrefix) derived' allowed'
    · rw [carry.value_eq, Node.mapSpans, Node.mapSpans, sameSpan, sameOperand]
  | @binary level leftTokens rightTokens op left right span _ isOperator _ allowed ihLeft ihRight =>
    obtain ⟨span', allowed', sameSpan⟩ := carry.place _ _ ok (by simp) allowed
    obtain ⟨left', leftDerived, sameLeft⟩ := ihLeft (carry.good_left _ _ (carry.good_left _ _ ok))
    obtain ⟨right', rightDerived, sameRight⟩ := ihRight (carry.good_right _ _ ok)
    refine ⟨.binary span' (f op).value left' right', ?_, ?_⟩
    · simp only [List.map_append, List.map_cons, List.map_nil] at allowed' ⊢
      exact .binary leftDerived ((carry.kind_eq op).symm ▸ isOperator) rightDerived allowed'
    · rw [carry.value_eq, Node.mapSpans, Node.mapSpans, sameSpan, sameLeft, sameRight]
  | operand notPrimary _ ih =>
    obtain ⟨node', derived', same⟩ := ih ok
    exact ⟨node', .operand notPrimary derived', same⟩

end Inside

/-- Every expression has a counterpart, also among those with room for more nested brackets. -/
theorem expression_of_le {depth depth' : Nat} (le : depth ≤ depth') (level : Level) :
    Carries good f g g' (Expression placed depth level) (Expression placed' depth' level) := by
  induction depth generalizing depth' level with
  | zero =>
    intro tokens node _ h
    exact h.elim
  | succ depth ih =>
    obtain ⟨depth', rfl⟩ : ∃ fewer, depth' = fewer + 1 := ⟨depth' - 1, by omega⟩
    intro tokens node ok h
    exact carry.derives (fun _ _ derived => derived.ne_nil) (ih (Nat.le_of_succ_le_succ le) .equality)
      level _ _ ok h

/-- Expressions of every depth and level are carried over. -/
theorem expression (depth : Nat) (level : Level) :
    Carries good f g g' (Expression placed depth level) (Expression placed' depth level) :=
  carry.expression_of_le le_rfl level

/-- Every program has a counterpart, whatever the span of its root. -/
theorem program {tokens : List Token} {span : Span} {stmts : List Node} (span' : Span)
    (ok : good tokens) (h : Program placed tokens (.module span stmts)) :
    ∃ stmts', Program placed' (tokens.map f) (.module span' stmts') ∧
      stmts'.map (Node.mapSpans g') = stmts.map (Node.mapSpans g) := by
  obtain ⟨depth, _, _, shape, derived⟩ := h
  cases shape
  obtain ⟨stmts', derived', same⟩ :=
    carry.statements (fun _ _ inner => inner.ne_nil) (carry.expression depth .equality) ok derived
  exact ⟨stmts', ⟨depth, span', stmts', rfl, derived'⟩, same⟩

end Carrying

/-- A tree is its own counterpart. -/
theorem carrying_self (placed : Placement) :
    Carrying placed placed (fun _ => True) id id id where
  kind_eq _ := rfl
  value_eq _ := rfl
  good_left _ _ _ := trivial
  good_right _ _ _ := trivial
  place tokens span _ _ allowed := by
    rw [List.map_id]
    exact ⟨span, allowed, rfl⟩

/-- The token with the empty span at the start. -/
def flatten (token : Token) : Token :=
  { token with span := Span.origin }

/-- The first of some tokens in order starts before the last one ends. -/
theorem index_le_stop_of_ordered {tokens : List Token} (ordered : Token.Ordered tokens)
    {first last : Token} (head : tokens.head? = some first) (tail : tokens.getLast? = some last) :
    first.span.index ≤ last.span.stop := by
  match tokens, head with
  | [token], rfl =>
    cases tail
    exact Nat.le_add_right _ _
  | token :: next :: rest, rfl =>
    have isLater : last ∈ next :: rest := by
      rw [List.getLast?_cons_cons] at tail
      exact List.mem_of_getLast? tail
    have before : token.span.stop ≤ last.span.index := (List.pairwise_cons.mp ordered).1 last isLater
    exact (Nat.le_add_right _ _).trans (before.trans (Nat.le_add_right _ _))

/-- Tokens in order have a span in place. -/
theorem exists_inPlace_of_ordered {tokens : List Token} (ordered : Token.Ordered tokens)
    (filled : tokens ≠ []) : ∃ span, InPlace tokens span := by
  obtain ⟨first, head⟩ := Option.ne_none_iff_exists'.mp (mt List.head?_eq_none_iff.mp filled)
  obtain ⟨last, tail⟩ := Option.ne_none_iff_exists'.mp (mt List.getLast?_eq_none_iff.mp filled)
  have le := index_le_stop_of_ordered ordered head tail
  refine ⟨⟨first.span.index, last.span.stop - first.span.index⟩, first, last, head, tail, rfl, ?_⟩
  exact Nat.add_sub_of_le le

/-- Trees without spans are put in place. -/
theorem carrying_plain_inPlace :
    Carrying Plain InPlace Token.Ordered id (fun _ => Span.origin) (fun _ => Span.origin) where
  kind_eq _ := rfl
  value_eq _ := rfl
  good_left _ _ ordered := (List.pairwise_append.mp ordered).1
  good_right _ _ ordered := (List.pairwise_append.mp ordered).2.1
  place tokens span ordered filled _ := by
    obtain ⟨span', inPlace⟩ := exists_inPlace_of_ordered ordered filled
    rw [List.map_id]
    exact ⟨span', inPlace, rfl⟩

/-- Trees in place lose their spans. -/
theorem carrying_inPlace_plain :
    Carrying InPlace Plain (fun _ => True) id (fun _ => Span.origin) id where
  kind_eq _ := rfl
  value_eq _ := rfl
  good_left _ _ _ := trivial
  good_right _ _ _ := trivial
  place _ _ _ _ _ := ⟨Span.origin, rfl, rfl⟩

/-- Trees without spans are in place if all tokens stand at the start. -/
theorem carrying_plain_flat : Carrying Plain InPlace (fun _ => True) flatten id id where
  kind_eq _ := rfl
  value_eq _ := rfl
  good_left _ _ _ := trivial
  good_right _ _ _ := trivial
  place tokens span _ filled allowed := by
    obtain ⟨first, head⟩ := Option.ne_none_iff_exists'.mp (mt List.head?_eq_none_iff.mp filled)
    obtain ⟨last, tail⟩ := Option.ne_none_iff_exists'.mp (mt List.getLast?_eq_none_iff.mp filled)
    refine ⟨span, ⟨flatten first, flatten last, ?_, ?_, ?_, ?_⟩, rfl⟩
    · rw [List.head?_map, head, Option.map_some]
    · rw [List.getLast?_map, tail, Option.map_some]
    · rw [show span = Span.origin from allowed]
      rfl
    · rw [show span = Span.origin from allowed]
      rfl

/-- Trees in place stay in place when they are moved together with their tokens. -/
theorem carrying_moveBack (offset : Nat) :
    Carrying InPlace InPlace (fun tokens => ∀ token ∈ tokens, offset ≤ token.span.index)
      (Token.back offset) (Span.back offset) id where
  kind_eq _ := rfl
  value_eq _ := rfl
  good_left _ _ behind token isIn := behind token (List.mem_append_left _ isIn)
  good_right _ _ behind token isIn := behind token (List.mem_append_right _ isIn)
  place tokens span behind filled inPlace := by
    obtain ⟨first, last, head, tail, index_eq, stop_eq⟩ := inPlace
    have firstBehind := behind first (List.mem_of_head? head)
    have lastBehind := behind last (List.mem_of_getLast? tail)
    refine ⟨span.back offset, ⟨Token.back offset first, Token.back offset last, ?_, ?_, ?_, ?_⟩, rfl⟩
    · rw [List.head?_map, head, Option.map_some]
    · rw [List.getLast?_map, tail, Option.map_some]
    · show span.index - offset = first.span.index - offset
      rw [index_eq]
    · simp only [Span.stop, Span.back, Token.back] at stop_eq ⊢
      omega

/-- Trees in place can also be moved away from the start. -/
theorem carrying_moveForth (offset : Nat) :
    Carrying InPlace InPlace (fun _ => True) (Token.forth offset) (Span.forth offset) id where
  kind_eq _ := rfl
  value_eq _ := rfl
  good_left _ _ _ := trivial
  good_right _ _ _ := trivial
  place tokens span _ _ inPlace := by
    obtain ⟨first, last, head, tail, index_eq, stop_eq⟩ := inPlace
    refine ⟨span.forth offset, ⟨Token.forth offset first, Token.forth offset last, ?_, ?_, ?_, ?_⟩,
      rfl⟩
    · rw [List.head?_map, head, Option.map_some]
    · rw [List.getLast?_map, tail, Option.map_some]
    · show span.index + offset = first.span.index + offset
      rw [index_eq]
    · simp only [Span.stop, Span.forth, Token.forth] at stop_eq ⊢
      omega

end SinosLang.Grammar
