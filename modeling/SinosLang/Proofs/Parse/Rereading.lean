import SinosLang.Proofs.Grammar.Parts
import SinosLang.Proofs.Parse.Derivations

/-!
# Reading a node again from its own span

The span of a node runs from the first to the last of the tokens that it stands for, so the text that
the span covers consists of these tokens, moved to the start. They stand for the same node, moved as
far, whatever stood around them in the source.

Main statement: `reread_of_mem_preorder`, every statement and every expression of a parsed tree is
parsed again from the text of its span.
-/

set_option autoImplicit false

namespace SinosLang

open Grammar

/-- The first of some tokens in order starts before all of them. -/
theorem Token.Ordered.index_le {tokens : List Token} {first : Token} (ordered : Ordered tokens)
    (head : tokens.head? = some first) : ∀ token ∈ tokens, first.span.index ≤ token.span.index := by
  obtain ⟨rest, rfl⟩ := List.head?_eq_some_iff.mp head
  intro token isIn
  rcases List.mem_cons.mp isIn with rfl | later
  · exact le_rfl
  · exact (Nat.le_add_right _ _).trans ((List.pairwise_cons.mp ordered).1 token later)

/-- What stands for a node has tokens, and the span of the node is in place. -/
theorem Grammar.Stands.exists_inPlace {tokens : List Token} {node : Node}
    (stands : Stands InPlace tokens node) :
    ∃ before inner after depth, tokens = before ++ inner ++ after ∧ InPlace inner node.span ∧
      (Expression InPlace depth .equality inner node ∨
        Statement InPlace (Expression InPlace depth .equality) false .eof inner node) := by
  obtain ⟨before, inner, after, depth, split, derived⟩ := stands
  refine ⟨before, inner, after, depth, split, ?_, derived⟩
  rcases derived with expression | statement
  · exact expression.placed_span
  · exact statement.placed_span

/-- Nothing inside of a node that stands in tokens in order starts before the node. -/
theorem Grammar.Stands.index_le {tokens : List Token} {node part : Node}
    (stands : Stands InPlace tokens node) (ordered : Token.Ordered tokens)
    (isPart : part ∈ node.preorder) : node.span.index ≤ part.span.index := by
  obtain ⟨before, inner, after, depth, rfl, inPlace, derived⟩ := stands.exists_inPlace
  have within : Stands InPlace inner part := by
    rcases derived with expression | statement
    · exact expression.stands part isPart
    · exact statement.stands part isPart
  obtain ⟨before', inner', after', _, rfl, inPlace', _⟩ := within.exists_inPlace
  obtain ⟨first, _, head, _, index_eq, _⟩ := inPlace
  obtain ⟨first', _, head', _, index_eq', _⟩ := inPlace'
  have orderedInner := (List.pairwise_append.mp (List.pairwise_append.mp ordered).1).2.1
  rw [index_eq, index_eq']
  exact Token.Ordered.index_le orderedInner head first'
    (List.mem_append_left _ (List.mem_append_right _ (List.mem_of_head? head')))

namespace Source

variable {source : Source} {tokens before inner after : List Token} {part : Node}

/-- The text of a span consists of the tokens in whose place it is, moved to the start. -/
theorem lexes_slice {span : Span} (lexes : Lexes 0 source.text (before ++ inner ++ after))
    (inPlace : InPlace inner span) :
    Lexes 0 (source.slice span) (inner.map (Token.back span.index)) := by
  obtain ⟨first, last, head, tail, index_eq, stop_eq⟩ := inPlace
  rw [index_eq]
  unfold slice
  rw [index_eq]
  exact lexes.slice head tail (index_eq ▸ stop_eq)

/-- A span in place lies inside the source, so its text is as long as the span. -/
theorem length_slice {span : Span} (lexes : Lexes 0 source.text (before ++ inner ++ after))
    (inPlace : InPlace inner span) : (source.slice span).length = span.length := by
  obtain ⟨_, last, _, tail, _, stop_eq⟩ := inPlace
  have isIn : last ∈ before ++ inner ++ after :=
    List.mem_append_left _ (List.mem_append_right _ (List.mem_of_getLast? tail))
  have inside := (lexes.inside last isIn).2
  rw [slice, List.length_take, List.length_drop]
  rw [← stop_eq, Nat.zero_add, Span.stop] at inside
  omega

/-- Tokens in order do not start before a span that is in their place. -/
theorem index_le_of_inPlace {span : Span} (lexes : Lexes 0 source.text (before ++ inner ++ after))
    (inPlace : InPlace inner span) : ∀ token ∈ inner, span.index ≤ token.span.index := by
  obtain ⟨first, _, head, _, index_eq, _⟩ := inPlace
  rw [index_eq]
  exact Token.Ordered.index_le
    (List.pairwise_append.mp (List.pairwise_append.mp lexes.ordered).1).2.1 head

/-- A statement is a program of its own. -/
theorem parse_slice_statement {depth : Nat} (name : Text)
    (lexes : Lexes 0 source.text (before ++ inner ++ after))
    (derived : Statement InPlace (Expression InPlace depth .equality) false .eof inner part)
    (few : part.bracketDepth ≤ 40) (low : part.height + 1 ≤ 256) :
    (ofText name (source.slice part.span)).parse =
      .ok (.module ⟨0, part.span.length⟩ [part.back part.span.index]) := by
  have inPlace := derived.placed_span
  obtain ⟨moved, derived', same⟩ := (carrying_moveBack part.span.index).statement
    (fun _ _ value => value.ne_nil) ((carrying_moveBack part.span.index).expression depth .equality)
    false .eof inner part (index_le_of_inPlace lexes inPlace) derived
  obtain rfl : moved = part.back part.span.index := by
    rw [← Node.mapSpans_id moved, same]
    rfl
  refine parse_eq_ok_iff.mpr ⟨_, lexes_slice lexes inPlace, ?_, ?_, ?_, ?_⟩
  · refine ⟨depth, _, _, rfl, ?_⟩
    have single : Statements InPlace (Expression InPlace depth .equality) false .eof
        (inner.map (Token.back part.span.index) ++ []) [part.back part.span.index] :=
      .cons derived' .nil
    rwa [List.append_nil] at single
  · rw [ofText_size, length_slice lexes inPlace]
    rfl
  · rw [Limits.bracketDepth_eq_of_not_bracket rfl]
    simpa [Node.children, Node.back] using few
  · rw [Node.height_eq]
    simpa [Node.children, Node.back] using low

/-- An expression is parsed up to the end. -/
theorem expression_slice {depth : Nat} (name : Text)
    (lexes : Lexes 0 source.text (before ++ inner ++ after))
    (derived : Expression InPlace depth .equality inner part)
    (few : part.bracketDepth ≤ 40) (low : part.height ≤ 256) :
    ∃ after finish, Parse.expression Limits.standard
        (Cursor.start (ofText name (source.slice part.span))) =
          (.ok (part.back part.span.index).measured, after) ∧
        after.lookahead = some finish ∧ finish.kind = .eof := by
  have inPlace := derived.placed_span
  obtain ⟨moved, derived', same⟩ := (carrying_moveBack part.span.index).expression depth .equality
    inner part (index_le_of_inPlace lexes inPlace) derived
  obtain rfl : moved = part.back part.span.index := by
    rw [← Node.mapSpans_id moved, same]
    rfl
  have holds : (Cursor.start (ofText name (source.slice part.span))).Holds
      (inner.map (Token.back part.span.index) ++ []) := by
    rw [List.append_nil]
    exact Cursor.holds_start (lexes_slice lexes inPlace)
  obtain ⟨final, run, reaches⟩ := Parse.exists_expression holds derived' (by decide)
    (Limits.fits_standard_iff.mpr (by simpa [Node.back] using few))
    (Limits.standard_allows_iff.mpr (by simpa [Node.back] using low))
  obtain ⟨finish, sees⟩ := reaches.sees
  exact ⟨final, finish, run, sees, reaches.holds.lookahead_kind sees⟩

/-- Every statement and every expression of a parsed tree is parsed again from the text that its
span covers: a statement as a program of its own, an expression up to the end. It is then found
moved to the start, as far as its own span is away from it; nothing inside of it lies before it. -/
theorem reread_of_mem_preorder {tree : Node} (parsed : source.parse = .ok tree)
    (isPart : part ∈ tree.preorder) (name : Text) :
    (part.isStatement = true →
      (ofText name (source.slice part.span)).parse =
        .ok (.module ⟨0, part.span.length⟩ [part.back part.span.index])) ∧
    (part.isExpression = true →
      ∃ after finish, Parse.expression Limits.standard
          (Cursor.start (ofText name (source.slice part.span))) =
            (.ok (part.back part.span.index).measured, after) ∧
          after.lookahead = some finish ∧ finish.kind = .eof) ∧
    ∀ inner ∈ part.preorder, part.span.index ≤ inner.span.index := by
  obtain ⟨tokens, lexes, derived, covers, few, low⟩ := parse_eq_ok_iff.mp parsed
  have few' := (Node.bracketDepth_le_of_mem_preorder isPart).trans few
  have low' := (Node.height_le_of_mem_preorder isPart).trans low
  rcases derived.stands part isPart with isRoot | stands
  · obtain ⟨_, span, stmts, rfl, _⟩ := derived
    subst isRoot
    refine ⟨(fun isStatement => by cases isStatement), (fun isExpression => by cases isExpression),
      fun inner _ => ?_⟩
    rw [covers]
    exact Nat.zero_le _
  · refine ⟨fun isStatement => ?_, fun isExpression => ?_,
      fun inner isInner => stands.index_le lexes.ordered isInner⟩
    · obtain ⟨before, inner, after, depth, rfl, derived' | derived'⟩ := stands
      · have := derived'.isExpression
        rw [Node.isExpression_of_isStatement isStatement] at this
        cases this
      · refine parse_slice_statement name lexes derived' few' ?_
        -- a statement is not the root, so it is less tall
        rcases Node.mem_preorder_iff.mp isPart with rfl | ⟨child, isChild, within⟩
        · obtain ⟨_, _, _, rfl, _⟩ := derived
          cases isStatement
        · have := Node.height_le_of_mem_preorder within
          have := Node.height_lt_of_mem_children isChild
          omega
    · obtain ⟨before, inner, after, depth, rfl, derived' | derived'⟩ := stands
      · exact expression_slice name lexes derived' few' low'
      · rw [Node.isExpression_of_isStatement derived'.isStatement] at isExpression
        cases isExpression

/-- The second statement of a text, and the left operand in it. -/
theorem reread_second_statement :
    (ofText [] "a-b-c;".toList).parse = .ok (.module ⟨0, 6⟩ [.exprStmt ⟨0, 6⟩
      (.binary ⟨0, 5⟩ ['-'] (.binary ⟨0, 3⟩ ['-'] (.name ⟨0, 1⟩ ['a']) (.name ⟨2, 1⟩ ['b']))
        (.name ⟨4, 1⟩ ['c']))]) ∧
    ∃ after finish, Parse.expression Limits.standard (Cursor.start (ofText [] "a-b".toList)) =
        (.ok (Node.binary ⟨0, 3⟩ ['-'] (.name ⟨0, 1⟩ ['a']) (.name ⟨2, 1⟩ ['b'])).measured, after) ∧
      after.lookahead = some finish ∧ finish.kind = .eof := by
  have parsed : (ofText [] "x; a-b-c;".toList).parse = .ok (.module ⟨0, 9⟩
      [.exprStmt ⟨0, 2⟩ (.name ⟨0, 1⟩ ['x']),
        .exprStmt ⟨3, 6⟩ (.binary ⟨3, 5⟩ ['-']
          (.binary ⟨3, 3⟩ ['-'] (.name ⟨3, 1⟩ ['a']) (.name ⟨5, 1⟩ ['b']))
          (.name ⟨7, 1⟩ ['c']))]) := by cbv
  have statement := @reread_of_mem_preorder _ (.exprStmt ⟨3, 6⟩ (.binary ⟨3, 5⟩ ['-']
      (.binary ⟨3, 3⟩ ['-'] (.name ⟨3, 1⟩ ['a']) (.name ⟨5, 1⟩ ['b'])) (.name ⟨7, 1⟩ ['c'])))
    _ parsed (by simp [Node.preorder_eq, Node.children]) []
  have operand := @reread_of_mem_preorder _
    (.binary ⟨3, 3⟩ ['-'] (.name ⟨3, 1⟩ ['a']) (.name ⟨5, 1⟩ ['b']))
    _ parsed (by simp [Node.preorder_eq, Node.children]) []
  exact ⟨statement.1 rfl, operand.2.1 rfl⟩

end Source

end SinosLang
