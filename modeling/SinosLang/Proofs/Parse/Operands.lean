import SinosLang.Proofs.Lexing.Lines
import SinosLang.Proofs.Lexing.ReadAs
import SinosLang.Proofs.Parse.Derivations
import SinosLang.Proofs.Parse.Heights
import SinosLang.Proofs.Text.Parts

/-!
# Operands in a text of their own

A rule of the parser that reads a whole text finds a tree of its level there, within the limits. Set
on lines of their own in a longer text, the same tokens stand for the same tree, moved to where the
text begins.

Main statements: `Consumed.operand`, what a rule has read is an operand, `Operand.forth`, it may be
moved, and `lexes_joinLines`, the tokens of texts on lines of their own.
-/

set_option autoImplicit false

namespace SinosLang

open Grammar

/-! ## Texts on lines of their own -/

/-- The tokens of some texts, each given with its tokens, where the texts stand on lines of their own
from a position on. -/
def placedTokens (position : Nat) : List (Text × List Token) → List Token
  | [] => []
  | (text, tokens) :: parts =>
    tokens.map (Token.forth position) ++ placedTokens (position + (text.length + 1)) parts

/-- Two moves of a token add up. -/
theorem Token.forth_forth (first second : Nat) :
    Token.forth second ∘ Token.forth first = Token.forth (first + second) := by
  funext token
  simp [Token.forth, Span.forth, Nat.add_assoc]

/-- Moving a token by nothing leaves it where it is. -/
theorem Token.forth_zero : Token.forth 0 = id := rfl

/-- Placed tokens that are moved are those placed further on. -/
theorem placedTokens_forth (position offset : Nat) (parts : List (Text × List Token)) :
    (placedTokens position parts).map (Token.forth offset) =
      placedTokens (position + offset) parts := by
  induction parts generalizing position with
  | nil => rfl
  | cons part parts ih =>
    obtain ⟨text, tokens⟩ := part
    rw [placedTokens, placedTokens, List.map_append, List.map_map, Token.forth_forth, ih,
      Nat.add_right_comm]

/-- Texts on lines of their own have the tokens of each, moved to where it begins. -/
theorem lexes_joinLines {parts : List (Text × List Token)}
    (lexes : ∀ part ∈ parts, Lexes 0 part.1 part.2) (filled : parts ≠ []) :
    Lexes 0 (Text.joinLines (parts.map Prod.fst)) (placedTokens 0 parts) := by
  induction parts with
  | nil => exact absurd rfl filled
  | cons part parts ih =>
    obtain ⟨text, tokens⟩ := part
    obtain ⟨first, later⟩ := List.forall_mem_cons.mp lexes
    rw [placedTokens, Token.forth_zero, List.map_id]
    cases parts with
    | nil =>
      rw [placedTokens, List.append_nil, List.map_singleton, Text.joinLines_singleton]
      exact first
    | cons next parts =>
      have line := first.line (ih later (List.cons_ne_nil _ _))
      rw [placedTokens_forth, Nat.add_comm] at line
      rw [List.map_cons, List.map_cons, Text.joinLines_cons, Nat.add_comm]
      exact line

/-- A symbol is a text of one token. -/
theorem lexes_symbol {symbol : Text} {kind : TokenKind}
    (isSymbol : (symbol, kind) ∈ TokenKind.symbols) :
    Lexes 0 symbol [⟨kind, symbol, ⟨0, symbol.length⟩⟩] := by
  have nothing : Lexes (0 + symbol.length) [] [] := .done rfl
  have lexes := nothing.spelled_append (.symbol isSymbol)
    (fun _ head => by cases head) fun _ head => by cases head
  rwa [List.append_nil] at lexes

/-! ## Operands -/

/-- Some tokens stand for a tree of a level that keeps within the limits of the language, with fewer
brackets inside each other than the given depth. -/
structure Operand (depth : Nat) (level : Level) (tokens : List Token) (tree : Node) : Prop where
  derived : Expression InPlace depth level tokens tree
  few : tree.bracketDepth ≤ 40
  low : tree.height ≤ 256

/-- An operand may be moved, and there may be more room for brackets. -/
theorem Operand.forth {depth depth' : Nat} {level : Level} {tokens : List Token} {tree : Node}
    (operand : Operand depth level tokens tree) (le : depth ≤ depth') (offset : Nat) :
    Operand depth' level (tokens.map (Token.forth offset)) (tree.forth offset) := by
  obtain ⟨moved, derived, same⟩ :=
    (carrying_moveForth offset).expression_of_le le level _ _ trivial operand.derived
  rw [Node.mapSpans_id] at same
  subst same
  refine ⟨derived, ?_, ?_⟩
  · rw [Node.forth, Node.bracketDepth_mapSpans]
    exact operand.few
  · rw [Node.forth, Node.height_mapSpans]
    exact operand.low

/-- There may be more room for brackets. -/
theorem Operand.deeper {depth depth' : Nat} {level : Level} {tokens : List Token} {tree : Node}
    (operand : Operand depth level tokens tree) (le : depth ≤ depth') :
    Operand depth' level tokens tree := by
  have still := operand.forth le 0
  rw [Token.forth_zero, List.map_id] at still
  exact Node.mapSpans_id tree ▸ still

/-- An operand has a token. -/
theorem Operand.filled {depth : Nat} {level : Level} {tokens : List Token} {tree : Node}
    (operand : Operand depth level tokens tree) : tokens ≠ [] := by
  obtain ⟨_, _, rfl, _⟩ := operand.derived.exists_head
  exact List.cons_ne_nil _ _

/-- A span over moved tokens runs from where the first one has come to where the last one has. -/
theorem Grammar.InPlace.of_forth {front back : List Token} {op : Token} {offset offset' : Nat}
    {span : Span}
    (inPlace : InPlace (front.map (Token.forth offset) ++ [op] ++ back.map (Token.forth offset')) span)
    (filled : front ≠ []) (filled' : back ≠ []) :
    ∃ first last, front.head? = some first ∧ back.getLast? = some last ∧
      span.index = first.span.index + offset ∧ span.stop = last.span.stop + offset' := by
  obtain ⟨_, _, head, tail, index_eq, stop_eq⟩ := inPlace
  obtain ⟨first, isFirst⟩ := Option.ne_none_iff_exists'.mp (mt List.head?_eq_none_iff.mp filled)
  obtain ⟨last, isLast⟩ := Option.ne_none_iff_exists'.mp (mt List.getLast?_eq_none_iff.mp filled')
  simp only [List.head?_append, List.head?_map, isFirst, Option.map_some, Option.some_or,
    Option.some.injEq] at head
  simp only [List.getLast?_append, List.getLast?_map, isLast, Option.map_some, Option.some_or,
    Option.some.injEq] at tail
  subst head tail
  refine ⟨first, last, isFirst, isLast, index_eq, ?_⟩
  rw [stop_eq]
  exact Nat.add_right_comm _ _ _

namespace Source

/-- A rule reads a whole source as a tree: run from the start it answers with the tree, and the end is
ahead. -/
def Consumed (source : Source) (rule : Parse Measured → Parse Measured) (tree : Node) : Prop :=
  let run := Parse.withBrackets Limits.standard rule (Cursor.start source)
  run.1.map Measured.node = .ok tree ∧ (Parse.current run.2).1.map Token.kind = .ok .eof

/-- What a rule of a level reads is an operand of this level. -/
theorem Consumed.operand {source : Source} {rule : Parse Measured → Parse Measured} {tree : Node}
    {level : Level} (consumed : source.Consumed rule tree)
    (sound : ∀ depth, Parse.Sound Limits.standard
      (rule (Parse.expressionWithin Limits.standard depth))
      (Derives InPlace (Expression InPlace depth .equality) level) level.Stops)
    (low : ∀ expression, Parse.Allowed Limits.standard (rule expression)) :
    ∃ depth tokens, Lexes 0 source.text tokens ∧ Operand depth level tokens tree := by
  obtain ⟨read, ends⟩ := consumed
  obtain ⟨outcome, after, run⟩ : ∃ outcome after,
      Parse.withBrackets Limits.standard rule (Cursor.start source) = (outcome, after) := ⟨_, _, rfl⟩
  rw [run] at read ends
  cases outcome with
  | error failure => cases read
  | ok result =>
    unfold Parse.withBrackets Builder.withBrackets at run
    obtain ⟨depth, _, budgeted, run⟩ := Parse.bind_eq_ok.mp run
    cases budgeted
    have allowed := low _ run
    obtain ⟨tokens, node, rfl, moves, derived, fits, next, ahead, _⟩ :=
      sound _ (Cursor.consistent_start source) run
    cases read
    have isEnd : next.kind = .eof := by
      rw [Parse.current_of_lookahead ahead] at ends
      exact Except.ok.inj ends
    have nothing : after.pending = [] := by
      unfold Cursor.pending
      rw [ahead]
      simp [isEnd]
    have pending := moves.pending_eq
    rw [nothing, List.append_nil] at pending
    have derived' :
        Expression InPlace ((Cursor.start source).upcoming.length + 2 + 1) level tokens node :=
      derived
    exact ⟨_, tokens, Cursor.pending_start_iff.mp pending, derived',
      Limits.fits_standard_iff.mp fits, Limits.standard_allows_iff.mp allowed⟩

end Source

end SinosLang
