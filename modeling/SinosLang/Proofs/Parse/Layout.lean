import SinosLang.Proofs.Parse.Abreast
import SinosLang.Proofs.Parse.FailFast

/-!
# Layout is insignificant

The parser sees of a text the kinds and the values of its tokens. White space, comments and line
breaks move the tokens, but whatever is made of them moves along: two texts with the same tokens at
other places are parsed into the same trees, or are rejected for the same fault at the same tokens.

Main statement: `parse_blind_to_layout`.
-/

set_option autoImplicit false

namespace SinosLang

/-- Two spans run from the start of the same token to the end of the same token in two lists. -/
def AtSameTokens (all all' : List Token) (span span' : Span) : Prop :=
  ∃ (i j : Nat) (first first' last last' : Token),
    all[i]? = some first ∧ all'[i]? = some first' ∧ all[j]? = some last ∧ all'[j]? = some last' ∧
    span.index = first.span.index ∧ span'.index = first'.span.index ∧
    span.stop = last.span.stop ∧ span'.stop = last'.span.stop

/-- The kind and the value of a token, without its place. -/
def Token.content (token : Token) : TokenKind × Text :=
  (token.kind, token.value)

namespace Likeness

/-- Spans are alike that start with the same token and stop with the same token of two lists. -/
def between (all all' : List Token) : Likeness where
  start index index' := ∃ (i : Nat) (token token' : Token), all[i]? = some token ∧
    all'[i]? = some token' ∧ index = token.span.index ∧ index' = token'.span.index
  stop stop stop' := ∃ (i : Nat) (token token' : Token), all[i]? = some token ∧
    all'[i]? = some token' ∧ stop = token.span.stop ∧ stop' = token'.span.stop
  view _ := Span.origin
  view' _ := Span.origin
  view_eq _ _ _ _ := rfl

variable {all all' : List Token}

/-- Spans that are alike between two lists run between the same tokens of both. -/
theorem atSameTokens {span span' : Span} (alike : (between all all').Spans span span') :
    AtSameTokens all all' span span' := by
  obtain ⟨⟨i, first, first', atFirst, atFirst', index_eq, index_eq'⟩,
    ⟨j, last, last', atLast, atLast', stop_eq, stop_eq'⟩⟩ := alike
  exact ⟨i, j, first, first', last, last', atFirst, atFirst', atLast, atLast', index_eq, index_eq',
    stop_eq, stop_eq'⟩

/-- Tokens of the same content are alike where they stand. -/
theorem forall₂_between (same : all.map Token.content = all'.map Token.content) :
    List.Forall₂ (between all all').Tokens all all' := by
  refine List.forall₂_iff_get.mpr ⟨by simpa using congrArg List.length same, ?_⟩
  intro i inside inside'
  have content : (all.get ⟨i, inside⟩).content = (all'.get ⟨i, inside'⟩).content := by
    have at_i := congrArg (fun contents => contents[i]?) same
    simpa [inside, inside'] using at_i
  have here := List.getElem?_eq_getElem inside
  have here' := List.getElem?_eq_getElem inside'
  exact ⟨congrArg Prod.fst content, congrArg Prod.snd content,
    ⟨i, _, _, here, here', rfl, rfl⟩, ⟨i, _, _, here, here', rfl, rfl⟩⟩

end Likeness

namespace Source

open Likeness (between)

variable {source source' : Source}

/-- The starts of two sources with the same tokens are abreast. -/
theorem abreast_start {tokens tokens' : List Token} (lexes : Lexes 0 source.text tokens)
    (lexes' : Lexes 0 source'.text tokens')
    (same : (tokens ++ [source.endToken]).map Token.content =
      (tokens' ++ [source'.endToken]).map Token.content) :
    Cursor.Abreast (between (tokens ++ [source.endToken]) (tokens' ++ [source'.endToken])) 0
      (Cursor.start source) (Cursor.start source') := by
  have alike := Likeness.forall₂_between same
  have length_eq : tokens.length = tokens'.length := by
    simpa using congrArg List.length same
  have front := List.forall₂_take tokens.length alike
  have last := List.forall₂_drop tokens.length alike
  rw [List.take_left, length_eq, List.take_left] at front
  rw [List.drop_left, length_eq, List.drop_left] at last
  refine ⟨.none, rfl, ?_, tokens, tokens', [], [], ?_, ?_, front, .inr ⟨rfl, rfl⟩⟩
  · exact (List.forall₂_cons.mp last).1
  · rw [List.append_nil]
    exact Cursor.pending_start_iff.mpr lexes
  · rw [List.append_nil]
    exact Cursor.pending_start_iff.mpr lexes'

/-- Layout is insignificant: of two sources with tokens of the same kinds and values, either both are
parsed, into trees that differ in their spans only, or both are rejected for the same fault. Their
diagnostics then run from the start of the same token to the end of the same token, or say of both
texts as a whole that they are nested too deeply. -/
theorem parse_blind_to_layout (source source' : Source) (all all' : List Token)
    (tokenized : source.tokenize.result = .ok all) (tokenized' : source'.tokenize.result = .ok all')
    (same : all.map Token.content = all'.map Token.content) :
    (∃ tree tree', source.parse = .ok tree ∧ source'.parse = .ok tree' ∧
      tree.erase = tree'.erase) ∨
    ∃ fault span span', source.parse = .error (.diagnostic ⟨fault, span⟩) ∧
      source'.parse = .error (.diagnostic ⟨fault, span'⟩) ∧
      (AtSameTokens all all' span span' ∨
        fault = .tooDeep ∧ span = ⟨0, source.size⟩ ∧ span' = ⟨0, source'.size⟩) := by
  obtain ⟨tokens, lexes, rfl⟩ := tokenize_eq_ok_iff.mp tokenized
  obtain ⟨tokens', lexes', rfl⟩ := tokenize_eq_ok_iff.mp tokenized'
  have lenient : Parse.Lenient (fun failure => ∀ d, failure ≠ .diagnostic d) Limits.standard
      Limits.standard := ⟨fun _ noDiagnostic => noDiagnostic, .inl rfl⟩
  have keeps := (Parse.alongside_simulation (fun isCut => absurd isCut (Nat.lt_irrefl 0))
    lenient).allStatements.keeps (abreast_start lexes lexes' same)
  unfold parse parseWithin
  generalize run : Parse.allStatements Limits.standard (Cursor.start source) = ended at keeps
  generalize run' : Parse.allStatements Limits.standard (Cursor.start source') = ended' at keeps
  cases keeps with
  | past reached => exact absurd reached (Nat.not_lt_zero _)
  | excused noDiagnostic =>
    exact absurd ⟨_, rfl, noDiagnostic⟩ (not_broken_parse (Parse.program_of_failure run))
  | broken noDiagnostic =>
    exact absurd ⟨_, rfl, noDiagnostic⟩ (not_broken_parse (Parse.program_of_failure run'))
  | @rejects fault span span' _ _ spans =>
    rw [Parse.program_of_failure run, Parse.program_of_failure run']
    exact .inr ⟨fault, span, span', rfl, rfl, .inl (Likeness.atSameTokens spans)⟩
  | @answers results results' _ _ alike =>
    rw [Parse.program_of_allStatements (Cursor.consistent_start _) run,
      Parse.program_of_allStatements (Cursor.consistent_start _) run']
    simp only [Parse.build]
    rw [← Likeness.map_height alike]
    split
    · refine .inl ⟨_, _, rfl, rfl, ?_⟩
      simp only [Node.erase, Node.mapSpans, Node.mapSpansAll_eq_map]
      exact congrArg (Node.module Span.origin) (Likeness.map_node alike)
    · exact .inr ⟨.tooDeep, _, _, rfl, rfl, .inr ⟨rfl, rfl, rfl⟩⟩

/-- A comment and a line break between an operator and its operand move the operand only. -/
theorem parse_blind_to_layout_comment :
    ∃ tree tree', (ofText [] "-x;".toList).parse = .ok tree ∧
      (ofText [] " - // minus\n x ;".toList).parse = .ok tree' ∧ tree.erase = tree'.erase := by
  have tokenized : (ofText [] "-x;".toList).tokenize.result = .ok
      [⟨.sub, ['-'], ⟨0, 1⟩⟩, ⟨.ident, ['x'], ⟨1, 1⟩⟩, ⟨.semi, [';'], ⟨2, 1⟩⟩,
        ⟨.eof, [], ⟨3, 0⟩⟩] := by cbv
  have tokenized' : (ofText [] " - // minus\n x ;".toList).tokenize.result = .ok
      [⟨.sub, ['-'], ⟨1, 1⟩⟩, ⟨.ident, ['x'], ⟨13, 1⟩⟩, ⟨.semi, [';'], ⟨15, 1⟩⟩,
        ⟨.eof, [], ⟨16, 0⟩⟩] := by cbv
  have accepted : (ofText [] "-x;".toList).parse = .ok (.module ⟨0, 3⟩ [.exprStmt ⟨0, 3⟩
      (.unary ⟨0, 2⟩ ['-'] (.name ⟨1, 1⟩ ['x']))]) := by cbv
  rcases parse_blind_to_layout _ _ _ _ tokenized tokenized' rfl with
    both | ⟨_, _, _, rejected, _⟩
  · exact both
  · rw [accepted] at rejected
    cases rejected

end Source

end SinosLang
