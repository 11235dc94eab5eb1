import SinosLang.Proofs.Grammar.Carrying
import SinosLang.Proofs.Lexing.Readings
import SinosLang.Proofs.Parse.Completeness
import Mathlib

/-!
# The parser decides the grammar

Soundness and completeness are put together here, and with the lexer in front they characterise the
texts that are accepted: those that consist of the tokens of a program which keeps within the limits.
The tree that is answered is the one with every span in place. Since the parser answers with every
tree that a list of tokens may stand for, there is only one of them.

Main statements: `parse_eq_ok_iff` for the trees with their spans,
`parse_decides_grammar` for the shapes of trees, and `Program.unique`.
-/

set_option autoImplicit false

namespace SinosLang

open Grammar

namespace Cursor

variable {source : Source} {tokens : List Token}

/-- The cursor at the start of a source is consistent. -/
theorem consistent_start (source : Source) : (start source).Consistent where
  finish _ full := by cases full
  inner _ isIn token isToken := Stream.readingsWithin_notEnd _ isIn token isToken

/-- At the start of a source, the tokens are still to be consumed that its text consists of. -/
theorem pending_start_iff :
    (start source).pending = tokens.map .ok ↔ Lexes 0 source.text tokens :=
  @Stream.readings_iff (Stream.startingAt source 0) tokens (Nat.zero_le _)

/-- The cursor at the start of a source has the tokens of its text to consume. -/
theorem holds_start (lexes : Lexes 0 source.text tokens) : (start source).Holds tokens where
  consistent := consistent_start source
  pending_eq := pending_start_iff.mpr lexes
  inside token isIn := by
    have := (lexes.inside token isIn).2
    rwa [Nat.zero_add, ← source.size_eq] at this

/-- A cursor that has some tokens to consume, all of them at the start of an empty source. -/
def ahead (tokens : List Token) : Cursor where
  source := Source.ofText [] []
  lookahead := none
  upcoming := tokens.map fun token => ⟨.ok (flatten token), 0⟩
  position := 0
  nesting := 0

/-- A cursor made for some tokens has them to consume, all at the start of the source. -/
theorem holds_ahead (endless : Endless tokens) : (ahead tokens).Holds (tokens.map flatten) where
  consistent :=
    { finish := fun _ full => by cases full
      inner := fun reading isIn token isToken => by
        obtain ⟨inner, isInner, rfl⟩ := List.mem_map.mp isIn
        cases isToken
        exact endless inner isInner }
  pending_eq := by simp [pending, ahead, Function.comp_def]
  inside token isIn := by
    obtain ⟨_, _, rfl⟩ := List.mem_map.mp isIn
    exact Nat.zero_le _

end Cursor

/-- A list of tokens stands for one program at most. -/
theorem Grammar.Program.unique {tokens : List Token} {first second : Node}
    (h : Program Plain tokens first) (k : Program Plain tokens second) :
    first.erase = second.erase := by
  -- parsed without limits, the tokens give both trees
  have parsed {tree : Node} (derived : Program Plain tokens tree) :
      ∃ stmts after, Parse.program Limits.unlimited (Cursor.ahead tokens) =
        (.ok (Node.module ⟨0, 0⟩ stmts).measured, after) ∧
          tree.erase = (Node.module ⟨0, 0⟩ stmts).erase := by
    obtain ⟨_, span, stmts, rfl, _⟩ := id derived
    obtain ⟨stmts', flat, same⟩ := carrying_plain_flat.program ⟨0, 0⟩ trivial derived
    obtain ⟨after, run⟩ := Parse.exists_program (Cursor.holds_ahead derived.endless) flat rfl
      Limits.fits_unlimited rfl
    refine ⟨stmts', after, run, ?_⟩
    rw [Node.map_mapSpans_id, Node.map_mapSpans_id] at same
    rw [same]
    rfl
  obtain ⟨stmts, after, run, same⟩ := parsed h
  obtain ⟨stmts', after', run', same'⟩ := parsed k
  rw [run] at run'
  injection run' with answers _
  injection answers with answers
  rw [same, same']
  exact congrArg (fun result => result.node.erase) answers

namespace Source

variable {source : Source} {tree : Node} {limits : Limits}

/-- A source is parsed into a tree exactly if its text consists of tokens that stand for the tree,
every span is in place and the tree keeps within the limits. -/
theorem parseWithin_eq_ok_iff :
    source.parseWithin limits = .ok tree ↔
      ∃ tokens, Lexes 0 source.text tokens ∧ Program InPlace tokens tree ∧
        tree.span = ⟨0, source.size⟩ ∧ limits.Fits 0 tree ∧ limits.allows tree.height = true := by
  constructor
  · intro parsed
    obtain ⟨outcome, after, run⟩ : ∃ outcome after,
        Parse.program limits (Cursor.start source) = (outcome, after) := ⟨_, _, rfl⟩
    unfold parseWithin at parsed
    rw [run] at parsed
    cases outcome with
    | error failure => cases parsed
    | ok result =>
      cases parsed
      obtain ⟨tokens, node, rfl, pending, derived, covers, fits, allowed⟩ :=
        Parse.program_ok (Cursor.consistent_start source) run
      exact ⟨tokens, Cursor.pending_start_iff.mp pending, derived, covers, fits, allowed⟩
  · rintro ⟨tokens, lexes, derived, covers, fits, allowed⟩
    obtain ⟨_, span, stmts, rfl, _⟩ := id derived
    obtain ⟨after, run⟩ :=
      Parse.exists_program (Cursor.holds_start lexes) derived covers fits allowed
    unfold parseWithin
    rw [run]
    rfl

/-- The trees of the language open at most forty brackets at once and are at most 256 high. -/
theorem parse_eq_ok_iff :
    source.parse = .ok tree ↔
      ∃ tokens, Lexes 0 source.text tokens ∧ Program InPlace tokens tree ∧
        tree.span = ⟨0, source.size⟩ ∧ tree.bracketDepth ≤ 40 ∧ tree.height ≤ 256 := by
  unfold parse
  rw [parseWithin_eq_ok_iff]
  simp only [Limits.fits_standard_iff, Limits.standard_allows_iff]

/-- Some tree of a given shape is the answer exactly if the shape is that of a program and keeps
within the limits. -/
theorem exists_parse_iff {tokens : List Token} {shape : Node} (lexes : Lexes 0 source.text tokens) :
    (∃ tree, source.parse = .ok tree ∧ tree.erase = shape.erase) ↔
      Program Plain tokens shape.erase ∧ shape.bracketDepth ≤ 40 ∧ shape.height ≤ 256 := by
  constructor
  · rintro ⟨tree, parsed, same⟩
    obtain ⟨tokens', lexes', derived, _, few, low⟩ := parse_eq_ok_iff.mp parsed
    obtain rfl : tokens' = tokens := by
      have both := (Cursor.pending_start_iff.mpr lexes').symm.trans
        (Cursor.pending_start_iff.mpr lexes)
      exact List.map_injective_iff.mpr (fun _ _ => Except.ok.inj) both
    obtain ⟨_, span, stmts, rfl, _⟩ := id derived
    obtain ⟨stmts', plain, same'⟩ :=
      carrying_inPlace_plain.program Span.origin trivial derived
    rw [Node.map_mapSpans_id] at same'
    rw [List.map_id] at plain
    refine ⟨?_, ?_, ?_⟩
    · rw [← same]
      rw [same'] at plain
      simpa [Node.erase, Node.mapSpans] using plain
    · rwa [← Node.bracketDepth_eq_of_erase_eq same]
    · rwa [← Node.height_eq_of_erase_eq same]
  · rintro ⟨derived, few, low⟩
    obtain ⟨_, span, stmts, shape_eq, _⟩ := id derived
    rw [shape_eq] at derived
    obtain ⟨stmts', inPlace, same⟩ :=
      carrying_plain_inPlace.program ⟨0, source.size⟩ lexes.ordered derived
    rw [List.map_id] at inPlace
    have sameShape : (Node.module ⟨0, source.size⟩ stmts').erase = shape.erase := by
      calc (Node.module ⟨0, source.size⟩ stmts').erase
          = .module Span.origin (stmts'.map Node.erase) := by
            rw [Node.erase, Node.mapSpans, Node.mapSpansAll_eq_map]
            rfl
        _ = .module Span.origin (stmts.map Node.erase) := congrArg _ same
        _ = (Node.module span stmts).erase := by
            rw [Node.erase, Node.mapSpans, Node.mapSpansAll_eq_map]
            rfl
        _ = shape.erase := by
            rw [← shape_eq]
            exact Node.erase_mapSpans _ shape
    refine ⟨_, parse_eq_ok_iff.mpr ⟨tokens, lexes, inPlace, rfl, ?_, ?_⟩, sameShape⟩
    · rwa [Node.bracketDepth_eq_of_erase_eq sameShape]
    · rwa [Node.height_eq_of_erase_eq sameShape]

/-- The parser decides the grammar: where a text is split into tokens, it answers with a tree of some
shape exactly if the tokens before the end stand for a program of this shape that opens at most forty
brackets at once and is at most 256 high. No list of tokens stands for two programs. -/
theorem parse_decides_grammar :
    (∀ (source : Source) (all : List Token), source.tokenize.result = .ok all →
      ∃ tokens, all = tokens ++ [source.endToken] ∧ ∀ shape : Node,
        (∃ tree, source.parse = .ok tree ∧ tree.erase = shape.erase) ↔
          Program Plain tokens shape.erase ∧ shape.bracketDepth ≤ 40 ∧ shape.height ≤ 256) ∧
    ∀ (tokens : List Token) (first second : Node), Program Plain tokens first →
      Program Plain tokens second → first.erase = second.erase := by
  refine ⟨fun source all tokenized => ?_, fun tokens first second h k => h.unique k⟩
  obtain ⟨tokens, lexes, rfl⟩ := tokenize_eq_ok_iff.mp tokenized
  exact ⟨tokens, rfl, fun shape => exists_parse_iff lexes⟩

/-- A block before an operator is the left operand and no statement of its own. -/
theorem parse_decides_grammar_operand :
    ∃ tokens, (ofText [] "\x7b1\x7d-x;".toList).tokenize.result =
        .ok (tokens ++ [(ofText [] "\x7b1\x7d-x;".toList).endToken]) ∧
      Program Plain tokens (.module Span.origin [.exprStmt Span.origin
        (.binary Span.origin ['-'] (.block Span.origin [] (some (.integer Span.origin 1)))
          (.name Span.origin ['x']))]) := by
  have tokenized : (ofText [] "\x7b1\x7d-x;".toList).tokenize.result = .ok
      [⟨.lbrace, ['\x7b'], ⟨0, 1⟩⟩, ⟨.int, ['1'], ⟨1, 1⟩⟩, ⟨.rbrace, ['\x7d'], ⟨2, 1⟩⟩,
        ⟨.sub, ['-'], ⟨3, 1⟩⟩, ⟨.ident, ['x'], ⟨4, 1⟩⟩, ⟨.semi, [';'], ⟨5, 1⟩⟩,
        ⟨.eof, [], ⟨6, 0⟩⟩] := by cbv
  obtain ⟨tokens, same, decides⟩ := parse_decides_grammar.1 _ _ tokenized
  rw [same] at tokenized
  have parsed : (ofText [] "\x7b1\x7d-x;".toList).parse = .ok (.module ⟨0, 6⟩ [.exprStmt ⟨0, 6⟩
      (.binary ⟨0, 5⟩ ['-'] (.block ⟨0, 3⟩ [] (some (.integer ⟨1, 1⟩ 1)))
        (.name ⟨4, 1⟩ ['x']))]) := by cbv
  exact ⟨tokens, tokenized, ((decides _).mp ⟨_, parsed, rfl⟩).1⟩

end Source

end SinosLang
