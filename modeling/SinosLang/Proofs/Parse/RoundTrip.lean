import SinosLang.Proofs.Node.Printing
import SinosLang.Proofs.Parse.Derivations

/-!
# Parsing and writing undo each other

The trees that the parser answers with have the shapes of the well-formed trees, and the source text
of a well-formed tree is parsed into a tree of its shape. So a text that was written for a parsed
tree is parsed into this tree again, with other spans.

Main statements: `wellFormed_iff_parsed` and `reparse_sourceText`.
-/

set_option autoImplicit false

namespace SinosLang

open Grammar

namespace Source

variable {source : Source} {tree : Node}

/-- A tree that is answered is well-formed. -/
theorem wellFormed_of_parse (parsed : source.parse = .ok tree) : tree.WellFormed := by
  obtain ⟨tokens, lexes, derived, _, few, low⟩ := parse_eq_ok_iff.mp parsed
  refine ⟨?_, derived.proper lexes.exists_spelled, few, low⟩
  obtain ⟨_, span, stmts, rfl, _⟩ := derived
  exact ⟨span, stmts, rfl⟩

/-- The source text of a well-formed tree is parsed into a tree of its shape. -/
theorem exists_parse_sourceText (wellFormed : tree.WellFormed) (name : Text) :
    ∃ again, (ofText name tree.sourceText).parse = .ok again ∧ again.erase = tree.erase := by
  obtain ⟨tokens, lexes, derived⟩ := Node.exists_program wellFormed.isModule wellFormed.proper
  have lexes' : Lexes 0 (ofText name tree.sourceText).text tokens := lexes
  exact (exists_parse_iff lexes').mpr ⟨derived, wellFormed.few, wellFormed.low⟩

/-- The trees that some text is parsed into are the well-formed ones up to the spans, and the source
text of a well-formed tree, whatever its spans, is such a text. -/
theorem wellFormed_iff_parsed (tree : Node) :
    (tree.WellFormed ↔
      ∃ source parsed, Source.parse source = .ok parsed ∧ parsed.erase = tree.erase) ∧
    (tree.WellFormed → ∀ name, ∃ parsed, (ofText name tree.sourceText).parse = .ok parsed ∧
      parsed.erase = tree.erase) := by
  refine ⟨⟨fun wellFormed => ?_, ?_⟩, exists_parse_sourceText⟩
  · obtain ⟨parsed, isParsed, same⟩ := exists_parse_sourceText wellFormed []
    exact ⟨_, parsed, isParsed, same⟩
  · rintro ⟨source, parsed, isParsed, same⟩
    exact Node.wellFormed_of_erase_eq same (wellFormed_of_parse isParsed)

/-- A difference that was built by hand. -/
theorem wellFormed_iff_parsed_difference :
    ∃ parsed, (ofText [] "1 - x;".toList).parse = .ok parsed ∧
      parsed.erase = .module Span.origin [.exprStmt Span.origin
        (.binary Span.origin ['-'] (.integer Span.origin 1) (.name Span.origin ['x']))] := by
  have wellFormed : (Node.module Span.origin [.exprStmt Span.origin (.binary Span.origin ['-']
      (.integer Span.origin 1) (.name Span.origin ['x']))]).WellFormed := by
    refine ⟨⟨_, _, rfl⟩, ?_, by decide, by decide⟩
    simp only [Node.preorder_eq, Node.children, List.flatMap_cons, List.flatMap_nil,
      List.append_nil, List.cons_append, List.nil_append, List.forall_mem_cons, List.not_mem_nil]
    refine ⟨?_, ?_, ?_, ?_, ?_, ?_⟩
    · simp [Node.Proper, Node.isStatement]
    · rfl
    · exact ⟨⟨.sub, by decide, rfl⟩, ⟨rfl, by decide⟩, ⟨rfl, by decide⟩⟩
    · exact ⟨by decide, by decide⟩
    · exact ⟨Text.isWord_cons (by decide) rfl, by decide⟩
    · simp
  have written : (Node.module Span.origin [.exprStmt Span.origin
      (.binary Span.origin ['-'] (.integer Span.origin 1) (.name Span.origin ['x']))]).sourceText =
        "1 - x;".toList := by cbv
  have parsed := (wellFormed_iff_parsed _).2 wellFormed []
  rw [written] at parsed
  exact parsed

/-- The source text of a tree that a text was parsed into is parsed into a tree of the same shape,
and this tree has the very same source text. -/
theorem reparse_sourceText (parsed : source.parse = .ok tree) (name : Text) :
    ∃ again, (ofText name tree.sourceText).parse = .ok again ∧ again.erase = tree.erase ∧
      again.sourceText = tree.sourceText := by
  obtain ⟨again, isParsed, same⟩ := exists_parse_sourceText (wellFormed_of_parse parsed) name
  exact ⟨again, isParsed, same, Node.sourceText_eq_of_erase_eq same⟩

/-- A binding that was written without blanks and with a zero before the number. -/
theorem reparse_sourceText_let :
    ∃ again, (ofText [] "let a: t = -(1) ~ \"\\n\";".toList).parse = .ok again ∧
      again.erase = .module Span.origin [.letStmt Span.origin ['a'] (some ['t'])
        (.binary Span.origin ['~'] (.unary Span.origin ['-']
          (.group Span.origin (.integer Span.origin 1))) (.string Span.origin ['\n']))] ∧
      again.sourceText = "let a: t = -(1) ~ \"\\n\";".toList := by
  have parsed : (ofText [] "let a:t=-(01)~\"\\n\";".toList).parse = .ok (.module ⟨0, 19⟩
      [.letStmt ⟨0, 19⟩ ['a'] (some ['t'])
        (.binary ⟨8, 10⟩ ['~'] (.unary ⟨8, 5⟩ ['-']
          (.group ⟨9, 4⟩ (.integer ⟨10, 2⟩ 1))) (.string ⟨14, 4⟩ ['\n']))]) := by cbv
  have written : (Node.module ⟨0, 19⟩ [.letStmt ⟨0, 19⟩ ['a'] (some ['t'])
      (.binary ⟨8, 10⟩ ['~'] (.unary ⟨8, 5⟩ ['-'] (.group ⟨9, 4⟩ (.integer ⟨10, 2⟩ 1)))
        (.string ⟨14, 4⟩ ['\n']))]).sourceText = "let a: t = -(1) ~ \"\\n\";".toList := by cbv
  have again := reparse_sourceText parsed []
  rw [written] at again
  exact again

end Source

end SinosLang
