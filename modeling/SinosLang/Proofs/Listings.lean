import SinosLang.Proofs.Answers
import SinosLang.Proofs.Parse.OnDemand

/-!
# Sessions that list tokens

A session that lists tokens asks for all tokens of a program before it parses it, so a fault of the
lexer ends its answer before the parser has begun. Where the program is split into tokens, its answer
is that of a session that lists none with the listing before it. Where it is not, both sessions answer
with a diagnostic, and it is the same one unless the parser comes upon something of its own before
the fault of the lexer: only the session that lists no tokens reports that.

Main statement: `respond_listing`.
-/

set_option autoImplicit false

namespace SinosLang

namespace Session

variable {chunk format : Text} {number : Nat} {source : Source}

/-- Before a program that is split into tokens stands their listing. -/
theorem showChunk_of_tokenize {all : List Token} (split : source.tokenize.result = .ok all) :
    (⟨true, format, number⟩ : Session).showChunk source =
      Token.listing all ++ '\n' :: showProgram format source := by
  rw [showChunk, if_pos rfl, Source.tokenListing, split]
  rfl

/-- A fault of the lexer is the whole answer where tokens are listed. -/
theorem showChunk_of_tokenize_error {e : Diagnostic}
    (faulty : source.tokenize.result = .error (.diagnostic e)) :
    (⟨true, format, number⟩ : Session).showChunk source = diagnosticReport source e := by
  rw [showChunk, if_pos rfl, Source.tokenListing, faulty]
  rfl

/-- A program that is rejected is shown as the report of its diagnostic. -/
theorem showProgram_of_parse_error {d : Diagnostic}
    (failed : source.parse = .error (.diagnostic d)) :
    showProgram format source = diagnosticReport source d := by
  rw [showProgram, failed]

/-- A session that lists tokens answers a program that is split into tokens with their listing and
then as a session that lists none. What is not split into tokens is rejected by both, and they answer
alike if the parser fails for a fault of the lexer. If it fails of its own accord, it does so for
something before the first fault of the lexer, and each session reports what it has come upon. -/
theorem respond_listing (known : OutputFormat) (number : Nat)
    (isProgram : Purpose.ofChunk chunk = .program) :
    let quiet : Session := ⟨false, known.name, number⟩
    let listing : Session := ⟨true, known.name, number⟩
    let source := sourceOf (number + 1) chunk
    (∀ all, source.tokenize.result = .ok all →
      (listing.respond chunk).2 = Token.listing all ++ '\n' :: (quiet.respond chunk).2) ∧
    (∀ failure, source.tokenize.result = .error failure →
      ∃ e d, failure = .diagnostic e ∧ source.parse = .error (.diagnostic d) ∧
        (d.fault.isLexical = true → (listing.respond chunk).2 = (quiet.respond chunk).2) ∧
        (d.fault.isLexical = false → d.span.stop ≤ e.span.index ∧
          (quiet.respond chunk).2 = diagnosticReport source d ∧
          (listing.respond chunk).2 = diagnosticReport source e)) := by
  intro quiet listing source
  have quietly : (quiet.respond chunk).2 = showProgram known.name source := by
    rw [respond_of_program isProgram]
    rfl
  have listed : (listing.respond chunk).2 = listing.showChunk source := by
    rw [respond_of_program isProgram]
  rw [quietly, listed]
  constructor
  · intro all split
    exact showChunk_of_tokenize split
  · intro failure faulty
    obtain ⟨e, d, rfl, isLexical, _, failed, isEarlier⟩ := Source.parse_of_tokenize_error faulty
    rw [showProgram_of_parse_error failed]
    refine ⟨e, d, rfl, failed, fun sameKind => ?_, fun notLexical => ?_⟩
    · rcases isEarlier with rfl | ⟨notLexical, _⟩
      · exact showChunk_of_tokenize_error faulty
      · rw [sameKind] at notLexical
        cases notLexical
    · rcases isEarlier with rfl | ⟨_, before⟩
      · rw [isLexical] at notLexical
        cases notLexical
      · exact ⟨before, rfl, showChunk_of_tokenize_error faulty⟩

/-- The third chunk of a session, in two formats: a name without a semicolon, which is split into
tokens, and one before a character of no token, which the parser comes upon as well. -/
theorem respond_listing_name :
    ((⟨true, "json".toList, 2⟩ : Session).respond "x".toList).2 =
        "IDENT    <0,1> 'x'\nEOF      <1,0> ''\n".toList ++
          ((⟨false, "json".toList, 2⟩ : Session).respond "x".toList).2 ∧
      ((⟨true, "tree".toList, 2⟩ : Session).respond "x @".toList).2 =
        ((⟨false, "tree".toList, 2⟩ : Session).respond "x @".toList).2 := by
  have split : (sourceOf 3 "x".toList).tokenize.result =
      .ok [⟨.ident, ['x'], ⟨0, 1⟩⟩, ⟨.eof, [], ⟨1, 0⟩⟩] := by cbv
  have faulty : (sourceOf 3 "x @".toList).tokenize.result =
      .error (.diagnostic ⟨.unexpectedChar, ⟨2, 1⟩⟩) := by cbv
  have failed : (sourceOf 3 "x @".toList).parse =
      .error (.diagnostic ⟨.unexpectedChar, ⟨2, 1⟩⟩) := by cbv
  constructor
  · have listed := (@respond_listing "x".toList .json 2 (by decide +kernel)).1 _ split
    have lines : Token.listing [⟨.ident, ['x'], ⟨0, 1⟩⟩, ⟨.eof, [], ⟨1, 0⟩⟩] ++ ['\n'] =
        "IDENT    <0,1> 'x'\nEOF      <1,0> ''\n".toList := by decide +kernel
    rw [← lines, List.append_assoc]
    exact listed
  · obtain ⟨e, d, _, rejected, alike, _⟩ :=
      (@respond_listing "x @".toList .tree 2 (by decide +kernel)).2 _ faulty
    rw [failed] at rejected
    cases rejected
    exact alike rfl

/-- Two names without an operator between them are reported, but where tokens are listed only the
character behind them that belongs to no token is. -/
theorem listing_hides_diagnostic :
    (sourceOf 1 "x y @".toList).tokenize.result =
        .error (.diagnostic ⟨.unexpectedChar, ⟨4, 1⟩⟩) ∧
      ((⟨false, "tree".toList, 0⟩ : Session).respond "x y @".toList).2 =
        "[error] >>>\n<repl:1>:1:3: error: expected ';'\nx y @\n  ^\n".toList ∧
      ((⟨true, "tree".toList, 0⟩ : Session).respond "x y @".toList).2 ≠
        ((⟨false, "tree".toList, 0⟩ : Session).respond "x y @".toList).2 := by
  have faulty : (sourceOf 1 "x y @".toList).tokenize.result =
      .error (.diagnostic ⟨.unexpectedChar, ⟨4, 1⟩⟩) := by cbv
  have failed : (sourceOf 1 "x y @".toList).parse =
      .error (.diagnostic ⟨.expectSemi, ⟨2, 1⟩⟩) := by cbv
  have isProgram : Purpose.ofChunk "x y @".toList = .program := by decide +kernel
  rw [respond_of_program isProgram, respond_of_program isProgram]
  refine ⟨faulty, ?_, ?_⟩
  · rw [showChunk, if_neg Bool.false_ne_true, showProgram_of_parse_error failed]
    decide +kernel
  · rw [showChunk_of_tokenize_error faulty, showChunk, if_neg Bool.false_ne_true,
      showProgram_of_parse_error failed]
    decide +kernel

end Session

end SinosLang
