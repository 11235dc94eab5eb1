import SinosLang.Request
import SinosLang.Proofs.Lexing.Readings
import SinosLang.Proofs.Text.Listed
import SinosLang.Proofs.Text.Parts
import Mathlib

/-!
# The listing of tokens tells them apart

A line of the listing has the kind of a token, padded with blanks, its span and its value as a listed
text. None of them has a newline, the kind has no blank and the span ends in front of the value, so
the lines are one for each token, and a line determines its token.

Main statement: `tokenListing_lossless`.
-/

set_option autoImplicit false

namespace SinosLang

namespace TokenKind

/-- A kind is the one that its label names. -/
theorem ofLabel?_label (kind : TokenKind) : ofLabel? kind.label = some kind := by
  cases kind <;> decide

/-- Kinds of tokens that are listed alike are the same. -/
theorem label_injective {kind other : TokenKind} (same : kind.label = other.label) :
    kind = other := by
  have found := ofLabel?_label kind
  rw [same, ofLabel?_label] at found
  exact (Option.some.inj found).symm

/-- A label is a word without blanks on a line. -/
theorem label_plain (kind : TokenKind) : ' ' ∉ kind.label ∧ '\n' ∉ kind.label := by
  cases kind <;> decide

end TokenKind

namespace Token

variable {token other : Token} {tokens others : List Token}

/-- The line of a token has no line break in it. -/
theorem newline_not_mem_line (token : Token) : '\n' ∉ token.line := by
  simp [line, Text.padRight, (TokenKind.label_plain _).2, token.span.newline_not_mem_brackets,
    Text.newline_not_mem_listed]

/-- A line is the label of a kind and, behind blanks, the rest. -/
theorem line_eq (token : Token) :
    token.line = token.kind.label ++ ' ' :: (List.replicate (8 - token.kind.label.length) ' ' ++
      (token.span.brackets ++ ' ' :: Text.listed token.value)) := by
  have blanks (count : Nat) (rest : Text) :
      List.replicate count ' ' ++ ' ' :: rest = ' ' :: (List.replicate count ' ' ++ rest) := by
    rw [← List.cons_append, ← List.replicate_succ, List.replicate_succ', List.append_assoc]
    rfl
  rw [line, Text.padRight, List.append_assoc, List.append_assoc, List.cons_append, blanks]

/-- A line determines its token. -/
theorem line_injective (same : token.line = other.line) : token = other := by
  obtain ⟨kind, value, span⟩ := token
  obtain ⟨kind', value', span'⟩ := other
  rw [line_eq, line_eq] at same
  dsimp only at same
  obtain ⟨label_eq, behind⟩ :=
    Text.append_cons_inj (TokenKind.label_plain kind).1 (TokenKind.label_plain kind').1 same
  obtain rfl := TokenKind.label_injective label_eq
  obtain ⟨rfl, behind'⟩ := Span.brackets_append_inj (List.append_cancel_left behind)
  rw [Text.listed_injective (List.cons.inj behind').2]

/-- The listing has one line for each token. -/
theorem lines_listing (filled : tokens ≠ []) :
    Text.lines (listing tokens) = tokens.map line := by
  refine Text.lines_joinLines (mt List.map_eq_nil_iff.mp filled) fun text isLine => ?_
  obtain ⟨token, _, rfl⟩ := List.mem_map.mp isLine
  exact token.newline_not_mem_line

/-- Tokens that are listed alike are the same. -/
theorem listing_injective (filled : tokens ≠ []) (filled' : others ≠ [])
    (same : listing tokens = listing others) : tokens = others := by
  have lines_eq := lines_listing filled
  rw [same, lines_listing filled'] at lines_eq
  exact List.map_injective_iff.mpr (fun _ _ => line_injective) lines_eq.symm

end Token

namespace Source

variable {source other : Source} {tokens tokens' : List Token}

/-- There is always a token for the end. -/
theorem tokens_ne_nil (tokenized : source.tokenize.result = .ok tokens) : tokens ≠ [] := by
  obtain ⟨front, _, rfl⟩ := tokenize_eq_ok_iff.mp tokenized
  exact List.append_ne_nil_of_right_ne_nil front (List.cons_ne_nil _ _)

/-- The listing of a source that is split into tokens has one line for each of them, whatever the
strings among them hold, and two such sources are listed alike exactly if their tokens have the same
kinds, values and spans. -/
theorem tokenListing_lossless (tokenized : source.tokenize.result = .ok tokens)
    (tokenized' : other.tokenize.result = .ok tokens') :
    (∃ listing, source.tokenListing = .ok listing ∧ Text.lines listing = tokens.map Token.line) ∧
      (source.tokenListing = other.tokenListing ↔
        tokens.map (fun token => (token.kind, token.value, token.span.index, token.span.length)) =
          tokens'.map fun token =>
            (token.kind, token.value, token.span.index, token.span.length)) := by
  have filled := tokens_ne_nil tokenized
  have filled' := tokens_ne_nil tokenized'
  have listed : source.tokenListing = .ok (Token.listing tokens) := by
    rw [tokenListing, tokenized]
    rfl
  have listed' : other.tokenListing = .ok (Token.listing tokens') := by
    rw [tokenListing, tokenized']
    rfl
  refine ⟨⟨_, listed, Token.lines_listing filled⟩, ?_⟩
  rw [listed, listed']
  constructor
  · intro same
    rw [Token.listing_injective filled filled' (Except.ok.inj same)]
  · intro same
    have fields : Function.Injective fun token : Token =>
        (token.kind, token.value, token.span.index, token.span.length) := by
      rintro ⟨kind, value, index, length⟩ ⟨kind', value', index', length'⟩ eq
      simp only [Prod.mk.injEq] at eq
      obtain ⟨rfl, rfl, rfl, rfl⟩ := eq
      rfl
    rw [List.map_injective_iff.mpr fields same]

/-- An escaped newline in a string makes no line of its own, and it is not listed as the backslash
and the letter that it is written with. -/
theorem tokenListing_lossless_newline :
    let source := ofText [] "\"\\n\"".toList
    let other := ofText [] "\"\\\\n\"".toList
    (∃ listing, source.tokenListing = .ok listing ∧ (Text.lines listing).length = 2) ∧
      source.tokenListing ≠ other.tokenListing := by
  intro source other
  have tokenized : source.tokenize.result =
      .ok [⟨.string, ['\n'], ⟨0, 4⟩⟩, ⟨.eof, [], ⟨4, 0⟩⟩] := by cbv
  have tokenized' : other.tokenize.result =
      .ok [⟨.string, ['\\', 'n'], ⟨0, 5⟩⟩, ⟨.eof, [], ⟨5, 0⟩⟩] := by cbv
  obtain ⟨⟨listing, listed, lines_eq⟩, alike⟩ := tokenListing_lossless tokenized tokenized'
  refine ⟨⟨listing, listed, by rw [lines_eq]; rfl⟩, fun same => ?_⟩
  have equal := alike.mp same
  revert equal
  decide

end Source

end SinosLang
