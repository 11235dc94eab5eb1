import SinosLang.Session
import SinosLang.Proofs.Grammar.Words
import SinosLang.Proofs.Lexing.Lines
import SinosLang.Proofs.Parse.Derivations

/-!
# Braces among characters and among tokens

A session weighs the braces among the characters of a chunk; the grammar pairs those among its
tokens. Each brace that is a token is one character, and every other brace of a text that is split
into tokens is hidden: it stands in a comment or in a string literal. The tokens of a program open as
many braces as they close.

Main statements: `braces_eq` for a text that is split into tokens, and `openBraces_of_parse` for a
program.
-/

set_option autoImplicit false

namespace SinosLang

open Lexeme (triviaLength)
open PendingChunk (braces)

namespace PendingChunk

/-- Nothing has no braces. -/
@[simp]
theorem braces_nil : braces [] = 0 := rfl

/-- The braces of two texts in a row add up. -/
@[simp]
theorem braces_append (text rest : Text) : braces (text ++ rest) = braces text + braces rest := by
  simp only [braces, List.count_append, Int.natCast_add]
  omega

/-- A text without braces is balanced. -/
theorem braces_eq_zero {text : Text} (plain : ∀ c ∈ text, c ≠ '\x7b' ∧ c ≠ '\x7d') :
    braces text = 0 := by
  have noOpening : text.count '\x7b' = 0 := List.count_eq_zero.mpr fun isIn => (plain _ isIn).1 rfl
  have noClosing : text.count '\x7d' = 0 := List.count_eq_zero.mpr fun isIn => (plain _ isIn).2 rfl
  rw [braces, noOpening, noClosing]
  rfl

end PendingChunk

/-- What a token of a kind adds to the number of braces that are open. -/
def TokenKind.opens : TokenKind → Int
  | lbrace => 1
  | rbrace => -1
  | _ => 0

/-- How many more braces some tokens open than they close. -/
def openBraces (tokens : List Token) : Int :=
  (tokens.countP fun token => token.kind == .lbrace : Int) -
    tokens.countP fun token => token.kind == .rbrace

/-- How many more braces are opened than closed in a text from a position on by what is no token of
its own there: by comments, that is by what stands before each of the given tokens and behind the
last one, and by string literals. -/
def hiddenBraces (position : Nat) (text : Text) : List Token → Int
  | [] => braces text
  | token :: tokens =>
    let gap := token.span.index - position
    let inString :=
      if token.kind = .string then braces ((text.drop gap).take token.span.length) else 0
    braces (text.take gap) + inString +
      hiddenBraces token.span.stop (text.drop (gap + token.span.length)) tokens

/-- No tokens leave no brace open. -/
@[simp]
theorem openBraces_nil : openBraces [] = 0 := rfl

/-- The first token counts by its kind, the others as they do alone. -/
@[simp]
theorem openBraces_cons (token : Token) (tokens : List Token) :
    openBraces (token :: tokens) = token.kind.opens + openBraces tokens := by
  obtain ⟨kind, _, _⟩ := token
  unfold openBraces
  cases kind <;> simp [TokenKind.opens] <;> omega

/-- The braces that two lists of tokens leave open add up. -/
@[simp]
theorem openBraces_append (front back : List Token) :
    openBraces (front ++ back) = openBraces front + openBraces back := by
  simp only [openBraces, List.countP_append, Int.natCast_add]
  omega

/-! ## The braces of a text -/

/-- The braces in the spelling of a token are those of the token, except that those in a string are
hidden. -/
theorem Spells.braces_eq {spelled value : Text} {kind : TokenKind}
    (spells : Spells spelled kind value) :
    braces spelled = kind.opens + if kind = .string then braces spelled else 0 := by
  have plainDigit (c : Char) (digit : Text.isDigit c = true) : c ≠ '\x7b' ∧ c ≠ '\x7d' := by
    constructor <;> rintro rfl <;> exact absurd digit (by decide)
  cases spells with
  | word word =>
    have kinds : ∀ kind ∈ [TokenKind.letKeyword, .bool, .ident], kind ≠ .string ∧ kind.opens = 0 := by
      decide
    obtain ⟨notString, noBrace⟩ := kinds _ (Lexeme.ofWord_mem spelled)
    rw [noBrace, if_neg notString]
    refine PendingChunk.braces_eq_zero fun c isIn => ?_
    have part := word.all_parts c isIn
    constructor <;> rintro rfl <;> exact absurd part (by decide +kernel)
  | int digits _ => exact PendingChunk.braces_eq_zero fun c isIn => plainDigit c (digits.2 c isIn)
  | @float whole fraction digits decimals _ =>
    refine PendingChunk.braces_eq_zero fun c isIn => ?_
    rcases List.mem_append.mp isIn with inWhole | inRest
    · exact plainDigit c (digits.2 c inWhole)
    · rcases List.mem_cons.mp inRest with rfl | inFraction
      · decide
      · exact plainDigit c (decimals.2 c inFraction)
  | string quotes => exact (Int.zero_add _).symm
  | symbol isSymbol =>
    have table : ∀ entry ∈ TokenKind.symbols, entry.2 ≠ .string ∧
        braces entry.1 = entry.2.opens := by decide
    obtain ⟨notString, braces_eq⟩ := table _ isSymbol
    rw [if_neg notString, Int.add_zero]
    exact braces_eq

/-- The braces of a text that consists of tokens are those among the tokens and the hidden ones. The
token behind the others marks the end of the text. -/
theorem Lexes.braces_eq {position : Nat} {text : Text} {tokens : List Token} {final : Token}
    (lexes : Lexes position text tokens) (isEnd : final.kind = .eof)
    (placed : final.span = ⟨position + text.length, 0⟩) :
    braces text =
      openBraces (tokens ++ [final]) + hiddenBraces position text (tokens ++ [final]) := by
  induction lexes with
  | done =>
    simp [hiddenBraces, isEnd, placed, TokenKind.opens]
  | @token position text spelled value rest kind tokens shape spells parted later ih =>
    have size := Lexes.length_eq shape
    rw [List.length_append] at size
    have behind := ih (by rw [placed]; congr 1; omega)
    have rest_eq : text.drop (triviaLength false text + spelled.length) = rest := by
      rw [← List.drop_drop, shape, List.drop_left]
    have text_eq : text = text.take (triviaLength false text) ++ spelled ++ rest := by
      rw [List.append_assoc, ← shape, List.take_append_drop]
    have inSpelled := spells.braces_eq
    rw [List.cons_append, openBraces_cons, hiddenBraces]
    simp only [Nat.add_sub_cancel_left, shape, List.take_left, rest_eq, Span.stop]
    have whole : braces text =
        braces (text.take (triviaLength false text)) + braces spelled + braces rest := by
      rw [← PendingChunk.braces_append, ← PendingChunk.braces_append, ← text_eq]
    omega

namespace Source

/-- How many more braces the tokens of a source open than they close. -/
def openBraces (source : Source) : Int :=
  SinosLang.openBraces source.tokenize.tokens

/-- How many more braces the comments and the string literals of a source open than they close. -/
def hiddenBraces (source : Source) : Int :=
  SinosLang.hiddenBraces 0 source.text source.tokenize.tokens

/-- The braces among the characters of a source that is split into tokens. -/
theorem braces_eq {source : Source} {all : List Token} (split : source.tokenize.result = .ok all) :
    braces source.text = source.openBraces + source.hiddenBraces := by
  obtain ⟨tokens, lexes, rfl⟩ := tokenize_eq_ok_iff.mp split
  have tokens_eq := (Tokenization.result_eq_ok_iff.mp split).2
  rw [openBraces, hiddenBraces, tokens_eq]
  exact lexes.braces_eq rfl (by rw [Nat.zero_add, ← source.size_eq]; rfl)

end Source

/-! ## The braces of a program -/

namespace Grammar

/-- A type annotation has no braces. -/
theorem TypePart.openBraces_eq_zero {tokens : List Token} {type? : Option Text}
    (h : TypePart tokens type?) : openBraces tokens = 0 := by
  cases h with
  | absent => rfl
  | present isColon isType => simp [isColon, isType, TokenKind.opens]

/-- The words of every category open as many braces as they close. -/
theorem Word.openBraces_eq_zero {category : Category} {tokens : List Token}
    (word : Word category tokens) : openBraces tokens = 0 := by
  have noBrace {kinds : List TokenKind} {kind : TokenKind} (isIn : kind ∈ kinds)
      (others : ∀ kind ∈ kinds, kind.opens = 0) : kind.opens = 0 := others kind isIn
  induction word with
  | noStatements => rfl
  | moreStatements _ _ ih ih' | ending _ _ ih ih' => simp [ih, ih']
  | binding isLet isName type isAssign _ isSemi ih =>
    have noType := type.openBraces_eq_zero
    simp [isLet, isName, noType, isAssign, isSemi, ih, TokenKind.opens]
  | terminated _ isSemi ih => simp [isSemi, ih, TokenKind.opens]
  | block isOpening _ isClosing ih | group isOpening _ isClosing ih =>
    simp [isOpening, isClosing, ih, TokenKind.opens]
  | leaf isLeaf => simp [noBrace isLeaf (by decide)]
  | unary isPrefix _ ih => simp [noBrace isPrefix (by decide), ih]
  | @binary level _ _ op _ isOperator _ ih ih' =>
    simp [noBrace isOperator (by cases level <;> decide), ih, ih']
  | standing _ ih | onlyStatements _ ih | ofBlock _ ih | operand _ _ ih => exact ih

end Grammar

/-- A program opens as many braces as it closes. -/
theorem Source.openBraces_of_parse {source : Source} {tree : Node}
    (parsed : source.parse = .ok tree) :
    (∃ all, source.tokenize.result = .ok all) ∧ source.openBraces = 0 := by
  obtain ⟨tokens, lexes, program, _⟩ := parse_eq_ok_iff.mp parsed
  have split := tokenize_eq_ok_iff.mpr ⟨tokens, lexes, rfl⟩
  refine ⟨⟨_, split⟩, ?_⟩
  rw [Source.openBraces, (Tokenization.result_eq_ok_iff.mp split).2, openBraces_append,
    program.sentence.openBraces_eq_zero]
  rfl

end SinosLang
