import SinosLang.Proofs.Grammar.Rules
import SinosLang.Proofs.Lexing.Lexes

/-!
# Written texts are read

A text that is written piece by piece consists of the tokens of its pieces, if no piece joins on to
the one before it. Blanks, closing brackets, colons and semicolons never join on to anything, and
only an equals sign joins on to a symbol, so the pieces may be read one by one: a text is read as a
phrase if it consists of tokens of this phrase wherever it stands before such a character.

Main statements: the texts that spell one token are read as this token, and `ReadAs.append` and
`ReadAs.opening` put texts together.
-/

set_option autoImplicit false

namespace SinosLang

open Lexeme (triviaLength Parted)

namespace Text

/-- Characters that neither join on to the token before them nor make a comment of it. -/
def breaks : List Char :=
  [' ', '\n', ':', ';', ')', '\x7d']

/-- A text that may stand behind every token: it is empty or begins with a breaking character. -/
def Clear (text : Text) : Prop :=
  ∀ c, text.head? = some c → c ∈ breaks

/-- The end may stand behind every token. -/
theorem clear_nil : Clear [] :=
  fun _ head => by cases head

/-- What begins with a breaking character may stand behind every token. -/
theorem clear_cons {c : Char} (isBreak : c ∈ breaks) (text : Text) : Clear (c :: text) := by
  rintro _ ⟨⟩
  exact isBreak

/-- What may stand behind every token is joined to one such text. -/
theorem Clear.append {text rest : Text} (clear : text.Clear) (behind : rest.Clear) :
    Clear (text ++ rest) := by
  cases text with
  | nil => exact behind
  | cons c text => exact clear

/-- The escapes of a string literal stand for the characters that it was written for. -/
theorem quotes_literal (content : Text) : Quotes (content.flatMap literalChar) content := by
  induction content with
  | nil => exact .nil
  | cons c content ih =>
    rw [List.flatMap_cons, literalChar]
    cases found : escapeLetter? c with
    | none =>
      refine .plain ?_ ?_ ih
      · rintro rfl
        exact absurd found (by decide)
      · rintro rfl
        exact absurd found (by decide)
    | some letter =>
      obtain ⟨entry, isEntry, rfl⟩ := Option.map_eq_some_iff.mp found
      have undone : ∀ entry ∈ escapes, unescape? entry.1 = some entry.2 := by decide
      have same := List.find?_some isEntry
      rw [beq_iff_eq] at same
      rw [← same]
      exact .escaped (undone entry (List.mem_of_find?_eq_some isEntry)) ih

end Text

namespace Lexeme

variable {spelled value rest : Text} {kind : TokenKind}

/-- Only an equals sign joins on to a symbol. -/
theorem parted_symbol (isSymbol : (spelled, kind) ∈ TokenKind.symbols)
    (other : rest.head? ≠ some '=') : Parted spelled kind rest := by
  intro next head
  rw [joins_symbol isSymbol, Option.isSome_eq_false_iff, Option.isNone_iff_eq_none]
  by_contra pair
  obtain ⟨kind', known⟩ := Option.ne_none_iff_exists'.mp pair
  have filled : ∀ entry ∈ TokenKind.symbols, entry.1 ≠ [] := by decide
  have pairs : ∀ entry ∈ TokenKind.symbols,
      entry.1.dropLast ≠ [] → entry.1.getLast? = some '=' := by decide
  have last := pairs _ (ofSymbol?_eq_some_iff.mp known)
    (by rw [List.dropLast_concat]; exact filled _ isSymbol)
  rw [List.getLast?_concat] at last
  exact other (head.trans last)

/-- Nothing that may stand behind every token joins on to one. -/
theorem parted_of_clear (spells : Spells spelled kind value) (clear : rest.Clear) :
    Parted spelled kind rest := by
  cases spells with
  | word _ =>
    have outside : Text.breaks.all (fun c => !Text.isIdentifierPart c) = true := by decide +kernel
    intro next head
    rw [joins_word]
    exact (Bool.not_eq_true' _).mp (List.all_eq_true.mp outside next (clear next head))
  | int _ _ | float _ _ _ =>
    have outside : Text.breaks.all (fun c => !(Text.isDigit c || c == '.')) = true := by decide
    intro next head
    exact (Bool.not_eq_true' _).mp (List.all_eq_true.mp outside next (clear next head))
  | string _ => exact fun _ _ => rfl
  | symbol isSymbol => exact parted_symbol isSymbol fun head => absurd (clear '=' head) (by decide)

end Lexeme

namespace Lexes

variable {position : Nat} {text spelled value rest : Text} {kind : TokenKind} {token : Token}
  {tokens : List Token}

/-- A spelling to which nothing joins on is a token before those of the rest. -/
theorem spelled_append (spells : Spells spelled kind value) (parted : Parted spelled kind rest)
    (noComment : spelled = ['/'] → rest.head? ≠ some '/')
    (later : Lexes (position + spelled.length) rest tokens) :
    Lexes position (spelled ++ rest) (⟨kind, value, ⟨position, spelled.length⟩⟩ :: tokens) := by
  have noTrivia := Lexeme.triviaLength_spelled spells noComment
  have placed := @Lexes.token position (spelled ++ rest) spelled value rest kind tokens
    (by rw [noTrivia]; rfl) spells parted (by rw [noTrivia]; exact later)
  rwa [noTrivia] at placed

/-- A blank before a text adds no token. -/
theorem blank_cons {c : Char} (blank : Text.isBlank c = true)
    (lexes : Lexes (position + 1) text tokens) : Lexes position (c :: text) tokens := by
  have skipped : triviaLength false (c :: text) = triviaLength false text + 1 := by
    rw [triviaLength, if_neg Bool.false_ne_true, if_pos blank]
  cases lexes with
  | done nothing =>
    refine .done ?_
    rw [skipped, List.drop_succ_cons]
    exact nothing
  | token shape spells parted later =>
    have moved : position + 1 + triviaLength false text =
        position + triviaLength false (c :: text) := by omega
    rw [moved] at later ⊢
    refine .token ?_ spells parted later
    rw [skipped, List.drop_succ_cons]
    exact shape

/-- What starts an expression does not begin with an equals sign. -/
theorem head_ne_equals (lexes : Lexes position text (token :: tokens))
    (starts : token.kind ∈ Grammar.starters) : text.head? ≠ some '=' := by
  intro head
  obtain ⟨later, rfl⟩ := List.head?_eq_some_iff.mp head
  have noTrivia : triviaLength false ('=' :: later) = 0 := by
    rw [triviaLength, if_neg Bool.false_ne_true, if_neg (by decide), if_neg (by simp)]
  cases lexes with
  | token shape spells _ _ =>
    rw [noTrivia, List.drop_zero] at shape
    obtain ⟨first, rest, rfl, start | digit | rfl | isSymbol⟩ := spells.exists_head
    · cases shape
      exact absurd start (by decide)
    · cases shape
      exact absurd digit (by decide)
    · cases shape
    · cases shape
      have others : ∀ entry ∈ TokenKind.symbols, entry.1.head? = some '=' →
          entry.2 ∉ Grammar.starters := by decide
      exact others _ isSymbol rfl starts

end Lexes

/-- A text is read as a phrase if it consists of tokens of this phrase wherever it stands, before
anything that does not join on. -/
def ReadAs (text : Text) (phrase : List Token → Prop) : Prop :=
  ∀ ⦃position : Nat⦄ ⦃rest : Text⦄ ⦃later : List Token⦄, rest.Clear →
    Lexes (position + text.length) rest later →
      ∃ tokens, Lexes position (text ++ rest) (tokens ++ later) ∧ phrase tokens

/-- A single token of a kind, with a value. -/
def Single (kind : TokenKind) (value : Text) (tokens : List Token) : Prop :=
  ∃ span, tokens = [⟨kind, value, span⟩]

/-- Tokens of one phrase and then those of another. -/
def Then (first second : List Token → Prop) (tokens : List Token) : Prop :=
  ∃ front back, tokens = front ++ back ∧ first front ∧ second back

namespace ReadAs

variable {text behind spelled value : Text} {kind : TokenKind}
  {phrase other : List Token → Prop}

/-- A text that is read as one phrase is read as every phrase implied by it. -/
theorem mono (implies : ∀ tokens, phrase tokens → other tokens) (reads : ReadAs text phrase) :
    ReadAs text other := by
  intro position rest later clear lexes
  obtain ⟨tokens, whole, derived⟩ := reads clear lexes
  exact ⟨tokens, whole, implies tokens derived⟩

/-- The empty text has no tokens. -/
theorem nil (holds : phrase []) : ReadAs [] phrase :=
  fun _ _ _ _ lexes => ⟨[], lexes, holds⟩

/-- A spelling is read as the token that it spells. -/
theorem single (spells : Spells spelled kind value) : ReadAs spelled (Single kind value) := by
  intro position rest later clear lexes
  refine ⟨_, lexes.spelled_append spells (Lexeme.parted_of_clear spells clear) ?_, _, rfl⟩
  exact fun _ head => absurd (clear '/' head) (by decide)

/-- A symbol is read as the token of its kind. -/
theorem symbol (spelled : Text) (known : TokenKind.ofSymbol? spelled = some kind) :
    ReadAs spelled (Single kind spelled) :=
  single (.symbol (Lexeme.ofSymbol?_eq_some_iff.mp known))

/-- A blank may stand before a text. -/
theorem blank (c : Char) (isBlank : Text.isBlank c = true) (reads : ReadAs text phrase) :
    ReadAs (c :: text) phrase := by
  intro position rest later clear lexes
  rw [List.length_cons, Nat.add_comm text.length, ← Nat.add_assoc] at lexes
  obtain ⟨tokens, whole, derived⟩ := reads clear lexes
  exact ⟨tokens, whole.blank_cons isBlank, derived⟩

/-- Texts that do not join are read one after the other. -/
theorem append (clear : behind.Clear) (reads : ReadAs text phrase) (reads' : ReadAs behind other) :
    ReadAs (text ++ behind) (Then phrase other) := by
  intro position rest later clear' lexes
  rw [List.length_append, ← Nat.add_assoc] at lexes
  obtain ⟨back, whole, derived'⟩ := reads' clear' lexes
  obtain ⟨front, whole, derived⟩ := reads (clear.append clear') whole
  refine ⟨front ++ back, ?_, front, back, rfl, derived, derived'⟩
  rwa [List.append_assoc, List.append_assoc]

/-- An expression may stand directly behind a symbol, unless the symbol is a slash. -/
theorem opening (spelled : Text) (known : TokenKind.ofSymbol? spelled = some kind)
    (noSlash : spelled ≠ ['/'])
    (starts : ∀ tokens, phrase tokens →
      ∃ first rest, tokens = first :: rest ∧ first.kind ∈ Grammar.starters)
    (reads : ReadAs text phrase) :
    ReadAs (spelled ++ text) (Then (Single kind spelled) phrase) := by
  intro position rest later clear lexes
  rw [List.length_append, ← Nat.add_assoc] at lexes
  obtain ⟨tokens, whole, derived⟩ := reads clear lexes
  obtain ⟨first, others, rfl, isStarter⟩ := starts tokens derived
  have isSymbol := Lexeme.ofSymbol?_eq_some_iff.mp known
  have parted := Lexeme.parted_symbol isSymbol (whole.head_ne_equals isStarter)
  have shown := whole.spelled_append (.symbol isSymbol) parted fun isSlash => absurd isSlash noSlash
  rw [← List.append_assoc] at shown
  exact ⟨_, shown, [_], _, rfl, ⟨_, rfl⟩, derived⟩

end ReadAs

end SinosLang
