import SinosLang.Proofs.Lexing.Faults
import SinosLang.Proofs.Lexing.ReadAs

/-!
# Quoting is undone by reading

The literal of a text is read as a string with that text as its content, whatever stands before and
behind it. A string can be written in other ways too, for a raw newline may stand in it and an escape
need not be used. Whatever a string was read from, the literal of its content is read as the same
string again, and quoting that gives the same literal.

Main statement: `literal_undone`.
-/

set_option autoImplicit false

namespace SinosLang

/-- Wherever the text stands, the next token is a string with the given content that covers the text,
and the stream is right behind it then. -/
def Text.ReadsString (text content : Text) : Prop :=
  ∀ name before after : Text, (Stream.amid name before text after).nextToken =
    (.ok ⟨.string, content, ⟨before.length, text.length⟩⟩,
      (Stream.amid name before text after).advance text.length)

namespace Text

variable {body content : Text}

/-- Nothing joins on to a closing quote. -/
theorem Quotes.readsString (quotes : Quotes body content) :
    ReadsString ('"' :: body ++ ['"']) content := by
  intro name before after
  apply Stream.nextToken_amid name before after (.string quotes)
  · intro next _
    rfl
  · intro isSlash
    simp at isSlash

/-- The literal of a text is read as a string of that text. -/
theorem readsString_literal (content : Text) : ReadsString (literal content) content :=
  (quotes_literal content).readsString

/-- A text is read as one string only. -/
theorem ReadsString.unique {text other : Text} (reads : text.ReadsString content)
    (again : text.ReadsString other) : other = content := by
  have same := (again [] [] []).symm.trans (reads [] [] [])
  simp only [Prod.mk.injEq, Except.ok.injEq, Token.mk.injEq] at same
  exact same.1.2.1

end Text

/-- The spellings of a string. -/
theorem Spells.of_string {spelled content : Text} (spells : Spells spelled .string content) :
    ∃ body, spelled = '"' :: body ++ ['"'] ∧ Text.Quotes body content := by
  generalize isString : TokenKind.string = kind at spells
  cases spells with
  | word _ =>
    have kinds := Lexeme.ofWord_mem spelled
    rw [← isString] at kinds
    exact absurd kinds (by decide)
  | int _ _ => cases isString
  | float _ _ _ => cases isString
  | string quotes => exact ⟨_, rfl, quotes⟩
  | symbol isSymbol =>
    have others : ∀ entry ∈ TokenKind.symbols, entry.2 ≠ .string := by decide
    exact absurd isString.symm (others _ isSymbol)

namespace Stream

variable {stream : Stream} {token : Token} {first : Char} {later : Text}

/-- The string that was read behind a character covers this character, what the quotes enclose, and
the closing quote. -/
theorem slice_of_string (shape : stream.rest = first :: later)
    (read : stream.meaning (Lexeme.stringAfter 1 [] later) = .ok token) :
    ∃ body, token.kind = .string ∧ stream.source.slice token.span = first :: body ++ ['"'] ∧
      Text.Quotes body token.value := by
  have takes := @Lexeme.stringAfter_takes 1 later [] Nat.one_pos
  have fits : (Lexeme.stringAfter 1 [] later).taken ≤ stream.rest.length := by
    rw [shape, List.length_cons, Nat.add_comm]
    exact takes.fits
  obtain ⟨isToken, placed⟩ :=
    (meaning_eq_ok_iff (inside_of_rest shape) fun _ _ _ => fits).mp read
  obtain ⟨body, rest, split, quotes, isString, size⟩ :=
    Lexeme.stringAfter_eq_token_iff.mp isToken
  refine ⟨body, isString, ?_, quotes⟩
  have behind : first :: later = (first :: body ++ ['"']) ++ rest := by
    simp [split]
  have length_eq : token.span.length = (first :: body ++ ['"']).length := by
    simp [size]
  rw [Source.slice, placed, ← stream.rest_eq, shape, behind, length_eq, List.take_left]

/-- A string that is asked for directly may begin with any character. -/
theorem slice_of_scanString (read : stream.scanString.1 = .ok token) :
    ∃ first body, token.kind = .string ∧
      stream.source.slice token.span = first :: body ++ ['"'] ∧ Text.Quotes body token.value := by
  unfold scanString at read
  cases shape : stream.rest with
  | nil =>
    rw [shape] at read
    cases read
  | cons first later =>
    rw [shape] at read
    exact ⟨first, slice_of_string shape read⟩

/-- A token that is read covers a spelling of itself. -/
theorem spells_slice (read : stream.nextToken.1 = .ok token) (notEnd : token.kind ≠ .eof) :
    Spells (stream.source.slice token.span) token.kind token.value := by
  cases shape : stream.skipTrivia.rest with
  | nil =>
    have ends : stream.skipTrivia.meaning ⟨0, .token .eof []⟩ = .ok token := by
      unfold nextToken at read
      dsimp only at read
      rwa [shape] at read
    have isEnd := found_of_meaning ends
    simp only [Found.token.injEq] at isEnd
    exact absurd isEnd.1.symm notEnd
  | cons first later =>
    have next : stream.nextToken = (.ok token, stream.nextToken.2) := Prod.ext read rfl
    obtain ⟨spelled, rest, split, spells, _, span_eq, _⟩ :=
      (nextToken_eq_ok_iff (inside_of_skipTrivia shape) shape).mp next
    have behind : stream.source.text.drop stream.skipTrivia.position = spelled ++ rest := by
      rw [← split, ← shape]
      exact stream.skipTrivia.rest_eq.symm
    have slice_eq : stream.source.slice token.span = spelled := by
      rw [span_eq]
      exact (congrArg (List.take spelled.length) behind).trans List.take_left
    rwa [slice_eq]

/-- The literal of a text is read as a string with that content, whatever stands around it. And a
string that was read, as the next token or because a string was asked for, has been written behind its
first character in one of the ways to write it: with a quote there, it is read as the same string
wherever it stands, and so is the literal of its content, which is the literal of what is read
again. -/
theorem literal_undone :
    (∀ content, (Text.literal content).ReadsString content) ∧
    ∀ (stream : Stream) (token : Token),
      (stream.nextToken.1 = .ok token ∧ token.kind = .string ∨ stream.scanString.1 = .ok token) →
      (∃ first body, stream.source.slice token.span = first :: body ++ ['"'] ∧
        Text.ReadsString ('"' :: body ++ ['"']) token.value) ∧
      (Text.literal token.value).ReadsString token.value ∧
      ∀ content, (Text.literal token.value).ReadsString content →
        Text.literal content = Text.literal token.value := by
  refine ⟨Text.readsString_literal, ?_⟩
  intro stream token read
  refine ⟨?_, Text.readsString_literal _, ?_⟩
  · rcases read with ⟨read, isString⟩ | read
    · have spells := spells_slice read (by simp [isString])
      rw [isString] at spells
      obtain ⟨body, slice_eq, quotes⟩ := spells.of_string
      exact ⟨'"', body, slice_eq, quotes.readsString⟩
    · obtain ⟨first, body, _, slice_eq, quotes⟩ := slice_of_scanString read
      exact ⟨first, body, slice_eq, quotes.readsString⟩
  · intro content again
    rw [(Text.readsString_literal token.value).unique again]

/-- A raw newline, which the literal of the content escapes. -/
theorem literal_undone_newline :
    let stream := startingAt (Source.ofText [] " \"a\n\"".toList) 0
    let token : Token := ⟨.string, ['a', '\n'], ⟨1, 4⟩⟩
    (stream.nextToken.1 = .ok token ∧ token.kind = .string) ∧
      (∃ first body, stream.source.slice token.span = first :: body ++ ['"'] ∧
        Text.ReadsString ('"' :: body ++ ['"']) token.value) ∧
      (Text.literal token.value).ReadsString token.value ∧
      ∀ content, (Text.literal token.value).ReadsString content →
        Text.literal content = Text.literal token.value := by
  intro stream token
  have read : stream.nextToken.1 = .ok token ∧ token.kind = .string := by decide
  exact ⟨read, literal_undone.2 stream token (.inl read)⟩

end Stream

end SinosLang
