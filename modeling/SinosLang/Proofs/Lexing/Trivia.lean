import SinosLang.Proofs.Lexing.Spelling

/-!
# Trivia

White space and comments are skipped before every token. How much is skipped is decided by the text
up to the first character that is not skipped, so cutting the text off behind that character changes
nothing. No spelling begins with trivia, but a slash followed by another one is a comment.

Main statements: `triviaLength_take` and `triviaLength_spelled`.
-/

set_option autoImplicit false

namespace SinosLang

namespace Text

/-- No blank starts an identifier. -/
theorem isIdentifierStart_of_blank {c : Char} (blank : isBlank c = true) :
    isIdentifierStart c = false := by
  have inside : inRanges (whiteSpaceRanges ++ [(0x1c, 0x1f)]) c = true := by
    rw [inRanges, List.any_append]
    exact blank
  exact isIdentifierStart_eq_false (by decide +kernel) inside

/-- No blank continues an identifier. -/
theorem isIdentifierPart_of_blank {c : Char} (blank : isBlank c = true) :
    isIdentifierPart c = false := by
  have inside : inRanges (whiteSpaceRanges ++ [(0x1c, 0x1f)]) c = true := by
    rw [inRanges, List.any_append]
    exact blank
  have noStart := isIdentifierStart_of_blank blank
  have noNumeral : inRanges numeralRanges c = false := inRanges_eq_false (by decide +kernel) inside
  have noDigit : isDigit c = false := by
    rw [Bool.eq_false_iff]
    intro digit
    have outside : inRanges (whiteSpaceRanges ++ [(0x1c, 0x1f)]) c = false :=
      inRanges_eq_false (by decide) (inRanges_of_isDigit digit)
    rw [inside] at outside
    cases outside
  rw [isIdentifierStart, Bool.or_eq_false_iff] at noStart
  simp [isIdentifierPart, isAlphanumeric, noStart, noNumeral, noDigit]

end Text

/-- A spelling starts as a word, as a numeral or with a quote, unless it is that of a symbol. -/
theorem Spells.exists_head {spelled value : Text} {kind : TokenKind}
    (spells : Spells spelled kind value) :
    ∃ first rest, spelled = first :: rest ∧ (Text.isIdentifierStart first = true ∨
      Text.isDigit first = true ∨ first = '"' ∨ (spelled, kind) ∈ TokenKind.symbols) := by
  cases spells with
  | word word =>
    obtain ⟨first, rest, rfl, start, _⟩ := word
    exact ⟨first, rest, rfl, .inl start⟩
  | int digits _ =>
    obtain ⟨first, rest, rfl⟩ := List.exists_cons_of_ne_nil digits.1
    exact ⟨first, rest, rfl, .inr (.inl (digits.2 first List.mem_cons_self))⟩
  | float digits _ _ =>
    obtain ⟨first, rest, rfl⟩ := List.exists_cons_of_ne_nil digits.1
    exact ⟨first, _, rfl, .inr (.inl (digits.2 first List.mem_cons_self))⟩
  | string _ => exact ⟨'"', _, rfl, .inr (.inr (.inl rfl))⟩
  | symbol isSymbol =>
    have filled : ∀ entry ∈ TokenKind.symbols, entry.1 ≠ [] := by decide
    obtain ⟨first, rest, rfl⟩ := List.exists_cons_of_ne_nil (filled _ isSymbol)
    exact ⟨first, rest, rfl, .inr (.inr (.inr isSymbol))⟩

/-- No token is spelled by nothing. -/
theorem Spells.ne_nil {spelled value : Text} {kind : TokenKind}
    (spells : Spells spelled kind value) : spelled ≠ [] := by
  obtain ⟨_, _, rfl, _⟩ := spells.exists_head
  exact List.cons_ne_nil _ _

/-- The end has no spelling. -/
theorem Spells.kind_ne_eof {spelled value : Text} {kind : TokenKind}
    (spells : Spells spelled kind value) : kind ≠ .eof := by
  cases spells with
  | word _ =>
    intro isEnd
    have := Lexeme.ofWord_mem spelled
    rw [isEnd] at this
    revert this
    decide
  | int _ _ | float _ _ _ | string _ => decide
  | symbol isSymbol =>
    have others : ∀ entry ∈ TokenKind.symbols, entry.2 ≠ .eof := by decide
    exact others _ isSymbol

/-- A spelling does not begin with a blank. -/
theorem Spells.head_not_blank {first : Char} {rest value : Text} {kind : TokenKind}
    (spells : Spells (first :: rest) kind value) : Text.isBlank first = false := by
  obtain ⟨_, _, ⟨⟩, start | digit | rfl | isSymbol⟩ := spells.exists_head
  · rw [Bool.eq_false_iff]
    intro blank
    rw [Text.isIdentifierStart_of_blank blank] at start
    cases start
  · have inside := Text.inRanges_of_isDigit digit
    rw [Text.isBlank, Text.isWhiteSpace, Text.inRanges_eq_false (by decide) inside,
      Text.inRanges_eq_false (by decide) inside]
    rfl
  · decide
  · have others : ∀ entry ∈ TokenKind.symbols,
        entry.1.head?.all (fun c => !Text.isBlank c) = true := by decide
    exact (Bool.not_eq_true' _).mp (others _ isSymbol)

namespace Lexeme

/-- No more is skipped than there is. -/
theorem triviaLength_le (inComment : Bool) (text : Text) :
    triviaLength inComment text ≤ text.length := by
  fun_induction triviaLength inComment text with
  | case1 => exact le_rfl
  | case2 c rest ih | case3 _ c rest _ _ ih | case4 _ c rest _ _ _ ih =>
    exact Nat.succ_le_succ ih
  | case5 => exact Nat.zero_le _

/-- Behind the trivia there is none. -/
theorem triviaLength_drop (inComment : Bool) (text : Text) :
    triviaLength false (text.drop (triviaLength inComment text)) = 0 := by
  fun_induction triviaLength inComment text with
  | case1 => rfl
  | case2 c rest ih | case3 _ c rest _ _ ih | case4 _ c rest _ _ _ ih => exact ih
  | case5 inComment c rest notIn notBlank notComment =>
    simp [triviaLength, notBlank, notComment]

/-- The trivia stay the same when the text is cut off behind the character after them. -/
theorem triviaLength_take (inComment : Bool) (text : Text) {size : Nat}
    (behind : triviaLength inComment text < size) :
    triviaLength inComment (text.take size) = triviaLength inComment text := by
  fun_induction triviaLength inComment text generalizing size with
  | case1 => rw [List.take_nil, triviaLength]
  | case2 c rest ih =>
    obtain ⟨size, rfl⟩ : ∃ fewer, size = fewer + 1 := ⟨size - 1, by omega⟩
    rw [List.take_succ_cons, triviaLength, if_pos rfl, ih (Nat.lt_of_succ_lt_succ behind)]
  | case3 inComment c rest notIn blank ih =>
    obtain ⟨size, rfl⟩ : ∃ fewer, size = fewer + 1 := ⟨size - 1, by omega⟩
    rw [List.take_succ_cons, triviaLength, if_neg notIn, if_pos blank,
      ih (Nat.lt_of_succ_lt_succ behind)]
  | case4 inComment c rest notIn notBlank comment ih =>
    obtain ⟨size, rfl⟩ : ∃ fewer, size = fewer + 2 := ⟨size - 2, by omega⟩
    have sameHead : (rest.take (size + 1)).head? = rest.head? := by
      cases rest <;> rfl
    rw [List.take_succ_cons, triviaLength, if_neg notIn, if_neg notBlank, sameHead, if_pos comment,
      ih (Nat.lt_of_succ_lt_succ behind)]
  | case5 inComment c rest notIn notBlank notComment =>
    obtain ⟨size, rfl⟩ : ∃ fewer, size = fewer + 1 := ⟨size - 1, by omega⟩
    have noComment : ¬(c == '/' && (rest.take size).head? == some '/') = true := by
      cases size with
      | zero => simp
      | succ size => cases rest <;> exact notComment
    rw [List.take_succ_cons, triviaLength, if_neg notIn, if_neg notBlank, if_neg noComment]

/-- A spelling is not skipped, unless two slashes meet. -/
theorem triviaLength_spelled {spelled value rest : Text} {kind : TokenKind}
    (spells : Spells spelled kind value) (noComment : spelled = ['/'] → rest.head? ≠ some '/') :
    triviaLength false (spelled ++ rest) = 0 := by
  obtain ⟨c, later, rfl, starts⟩ := spells.exists_head
  have notComment : ¬(c == '/' && (later ++ rest).head? == some '/') = true := by
    intro comment
    simp only [Bool.and_eq_true, beq_iff_eq] at comment
    obtain ⟨rfl, next⟩ := comment
    rcases starts with start | digit | quote | isSymbol
    · exact absurd start (by decide)
    · exact absurd digit (by decide)
    · exact absurd quote (by decide)
    · have single : ∀ entry ∈ TokenKind.symbols, entry.1.head? = some '/' → entry.1 = ['/'] := by
        decide
      cases single _ isSymbol rfl
      exact noComment rfl next
  rw [List.cons_append, triviaLength, if_neg Bool.false_ne_true, spells.head_not_blank,
    if_neg Bool.false_ne_true, if_neg notComment]

end Lexeme

end SinosLang
