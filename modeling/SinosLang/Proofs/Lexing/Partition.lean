import SinosLang.Proofs.Lexing.Readings
import Mathlib

/-!
# A text as trivia and lexemes

What the lexer makes of a text is said here without the lexer. From left to right a text falls into
trivia and lexemes, each as long as it can be where it stands: the trivia up to the first character
that is neither a blank nor the start of a comment, a lexeme up to where its class ends. The tokens
are the lexemes with their places, and nothing of the text is lost between them.

Main statement: `tokenize_partitions`, a source is split into tokens exactly if its text falls apart
in this way, and the tokens then cover all of the text that is no trivia.
-/

set_option autoImplicit false

namespace SinosLang

open Lexeme (triviaLength commentStart Parted)

/-! ## Trivia -/

/-- The trivia in front of what stands behind them: blanks, and comments that run up to a newline or
to the end. They are all of the trivia there, so neither a blank nor a comment comes next. -/
inductive Skips : Text → Text → Prop
  | nothing {behind : Text} : (∀ c, behind.head? = some c → Text.isBlank c = false) →
    ¬commentStart <+: behind → Skips [] behind
  | blank {c : Char} {skipped behind : Text} :
    Text.isBlank c = true → Skips skipped behind → Skips (c :: skipped) behind
  | comment {body skipped behind : Text} : '\n' ∉ body →
    (∀ c, (skipped ++ behind).head? = some c → c = '\n') → Skips skipped behind →
    Skips (commentStart ++ body ++ skipped) behind

namespace Skips

variable {skipped behind : Text}

/-- A comment is skipped up to the newline behind it. -/
theorem triviaLength_comment {body rest : Text} (oneLine : '\n' ∉ body)
    (ends : ∀ c, rest.head? = some c → c = '\n') :
    triviaLength true (body ++ rest) = body.length + triviaLength false rest := by
  induction body with
  | nil =>
    cases rest with
    | nil => rfl
    | cons c rest =>
      obtain rfl := ends c rfl
      have blank : Text.isBlank '\n' = true := by decide
      simp [triviaLength, blank]
  | cons c body ih =>
    rw [List.mem_cons, not_or] at oneLine
    have inside : (c != '\n') = true := bne_iff_ne.mpr (Ne.symm oneLine.1)
    rw [List.cons_append, triviaLength, if_pos rfl, inside, ih oneLine.2, List.length_cons]
    omega

/-- The lexer skips as many characters as there are trivia. -/
theorem triviaLength_eq (skips : Skips skipped behind) :
    triviaLength false (skipped ++ behind) = skipped.length := by
  induction skips with
  | @nothing behind noBlank noComment =>
    cases behind with
    | nil => rfl
    | cons c rest =>
      have notComment : ¬(c == '/' && rest.head? == some '/') = true := by
        intro comment
        simp only [Bool.and_eq_true, beq_iff_eq, List.head?_eq_some_iff] at comment
        obtain ⟨rfl, rest, rfl⟩ := comment
        exact noComment ⟨rest, rfl⟩
      simp [triviaLength, noBlank c rfl, notComment]
  | blank isBlank _ ih =>
    rw [List.cons_append, triviaLength, if_neg Bool.false_ne_true, if_pos isBlank, ih,
      List.length_cons]
  | @comment body skipped behind oneLine ends _ ih =>
    have notBlank : Text.isBlank '/' = false := by decide
    have body_eq := triviaLength_comment
      (List.not_mem_cons_of_ne_of_not_mem (by decide : '\n' ≠ '/') oneLine) ends
    rw [List.cons_append, ih] at body_eq
    simp only [commentStart, List.cons_append, List.nil_append, List.append_assoc]
    rw [triviaLength, if_neg Bool.false_ne_true, notBlank, if_neg Bool.false_ne_true,
      if_pos (by rfl), body_eq]
    simp only [List.length_cons, List.length_append]
    omega

/-- Whatever is skipped inside of a comment is the rest of the comment and the trivia behind it. -/
def EndsComment (skipped behind : Text) : Prop :=
  ∃ body rest, skipped = body ++ rest ∧ '\n' ∉ body ∧
    (∀ c, (rest ++ behind).head? = some c → c = '\n') ∧ Skips rest behind

/-- What the lexer skips are trivia, and the rest of a comment before them if it begins in one. -/
theorem of_triviaLength {inComment : Bool} {text : Text} (split : text = skipped ++ behind)
    (length_eq : triviaLength inComment text = skipped.length) :
    if inComment then EndsComment skipped behind else Skips skipped behind := by
  fun_induction triviaLength inComment text generalizing skipped with
  | case1 inComment =>
    obtain ⟨rfl, rfl⟩ := List.append_eq_nil_iff.mp split.symm
    have none : Skips [] [] := .nothing (fun _ head => by cases head) (by decide)
    cases inComment with
    | false => exact none
    | true => exact ⟨[], [], rfl, List.not_mem_nil, fun _ head => (by cases head), none⟩
  | case2 c rest ih =>
    cases skipped with
    | nil => cases length_eq
    | cons first skipped =>
      obtain ⟨rfl, rfl⟩ := List.cons.inj split
      have later := ih rfl (Nat.succ.inj length_eq)
      by_cases isNewline : c = '\n'
      · subst isNewline
        exact ⟨[], '\n' :: skipped, rfl, List.not_mem_nil, fun _ head => (by cases head; rfl),
          .blank (by decide) later⟩
      · rw [if_pos (bne_iff_ne.mpr isNewline)] at later
        obtain ⟨body, rest, rfl, oneLine, ends, skips⟩ := later
        exact ⟨c :: body, rest, rfl,
          List.not_mem_cons_of_ne_of_not_mem (Ne.symm isNewline) oneLine, ends, skips⟩
  | case3 inComment c rest notIn isBlank ih =>
    rw [if_neg notIn]
    cases skipped with
    | nil => cases length_eq
    | cons first skipped =>
      obtain ⟨rfl, rfl⟩ := List.cons.inj split
      exact .blank isBlank (ih rfl (Nat.succ.inj length_eq))
  | case4 inComment c rest notIn notBlank isComment ih =>
    rw [if_neg notIn]
    simp only [Bool.and_eq_true, beq_iff_eq, List.head?_eq_some_iff] at isComment
    obtain ⟨rfl, rest, rfl⟩ := isComment
    cases skipped with
    | nil => cases length_eq
    | cons first skipped =>
      obtain ⟨rfl, inside⟩ := List.cons.inj split
      obtain ⟨body, last, rfl, oneLine, ends, skips⟩ := ih inside (Nat.succ.inj length_eq)
      -- the second slash belongs to the comment, since it is no newline
      cases body with
      | nil =>
        have slash : '/' :: rest = last ++ behind := inside
        exact absurd (ends '/' (by rw [← slash]; rfl)) (by decide)
      | cons second body =>
        obtain rfl : '/' = second := (List.cons.inj inside).1
        exact .comment (fun isIn => oneLine (List.mem_cons_of_mem _ isIn)) ends skips
  | case5 inComment c rest notIn notBlank notComment =>
    rw [if_neg notIn]
    obtain rfl := List.eq_nil_of_length_eq_zero length_eq.symm
    rw [List.nil_append] at split
    subst split
    refine .nothing ?_ ?_
    · rintro _ ⟨⟩
      exact Bool.eq_false_iff.mpr notBlank
    · rintro ⟨later, same⟩
      cases same
      exact notComment rfl

/-- Trivia are what the lexer skips. -/
theorem iff_triviaLength :
    Skips skipped behind ↔ triviaLength false (skipped ++ behind) = skipped.length :=
  ⟨triviaLength_eq, fun length_eq => of_triviaLength rfl length_eq⟩

end Skips

/-! ## Lexemes -/

/-- The longest lexeme of its class in front of what stands behind it, with its kind and its
value. -/
inductive Munches : Text → TokenKind → Text → Text → Prop
  | letKeyword {behind : Text} :
    (∀ c, behind.head? = some c → Text.isIdentifierPart c = false) →
    Munches "let".toList .letKeyword "let".toList behind
  | truth {word behind : Text} : word = "true".toList ∨ word = "false".toList →
    (∀ c, behind.head? = some c → Text.isIdentifierPart c = false) →
    Munches word .bool word behind
  | name {word behind : Text} : word.IsWord →
    word ∉ ["let".toList, "true".toList, "false".toList] →
    (∀ c, behind.head? = some c → Text.isIdentifierPart c = false) →
    Munches word .ident word behind
  | int {digits behind : Text} : digits.IsNumeral → digits.length ≤ 4300 →
    (∀ c, behind.head? = some c → Text.isDigit c = false ∧ c ≠ '.') →
    Munches digits .int digits behind
  | float {whole fraction behind : Text} : whole.IsNumeral → fraction.IsNumeral →
    (Binary64.ofLiteral (whole ++ '.' :: fraction)).isInfinite = false →
    (∀ c, behind.head? = some c → Text.isDigit c = false ∧ c ≠ '.') →
    Munches (whole ++ '.' :: fraction) .float (whole ++ '.' :: fraction) behind
  | string {body content behind : Text} : Text.Quotes body content →
    Munches ('"' :: body ++ ['"']) .string content behind
  | symbol {text behind : Text} {kind : TokenKind} : (text, kind) ∈ TokenKind.symbols →
    (∀ entry ∈ TokenKind.symbols, entry.1 <+: text ++ behind → entry.1.length ≤ text.length) →
    Munches text kind text behind

namespace Munches

variable {spelled value behind : Text} {kind : TokenKind}

/-- No symbol is longer than one to which nothing joins on. -/
theorem longest_symbol (isSymbol : (spelled, kind) ∈ TokenKind.symbols) :
    Parted spelled kind behind ↔
      ∀ entry ∈ TokenKind.symbols, entry.1 <+: spelled ++ behind →
        entry.1.length ≤ spelled.length := by
  have sizes : ∀ entry ∈ TokenKind.symbols, 1 ≤ entry.1.length ∧ entry.1.length ≤ 2 := by decide
  constructor
  · intro parted entry isEntry atFront
    by_contra longer
    have : spelled.length = 1 ∧ entry.1.length = 2 := by
      have := sizes entry isEntry
      have : 1 ≤ spelled.length := (sizes _ isSymbol).1
      omega
    obtain ⟨c, rfl⟩ := List.length_eq_one_iff.mp this.1
    obtain ⟨⟨pair, kind'⟩, rfl⟩ : ∃ same, entry = same := ⟨_, rfl⟩
    obtain ⟨first, next, rfl⟩ := List.length_eq_two.mp this.2
    obtain ⟨later, same⟩ := atFront
    cases behind with
    | nil => cases same
    | cons d behind =>
      cases same
      have alone := parted next rfl
      rw [Lexeme.joins_symbol isSymbol, List.singleton_append,
        Lexeme.ofSymbol?_eq_some_iff.mpr isEntry] at alone
      cases alone
  · intro longest next head
    rw [Lexeme.joins_symbol isSymbol, Option.isSome_eq_false_iff, Option.isNone_iff_eq_none]
    by_contra pair
    obtain ⟨kind', known⟩ := Option.ne_none_iff_exists'.mp pair
    obtain ⟨later, rfl⟩ := List.head?_eq_some_iff.mp head
    have := longest _ (Lexeme.ofSymbol?_eq_some_iff.mp known) ⟨later, by simp⟩
    rw [List.length_append, List.length_singleton] at this
    omega

/-- The words that are no identifiers are `let`, `true` and `false`. -/
theorem ofWord_eq (word : Text) :
    TokenKind.ofWord word = if word = "let".toList then .letKeyword
      else if word = "true".toList ∨ word = "false".toList then .bool else .ident := by
  by_cases isLet : word = "let".toList
  · subst isLet
    decide
  · by_cases isTrue : word = "true".toList
    · subst isTrue
      decide
    · by_cases isFalse : word = "false".toList
      · subst isFalse
        decide
      · rw [if_neg isLet, if_neg (not_or.mpr ⟨isTrue, isFalse⟩)]
        unfold TokenKind.ofWord TokenKind.keywords
        rw [List.lookup_cons, beq_false_of_ne isLet, List.lookup_cons, beq_false_of_ne isTrue,
          List.lookup_cons, beq_false_of_ne isFalse]
        rfl

/-- A word is as long as it can be where no character behind it could continue it. -/
theorem spells_word (isWord : spelled.IsWord) (isKind : TokenKind.ofWord spelled = kind)
    (ends : ∀ c, behind.head? = some c → Text.isIdentifierPart c = false) :
    Spells spelled kind spelled ∧ Parted spelled kind behind := by
  subst isKind
  refine ⟨.word isWord, fun c head => ?_⟩
  rw [Lexeme.joins_word]
  exact ends c head

/-- A lexeme is the longest of its class exactly if it is a spelling to which nothing joins on. -/
theorem iff_spells :
    Munches spelled kind value behind ↔ Spells spelled kind value ∧ Parted spelled kind behind := by
  constructor
  · intro munches
    cases munches with
    | letKeyword ends =>
      exact spells_word (Text.isWord_cons (by decide) (by decide)) (by decide) ends
    | truth isTruth ends =>
      rcases isTruth with rfl | rfl <;>
        exact spells_word (Text.isWord_cons (by decide) (by decide)) (by decide) ends
    | name isWord noKeyword ends =>
      simp only [List.mem_cons, List.not_mem_nil, or_false, not_or] at noKeyword
      exact spells_word isWord (by simp only [ofWord_eq, noKeyword, or_self, if_false]) ends
    | int digits short ends =>
      refine ⟨.int digits short, fun c head => ?_⟩
      simp [Lexeme.joins, ends c head]
    | float digits decimals bounded ends =>
      refine ⟨.float digits decimals bounded, fun c head => ?_⟩
      simp [Lexeme.joins, ends c head]
    | string quotes => exact ⟨.string quotes, fun _ _ => rfl⟩
    | symbol isSymbol longest => exact ⟨.symbol isSymbol, (longest_symbol isSymbol).mpr longest⟩
  · rintro ⟨spells, parted⟩
    cases spells with
    | word isWord =>
      have ends (c : Char) (head : behind.head? = some c) : Text.isIdentifierPart c = false := by
        rw [← Lexeme.joins_word spelled spelled]
        exact parted c head
      rw [ofWord_eq]
      split
      next isLet =>
        subst isLet
        exact .letKeyword ends
      next notLet =>
        split
        next isTruth => exact .truth isTruth ends
        next notTruth =>
          refine .name isWord ?_ ends
          simp only [List.mem_cons, List.not_mem_nil, or_false]
          exact not_or.mpr ⟨notLet, notTruth⟩
    | int digits short =>
      refine .int digits short fun c head => ?_
      simpa [Lexeme.joins] using parted c head
    | float digits decimals bounded =>
      refine .float digits decimals bounded fun c head => ?_
      simpa [Lexeme.joins] using parted c head
    | string quotes => exact .string quotes
    | symbol isSymbol => exact .symbol isSymbol ((longest_symbol isSymbol).mp parted)

end Munches

/-! ## Texts -/

/-- From a position on, a text falls into trivia and lexemes, the lexemes of the given tokens. -/
inductive Partition : Nat → Text → List Token → Prop
  | finish {position : Nat} {skipped : Text} : Skips skipped [] → Partition position skipped []
  | lexeme {position : Nat} {skipped spelled value behind : Text} {kind : TokenKind}
      {tokens : List Token} :
    Skips skipped (spelled ++ behind) → Munches spelled kind value behind →
    Partition (position + skipped.length + spelled.length) behind tokens →
    Partition position (skipped ++ (spelled ++ behind))
      (⟨kind, value, ⟨position + skipped.length, spelled.length⟩⟩ :: tokens)

/-- The tokens of a text are the lexemes into which it falls apart. -/
theorem Partition.iff_lexes {position : Nat} {text : Text} {tokens : List Token} :
    Partition position text tokens ↔ Lexes position text tokens := by
  constructor
  · intro partition
    induction partition with
    | @finish _ skipped skips =>
      have length_eq := skips.triviaLength_eq
      rw [List.append_nil] at length_eq
      exact .done (by rw [length_eq, List.drop_length])
    | @lexeme _ skipped spelled _ behind _ _ skips munches _ ih =>
      have length_eq := skips.triviaLength_eq
      obtain ⟨spells, parted⟩ := Munches.iff_spells.mp munches
      rw [← length_eq] at ih ⊢
      exact .token (by rw [length_eq, List.drop_left]) spells parted ih
  · intro lexes
    -- the trivia are the characters that the lexer drops
    have front (text : Text) : (text.take (triviaLength false text)).length =
        triviaLength false text :=
      List.length_take_of_le (Lexeme.triviaLength_le false text)
    have skips (text : Text) : Skips (text.take (triviaLength false text))
        (text.drop (triviaLength false text)) :=
      Skips.iff_triviaLength.mpr (by rw [List.take_append_drop, front])
    induction lexes with
    | @done _ text nothing =>
      have whole := skips text
      have text_eq := List.take_append_drop (triviaLength false text) text
      rw [nothing] at whole text_eq
      rw [List.append_nil] at text_eq
      rw [text_eq] at whole
      exact .finish whole
    | @token position text spelled _ rest _ _ shape spells parted _ ih =>
      have munches := Munches.iff_spells.mpr ⟨spells, parted⟩
      have before := skips text
      have text_eq := List.take_append_drop (triviaLength false text) text
      rw [shape] at before text_eq
      rw [← front text] at ih ⊢
      have placed := @Partition.lexeme position _ _ _ _ _ _ before munches ih
      rwa [text_eq] at placed

/-- What a token carries: nothing at the end, the content of a string, and else its own text. -/
def Source.Carries (source : Source) (token : Token) : Prop :=
  match token.kind with
  | .eof => token.value = []
  | .string => ∃ body, source.slice token.span = '"' :: body ++ ['"'] ∧
      Text.Quotes body token.value
  | _ => token.value = source.slice token.span

/-- Tokens cover all of a source that is no trivia: they stand one behind the other, nothing but
trivia stands before each of them, the last one is the end of the source, and each carries what it
covers. -/
structure Source.Covered (source : Source) (tokens : List Token) : Prop where
  filled : ∀ token ∈ tokens, token.kind ≠ .eof → 0 < token.span.length
  ordered : tokens.Pairwise fun first second =>
    first.span.index < second.span.index ∧ first.span.stop ≤ second.span.index
  between : ∀ front token back, tokens = front ++ token :: back →
    let start := (front.getLast?.map fun last => last.span.stop).getD 0
    ∃ skipped, token.span.index = start + skipped.length ∧
      source.text.drop start = skipped ++ source.text.drop token.span.index ∧
      Skips skipped (source.text.drop token.span.index)
  ended : tokens.getLast? = some ⟨.eof, [], ⟨source.size, 0⟩⟩
  carried : ∀ token ∈ tokens, source.Carries token

namespace Partition

variable {source : Source} {position : Nat} {text : Text} {tokens : List Token}

/-- A lexeme is carried as the value of its token, a string by its content. -/
theorem carries_lexeme {spelled value behind : Text} {kind : TokenKind} {span : Span}
    (munches : Munches spelled kind value behind) (covers : source.slice span = spelled) :
    source.Carries ⟨kind, value, span⟩ := by
  cases munches with
  | letKeyword _ | truth _ _ | name _ _ _ | int _ _ _ | float _ _ _ _ => exact covers.symm
  | @string body _ _ quotes => exact ⟨body, covers, quotes⟩
  | symbol isSymbol _ =>
    have others : ∀ entry ∈ TokenKind.symbols, entry.2 ≠ .eof ∧ entry.2 ≠ .string := by decide
    obtain ⟨notEnd, notString⟩ : kind ≠ .eof ∧ kind ≠ .string := others _ isSymbol
    unfold Source.Carries
    split
    next isEnd => exact absurd isEnd notEnd
    next isString => exact absurd isString notString
    next => exact covers.symm

/-- The tokens of a partition of the text behind a position are carried by the source. -/
theorem carried (partition : Partition position text tokens)
    (shape : source.text.drop position = text) : ∀ token ∈ tokens, source.Carries token := by
  induction partition with
  | finish => exact fun _ isIn => absurd isIn List.not_mem_nil
  | @lexeme position skipped spelled value behind kind tokens skips munches _ ih =>
    have atLexeme : source.text.drop (position + skipped.length) = spelled ++ behind := by
      rw [← List.drop_drop, shape, List.drop_left]
    refine List.forall_mem_cons.mpr ⟨carries_lexeme munches ?_, ih ?_⟩
    · rw [Source.slice, atLexeme, List.take_left]
    · rw [← List.drop_drop, atLexeme, List.drop_left]

/-- Only trivia stand before each of the tokens and before the end. -/
theorem between (partition : Partition position text tokens)
    (shape : source.text.drop position = text) (inside : position ≤ source.size)
    {front back : List Token} {token : Token}
    (split : tokens ++ [source.endToken] = front ++ token :: back) :
    let start := (front.getLast?.map fun last => last.span.stop).getD position
    ∃ skipped, token.span.index = start + skipped.length ∧
      source.text.drop start = skipped ++ source.text.drop token.span.index ∧
      Skips skipped (source.text.drop token.span.index) := by
  have size_eq := source.size_eq
  induction partition generalizing front with
  | @finish position skipped skips =>
    have length_eq := congrArg List.length shape
    rw [List.length_drop] at length_eq
    cases front with
    | nil =>
      obtain ⟨rfl, _⟩ := List.cons.inj split
      have nothing : source.text.drop source.size = [] := by
        rw [size_eq, List.drop_length]
      refine ⟨skipped, ?_, ?_, ?_⟩
      · show source.size = position + skipped.length
        omega
      · show source.text.drop position = skipped ++ source.text.drop source.size
        rw [nothing, List.append_nil, shape]
      · show Skips skipped (source.text.drop source.size)
        rwa [nothing]
    | cons first front =>
      obtain ⟨_, empty⟩ := List.cons.inj split
      exact absurd empty.symm (by simp)
  | @lexeme position skipped spelled value behind kind tokens skips munches _ ih =>
    have atLexeme : source.text.drop (position + skipped.length) = spelled ++ behind := by
      rw [← List.drop_drop, shape, List.drop_left]
    cases front with
    | nil =>
      obtain ⟨rfl, _⟩ := List.cons.inj split
      refine ⟨skipped, rfl, ?_, ?_⟩
      · show source.text.drop position = skipped ++ source.text.drop (position + skipped.length)
        rw [atLexeme, shape]
      · show Skips skipped (source.text.drop (position + skipped.length))
        rwa [atLexeme]
    | cons first front =>
      obtain ⟨rfl, later⟩ := List.cons.inj split
      have length_eq := congrArg List.length shape
      simp only [List.length_drop, List.length_append] at length_eq
      have found := ih (by rw [← List.drop_drop, atLexeme, List.drop_left]) (by omega) later
      cases front with
      | nil => exact found
      | cons next front =>
        rw [List.getLast?_cons_cons]
        rw [List.getLast?_eq_some_getLast (List.cons_ne_nil next front)] at found ⊢
        exact found

/-- The tokens into which a source falls apart, with the end behind them, cover it. -/
theorem covered (partition : Partition 0 source.text tokens) :
    source.Covered (tokens ++ [source.endToken]) := by
  have lexes := iff_lexes.mp partition
  have filled : ∀ token ∈ tokens, 0 < token.span.length := by
    intro token isIn
    exact lexes.length_pos token isIn
  have size_eq := source.size_eq
  refine ⟨?_, ?_, ?_, ?_, ?_⟩
  · intro token isIn notEnd
    rcases List.mem_append.mp isIn with inner | isLast
    · exact filled token inner
    · exact absurd (congrArg Token.kind (List.mem_singleton.mp isLast)) notEnd
  · refine List.pairwise_append.mpr ⟨?_, List.pairwise_singleton _ _, ?_⟩
    · refine lexes.ordered.imp_of_mem fun {first second} isIn _ le => ⟨?_, le⟩
      have := filled first isIn
      simp only [Span.stop] at le
      omega
    · intro token isIn last isLast
      obtain rfl := List.mem_singleton.mp isLast
      have positive := filled token isIn
      have inside := (lexes.inside token isIn).2
      simp only [Source.endToken, Span.stop] at inside ⊢
      omega
  · exact fun front token back split => partition.between rfl (Nat.zero_le _) split
  · exact List.getLast?_concat
  · intro token isIn
    rcases List.mem_append.mp isIn with inner | isLast
    · exact partition.carried rfl token inner
    · rw [List.mem_singleton.mp isLast]
      exact rfl

end Partition

namespace Source

/-- A source is split into tokens exactly if its text falls into trivia and lexemes, and the tokens
are then these lexemes with the end of the text behind them. They cover all of the source that is no
trivia. -/
theorem tokenize_partitions (source : Source) (all : List Token) :
    (source.tokenize.result = .ok all ↔
      ∃ tokens, Partition 0 source.text tokens ∧
        all = tokens ++ [⟨.eof, [], ⟨source.size, 0⟩⟩]) ∧
    (source.tokenize.result = .ok all → source.Covered all) := by
  have splits : source.tokenize.result = .ok all ↔ ∃ tokens, Partition 0 source.text tokens ∧
      all = tokens ++ [⟨.eof, [], ⟨source.size, 0⟩⟩] := by
    simp only [tokenize_eq_ok_iff, Partition.iff_lexes]
    rfl
  refine ⟨splits, fun tokenized => ?_⟩
  obtain ⟨tokens, partition, rfl⟩ := splits.mp tokenized
  exact partition.covered

/-- A comment that ends with its line, before a comparison and a string. -/
theorem tokenize_partitions_comment :
    (ofText [] "a// b\n==\"\\n\"".toList).Covered
      [⟨.ident, ['a'], ⟨0, 1⟩⟩, ⟨.eq, ['=', '='], ⟨6, 2⟩⟩, ⟨.string, ['\n'], ⟨8, 4⟩⟩,
        ⟨.eof, [], ⟨12, 0⟩⟩] := by
  have tokenized : (ofText [] "a// b\n==\"\\n\"".toList).tokenize.result = .ok
      [⟨.ident, ['a'], ⟨0, 1⟩⟩, ⟨.eq, ['=', '='], ⟨6, 2⟩⟩, ⟨.string, ['\n'], ⟨8, 4⟩⟩,
        ⟨.eof, [], ⟨12, 0⟩⟩] := by cbv
  exact (tokenize_partitions _ _).2 tokenized

end Source

end SinosLang
