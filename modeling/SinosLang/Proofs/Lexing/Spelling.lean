import SinosLang.Lexeme
import Mathlib.Data.List.TakeWhile

/-!
# The spellings of tokens

A token is spelled by the characters that the scanner takes for it. A scanner takes as many as it
can, so a spelling is what it takes exactly where the next character does not join on to it. Which
characters join on depends on the kind of the token; what comes after them never matters.

Main statement: `starting_eq_iff`, the scanner finds a token at the front of a text exactly where a
spelling of this token stands to which the character behind it does not join.
-/

set_option autoImplicit false

namespace SinosLang

namespace Text

/-- A word: a letter or an underscore, and characters that may continue an identifier. -/
def IsWord (text : Text) : Prop :=
  ∃ first rest, text = first :: rest ∧ isIdentifierStart first = true ∧
    ∀ c ∈ rest, isIdentifierPart c = true

/-- A numeral: one digit or more. -/
def IsNumeral (text : Text) : Prop :=
  text ≠ [] ∧ ∀ c ∈ text, isDigit c = true

/-- What stands between the quotes of a string literal, and the content that it stands for. -/
inductive Quotes : Text → Text → Prop
  | nil : Quotes [] []
  | plain {c : Char} {body content : Text} :
    c ≠ '"' → c ≠ '\\' → Quotes body content → Quotes (c :: body) (c :: content)
  | escaped {letter c : Char} {body content : Text} :
    unescape? letter = some c → Quotes body content → Quotes ('\\' :: letter :: body) (c :: content)

variable {p : Char → Bool} {front rest text : Text}

/-- A run of elements of a class, such as characters, ends at the first one outside the class. -/
theorem takeWhile_append {α : Type} {p : α → Bool} {front rest : List α}
    (inside : ∀ c ∈ front, p c = true)
    (boundary : ∀ c, rest.head? = some c → p c = false) :
    (front ++ rest).takeWhile p = front ∧ (front ++ rest).dropWhile p = rest := by
  rw [List.takeWhile_append_of_pos inside, List.dropWhile_append_of_pos inside]
  cases rest with
  | nil => exact ⟨List.append_nil _, rfl⟩
  | cons c rest => simp [boundary c rfl]

/-- A run of digits ends at a point. -/
theorem takeWhile_point {digits : Text} (inside : ∀ c ∈ digits, isDigit c = true)
    (afterPoint : Text) :
    (digits ++ '.' :: afterPoint).takeWhile isDigit = digits ∧
      (digits ++ '.' :: afterPoint).dropWhile isDigit = '.' :: afterPoint := by
  refine takeWhile_append inside ?_
  rintro c ⟨⟩
  decide

/-- Behind a run of characters of a class stands none of the class. -/
theorem head?_dropWhile {c : Char} (head : (text.dropWhile p).head? = some c) : p c = false := by
  have := List.head?_dropWhile_not p text
  rwa [head] at this

/-- A character that a word may start with, and parts of a word behind it, are a word. -/
theorem isWord_cons {first : Char} (start : isIdentifierStart first = true)
    (parts : rest.all isIdentifierPart = true) : IsWord (first :: rest) :=
  ⟨first, rest, rfl, start, List.all_eq_true.mp parts⟩

/-- All characters of a word are parts of a word. -/
theorem IsWord.all_parts (word : text.IsWord) : ∀ c ∈ text, isIdentifierPart c = true := by
  obtain ⟨first, rest, rfl, start, parts⟩ := word
  intro c isIn
  rcases List.mem_cons.mp isIn with rfl | later
  · exact isIdentifierPart_of_start start
  · exact parts c later

/-- What cannot continue an identifier stands in no word. -/
theorem IsWord.not_mem {c : Char} (word : text.IsWord) (outside : isIdentifierPart c = false) :
    c ∉ text := by
  intro isIn
  rw [word.all_parts c isIn] at outside
  cases outside

/-- A word is not empty. -/
theorem not_isWord_nil : ¬IsWord [] := by
  rintro ⟨_, _, shape, _⟩
  cases shape

/-! ## Classes apart -/

/-- Ranges that do not touch have no character in common. -/
theorem inRanges_eq_false {ranges others : List (Nat × Nat)}
    (disjoint : ∀ range ∈ ranges, ∀ other ∈ others, range.2 < other.1 ∨ other.2 < range.1) {c : Char}
    (inside : inRanges ranges c = true) : inRanges others c = false := by
  obtain ⟨range, isRange, within⟩ := List.any_eq_true.mp inside
  refine List.any_eq_false.mpr fun other isOther => ?_
  have := disjoint range isRange other isOther
  simp only [Bool.and_eq_true, decide_eq_true_eq] at within ⊢
  omega

/-- The ranges of the characters that may start an identifier. -/
def startRanges : List (Nat × Nat) :=
  [(0x41, 0x5a), (0x5f, 0x5f), (0x61, 0x7a)] ++ letterRanges

/-- The characters that a word may start with are in the ranges listed for them. -/
theorem inRanges_of_isIdentifierStart {c : Char} (start : isIdentifierStart c = true) :
    inRanges startRanges c = true := by
  rw [inRanges, startRanges, List.any_append, Bool.or_eq_true]
  simp only [isIdentifierStart, isLetter, Bool.or_eq_true, beq_iff_eq] at start
  rcases start with letter | rfl
  · split at letter
    next =>
      left
      have ascii : (decide ('A'.val ≤ c.val ∧ c.val ≤ 'Z'.val) ||
          decide ('a'.val ≤ c.val) && decide (c.val ≤ 'z'.val)) = true := letter
      simp only [Bool.or_eq_true, Bool.and_eq_true, decide_eq_true_eq,
        UInt32.le_iff_toNat_le] at ascii
      have bounds : 0x41 ≤ c.toNat ∧ c.toNat ≤ 0x5a ∨ 0x61 ≤ c.toNat ∧ c.toNat ≤ 0x7a := ascii
      simp only [List.any_cons, List.any_nil, Bool.or_eq_true, Bool.and_eq_true, decide_eq_true_eq]
      omega
    next => exact .inr letter
  · exact .inl rfl

/-- The code points of the digits lie between those of zero and nine. -/
theorem toNat_of_isDigit {c : Char} (digit : isDigit c = true) :
    0x30 ≤ c.toNat ∧ c.toNat ≤ 0x39 := by
  have ascii : (decide ('0'.val ≤ c.val) && decide (c.val ≤ '9'.val)) = true := digit
  simp only [Bool.and_eq_true, decide_eq_true_eq, UInt32.le_iff_toNat_le] at ascii
  exact ascii

/-- The digits are in the range from zero to nine. -/
theorem inRanges_of_isDigit {c : Char} (digit : isDigit c = true) :
    inRanges [(0x30, 0x39)] c = true := by
  simp [inRanges, toNat_of_isDigit digit]

/-- No character of ranges apart from those of the letters and the underscore starts an
identifier. -/
theorem isIdentifierStart_eq_false {ranges : List (Nat × Nat)}
    (disjoint : ∀ range ∈ ranges, ∀ other ∈ startRanges, range.2 < other.1 ∨ other.2 < range.1)
    {c : Char} (inside : inRanges ranges c = true) : isIdentifierStart c = false := by
  rw [Bool.eq_false_iff]
  intro start
  have outside := inRanges_eq_false disjoint inside
  rw [inRanges_of_isIdentifierStart start] at outside
  cases outside

/-- No digit starts an identifier. -/
theorem isIdentifierStart_of_digit {c : Char} (digit : isDigit c = true) :
    isIdentifierStart c = false :=
  isIdentifierStart_eq_false (by decide +kernel) (inRanges_of_isDigit digit)

end Text

/-- The spellings of a token of some kind and value. -/
inductive Spells : Text → TokenKind → Text → Prop
  | word {text : Text} : text.IsWord → Spells text (TokenKind.ofWord text) text
  | int {digits : Text} :
    digits.IsNumeral → digits.length ≤ Lexeme.maxDigits → Spells digits .int digits
  | float {whole fraction : Text} : whole.IsNumeral → fraction.IsNumeral →
    (Binary64.ofLiteral (whole ++ '.' :: fraction)).isInfinite = false →
    Spells (whole ++ '.' :: fraction) .float (whole ++ '.' :: fraction)
  | string {body content : Text} : Text.Quotes body content →
    Spells ('"' :: body ++ ['"']) .string content
  | symbol {text : Text} {kind : TokenKind} :
    (text, kind) ∈ TokenKind.symbols → Spells text kind text

namespace Lexeme

/-- Whether a character directly behind a spelling would be taken together with it. -/
def joins (spelled : Text) (kind : TokenKind) (next : Char) : Bool :=
  match kind with
  | .letKeyword | .bool | .ident => Text.isIdentifierPart next
  | .int | .float => Text.isDigit next || next == '.'
  | .string => false
  | _ => (TokenKind.ofSymbol? (spelled ++ [next])).isSome

/-- The text behind a spelling does not begin with a character that joins on to it. -/
def Parted (spelled : Text) (kind : TokenKind) (rest : Text) : Prop :=
  ∀ next, rest.head? = some next → joins spelled kind next = false

variable {first : Char} {text spelled value rest : Text} {taken : Nat} {kind : TokenKind}

/-- A word is a keyword, a truth value or an identifier. -/
theorem ofWord_mem (word : Text) : TokenKind.ofWord word ∈ [.letKeyword, .bool, .ident] := by
  unfold TokenKind.ofWord
  cases found : TokenKind.keywords.lookup word with
  | none => decide
  | some kind =>
    obtain ⟨_, _, shape, _⟩ := List.lookup_eq_some_iff.mp found
    have kinds : ∀ entry ∈ TokenKind.keywords, entry.2 ∈ [TokenKind.letKeyword, .bool, .ident] := by
      decide
    refine kinds (word, kind) ?_
    rw [shape]
    exact List.mem_append_right _ List.mem_cons_self

/-- What joins on to a word is what may be part of one. -/
theorem joins_word (spelled word : Text) (next : Char) :
    joins spelled (TokenKind.ofWord word) next = Text.isIdentifierPart next := by
  have := ofWord_mem word
  simp only [List.mem_cons, List.not_mem_nil, or_false] at this
  rcases this with h | h | h <;> rw [h] <;> rfl

/-- The kinds of symbols are told apart from the other kinds, which have spellings of their own. -/
theorem joins_symbol (isSymbol : (text, kind) ∈ TokenKind.symbols) (next : Char) :
    joins spelled kind next = (TokenKind.ofSymbol? (spelled ++ [next])).isSome := by
  have others : ∀ entry ∈ TokenKind.symbols, entry.2 ∉
      [TokenKind.letKeyword, .bool, .ident, .int, .float, .string] := by decide
  have outside : kind ∉ [TokenKind.letKeyword, .bool, .ident, .int, .float, .string] :=
    others _ isSymbol
  cases kind <;> first | rfl | exact absurd (by decide) outside

/-! ## Words -/

/-- A word to which nothing joins on is taken whole, as the token that it spells. -/
theorem identifier_eq (word : spelled.IsWord)
    (parted : Parted spelled (TokenKind.ofWord spelled) rest) :
    identifier (spelled ++ rest) =
      ⟨spelled.length, .token (TokenKind.ofWord spelled) spelled⟩ := by
  have boundary : ∀ c, rest.head? = some c → Text.isIdentifierPart c = false := by
    intro c head
    rw [← joins_word spelled spelled]
    exact parted c head
  obtain ⟨run, _⟩ := Text.takeWhile_append word.all_parts boundary
  simp only [identifier, run]

/-- What is taken as a word spells its token, and nothing joins on. -/
theorem identifier_found (start : Text.isIdentifierStart first = true)
    (found : identifier (first :: text) = ⟨taken, .token kind value⟩) :
    ∃ spelled rest, first :: text = spelled ++ rest ∧ spelled.length = taken ∧
      Spells spelled kind value ∧ Parted spelled kind rest := by
  simp only [identifier, mk.injEq, Found.token.injEq] at found
  obtain ⟨rfl, rfl, rfl⟩ := found
  refine ⟨_, _, List.takeWhile_append_dropWhile.symm, rfl, .word ?_, fun next head => ?_⟩
  · rw [List.takeWhile_cons_of_pos (Text.isIdentifierPart_of_start start)]
    exact ⟨first, _, rfl, start, fun c isIn => List.mem_takeWhile_imp isIn⟩
  · rw [joins_word]
    exact Text.head?_dropWhile head

/-! ## Numbers -/

/-- A numeral that is short enough and to which nothing joins on is taken whole, as an integer. -/
theorem number_eq_int (digits : spelled.IsNumeral) (short : spelled.length ≤ maxDigits)
    (parted : Parted spelled .int rest) :
    number (spelled ++ rest) = ⟨spelled.length, .token .int spelled⟩ := by
  have boundary : ∀ c, rest.head? = some c → Text.isDigit c = false ∧ c ≠ '.' := by
    intro c head
    simpa [joins] using parted c head
  obtain ⟨run, after⟩ := Text.takeWhile_append digits.2 fun c head => (boundary c head).1
  have filled : spelled.isEmpty = false := List.isEmpty_eq_false_iff.mpr digits.1
  unfold number
  rw [after, run]
  split
  next afterPoint => exact absurd rfl (boundary '.' rfl).2
  next => simp [filled, Nat.not_lt.mpr short]

/-- The digits before a point are read as far as the point. -/
theorem number_pointed {whole : Text} (digits : whole.IsNumeral) (afterPoint : Text) :
    number (whole ++ '.' :: afterPoint) = fractional whole afterPoint := by
  obtain ⟨run, after⟩ := Text.takeWhile_point digits.2 afterPoint
  simp only [number, run, after]

/-- Two numerals around a point that are not too large and to which nothing joins on are taken
whole, as a number with a point. -/
theorem number_eq_float {whole fraction : Text} (digits : whole.IsNumeral)
    (decimals : fraction.IsNumeral)
    (bounded : (Binary64.ofLiteral (whole ++ '.' :: fraction)).isInfinite = false)
    (parted : Parted (whole ++ '.' :: fraction) .float rest) :
    number (whole ++ '.' :: fraction ++ rest) =
      ⟨(whole ++ '.' :: fraction).length, .token .float (whole ++ '.' :: fraction)⟩ := by
  have boundary : ∀ c, rest.head? = some c → Text.isDigit c = false ∧ c ≠ '.' := by
    intro c head
    simpa [joins] using parted c head
  obtain ⟨run, after⟩ := Text.takeWhile_append decimals.2 fun c head => (boundary c head).1
  have filled : fraction.isEmpty = false := List.isEmpty_eq_false_iff.mpr decimals.1
  have noPoint : (rest.head? == some '.') = false := by
    rw [beq_eq_false_iff_ne]
    exact fun head => (boundary '.' head).2 rfl
  rw [List.append_assoc, List.cons_append, number_pointed digits]
  simp only [fractional, run, after, filled, noPoint, bounded, Bool.false_eq_true, if_false]

/-- What is taken as a number with a point spells its token, and nothing joins on. -/
theorem fractional_found {whole afterPoint : Text} (digits : whole.IsNumeral)
    (found : fractional whole afterPoint = ⟨taken, .token kind value⟩) :
    ∃ spelled rest, whole ++ '.' :: afterPoint = spelled ++ rest ∧ spelled.length = taken ∧
      Spells spelled kind value ∧ Parted spelled kind rest := by
  unfold fractional at found
  have fraction_eq := (@List.takeWhile_append_dropWhile _ Text.isDigit afterPoint).symm
  have decimals : ∀ c ∈ afterPoint.takeWhile Text.isDigit, Text.isDigit c = true :=
    fun c isIn => List.mem_takeWhile_imp isIn
  have noDecimal {c : Char} (head : (afterPoint.dropWhile Text.isDigit).head? = some c) :
      Text.isDigit c = false := Text.head?_dropWhile head
  generalize afterPoint.takeWhile Text.isDigit = fraction at fraction_eq decimals found
  generalize afterPoint.dropWhile Text.isDigit = rest at fraction_eq noDecimal found
  dsimp only at found
  split at found
  next => cases found
  next notEmpty =>
    split at found
    next => cases found
    next noPoint =>
      split at found
      next => cases found
      next bounded =>
        cases found
        refine ⟨whole ++ '.' :: fraction, rest, ?_, rfl, .float digits ⟨?_, decimals⟩ ?_, ?_⟩
        · rw [fraction_eq, List.append_assoc, List.cons_append]
        · exact fun isEmpty => notEmpty (by rw [isEmpty]; rfl)
        · exact Bool.eq_false_iff.mpr bounded
        · intro next head
          have notPoint : next ≠ '.' := by
            rintro rfl
            exact noPoint (by rw [head]; rfl)
          simp [joins, noDecimal head, notPoint]

/-- What is taken as a number spells its token, and nothing joins on. -/
theorem number_found (digit : Text.isDigit first = true)
    (found : number (first :: text) = ⟨taken, .token kind value⟩) :
    ∃ spelled rest, first :: text = spelled ++ rest ∧ spelled.length = taken ∧
      Spells spelled kind value ∧ Parted spelled kind rest := by
  have whole_eq := (@List.takeWhile_append_dropWhile _ Text.isDigit (first :: text)).symm
  have digits : Text.IsNumeral ((first :: text).takeWhile Text.isDigit) := by
    refine ⟨?_, fun c isIn => List.mem_takeWhile_imp isIn⟩
    rw [List.takeWhile_cons_of_pos digit]
    exact List.cons_ne_nil _ _
  have noDigit {c : Char} (head : ((first :: text).dropWhile Text.isDigit).head? = some c) :
      Text.isDigit c = false := Text.head?_dropWhile head
  unfold number at found
  generalize (first :: text).takeWhile Text.isDigit = whole at whole_eq digits found
  generalize (first :: text).dropWhile Text.isDigit = behind at whole_eq noDigit found
  have filled : whole.isEmpty = false := List.isEmpty_eq_false_iff.mpr digits.1
  split at found
  next afterPoint =>
    rw [whole_eq]
    exact fractional_found digits found
  next noPoint =>
    dsimp only at found
    split at found
    next => cases found
    next short =>
      cases found
      refine ⟨_, behind, whole_eq, rfl, .int digits ?_, fun next head => ?_⟩
      · simp only [filled, Bool.false_or, decide_eq_true_eq] at short
        exact Nat.not_lt.mp short
      · have notPoint : next ≠ '.' := by
          rintro rfl
          obtain ⟨later, rfl⟩ : ∃ later, behind = '.' :: later := List.head?_eq_some_iff.mp head
          exact noPoint later rfl
        simp [joins, noDigit head, notPoint]

/-! ## Strings -/

/-- Behind characters of a string the scanner goes on with their content. -/
theorem stringAfter_quotes {body content : Text} (quotes : Text.Quotes body content) (taken : Nat)
    (before rest : Text) :
    stringAfter taken before (body ++ rest) =
      stringAfter (taken + body.length) (content.reverse ++ before) rest := by
  induction quotes generalizing taken before with
  | nil => rfl
  | @plain c body content notQuote notEscape _ ih =>
    rw [List.cons_append, stringAfter.eq_def]
    simp only [beq_iff_eq, notQuote, notEscape, if_false, ih, List.reverse_cons, List.append_assoc,
      List.singleton_append, List.length_cons, Nat.add_assoc, Nat.add_comm 1]
  | @escaped letter c body content unescaped _ ih =>
    have notQuote : ('\\' == '"') = false := by decide
    rw [List.cons_append, List.cons_append, stringAfter.eq_def]
    simp only [notQuote, Bool.false_eq_true, if_false, beq_self_eq_true, if_true, unescaped, ih,
      List.reverse_cons, List.append_assoc, List.singleton_append, List.length_cons, Nat.add_assoc,
      Nat.add_comm 2]

/-- The body of a string in front of a quote is taken up to the quote, as the characters that it
stands for. -/
theorem stringAfter_eq {body content : Text} (quotes : Text.Quotes body content) (taken : Nat)
    (before rest : Text) :
    stringAfter taken before (body ++ '"' :: rest) =
      ⟨taken + body.length + 1, .token .string (before.reverse ++ content)⟩ := by
  rw [stringAfter_quotes quotes, stringAfter.eq_def]
  simp only [beq_self_eq_true, if_true, List.reverse_append, List.reverse_reverse]

/-- What is taken as the rest of a string is a body in front of a quote, and the characters that it
stands for are the value. -/
theorem stringAfter_found {before : Text} {start : Nat}
    (found : stringAfter start before text = ⟨taken, .token kind value⟩) :
    ∃ body content rest, text = body ++ '"' :: rest ∧ Text.Quotes body content ∧
      taken = start + body.length + 1 ∧ kind = .string ∧ value = before.reverse ++ content := by
  fun_induction stringAfter start before text with
  | case1 => cases found
  | case2 start before c rest isQuote =>
    cases found
    obtain rfl := beq_iff_eq.mp isQuote
    exact ⟨[], [], rest, rfl, .nil, rfl, rfl, (List.append_nil _).symm⟩
  | case3 => cases found
  | case4 start before c notQuote isEscape letter rest decoded unescaped ih =>
    obtain ⟨body, content, rest, rfl, quotes, rfl, rfl, rfl⟩ := ih found
    obtain rfl := beq_iff_eq.mp isEscape
    refine ⟨'\\' :: letter :: body, decoded :: content, rest, rfl, .escaped unescaped quotes, ?_,
      rfl, ?_⟩
    · simp only [List.length_cons]
      omega
    · simp
  | case5 => cases found
  | case6 start before c rest notQuote notEscape ih =>
    obtain ⟨body, content, rest, rfl, quotes, rfl, rfl, rfl⟩ := ih found
    refine ⟨c :: body, c :: content, rest, rfl,
      .plain (fun same => notQuote (beq_iff_eq.mpr same))
        (fun same => notEscape (beq_iff_eq.mpr same)) quotes, ?_, rfl, ?_⟩
    · simp only [List.length_cons]
      omega
    · simp

/-- The scanner of strings takes what stands from one quote to the next. -/
theorem string_eq {body content : Text} (quotes : Text.Quotes body content) (rest : Text) :
    string ('"' :: body ++ ['"'] ++ rest) =
      ⟨('"' :: body ++ ['"']).length, .token .string content⟩ := by
  have scanned := stringAfter_eq quotes 1 [] rest
  simp only [string, List.cons_append, List.drop_succ_cons, List.drop_zero, List.append_assoc,
    List.nil_append, List.length_cons, List.length_append, List.length_nil] at scanned ⊢
  rw [scanned]
  congr 1
  omega

/-- What is taken as a string spells its token. -/
theorem string_found (found : string ('"' :: text) = ⟨taken, .token kind value⟩) :
    ∃ spelled rest, '"' :: text = spelled ++ rest ∧ spelled.length = taken ∧
      Spells spelled kind value ∧ Parted spelled kind rest := by
  obtain ⟨body, content, rest, shape, quotes, rfl, rfl, rfl⟩ := stringAfter_found found
  rw [List.drop_one, List.tail_cons] at shape
  refine ⟨'"' :: body ++ ['"'], rest, by simp [shape], ?_, .string quotes, fun _ _ => rfl⟩
  simp only [List.cons_append, List.length_cons, List.length_append, List.length_nil]
  omega

/-! ## Symbols -/

/-- A symbol is looked up under its own spelling. -/
theorem ofSymbol?_eq_some_iff :
    TokenKind.ofSymbol? text = some kind ↔ (text, kind) ∈ TokenKind.symbols := by
  constructor
  · intro found
    obtain ⟨_, _, shape, _⟩ := List.lookup_eq_some_iff.mp found
    rw [shape]
    exact List.mem_append_right _ List.mem_cons_self
  · have : ∀ entry ∈ TokenKind.symbols, TokenKind.ofSymbol? entry.1 = some entry.2 := by decide
    exact this _

/-- What stands in no symbol stands in none that is looked up. -/
theorem not_mem_of_ofSymbol? {c : Char} (absent : ∀ entry ∈ TokenKind.symbols, c ∉ entry.1)
    (known : TokenKind.ofSymbol? text = some kind) : c ∉ text :=
  absent _ (ofSymbol?_eq_some_iff.mp known)

/-- Where no symbol is found, none of the sizes that were tried gives one. -/
theorem ofSymbol?_of_symbolUpTo?_eq_none {most : Nat} (unknown : symbolUpTo? text most = none) :
    ∀ size ≤ most, TokenKind.ofSymbol? (text.take size) = none := by
  induction most with
  | zero =>
    rintro size le
    obtain rfl := Nat.le_zero.mp le
    rfl
  | succ most ih =>
    unfold symbolUpTo? at unknown
    dsimp only at unknown
    split at unknown
    next => cases unknown
    next noSymbol =>
      intro size le
      rcases Nat.le_succ_iff.mp le with le | rfl
      · exact ih unknown size le
      · exact noSymbol

/-- What is found is a symbol, and none of the greater sizes that were tried gives one. -/
theorem exists_of_symbolUpTo? {most : Nat} {lexeme : Lexeme}
    (found : symbolUpTo? text most = some lexeme) :
    ∃ size kind, TokenKind.ofSymbol? (text.take size) = some kind ∧
      lexeme = ⟨(text.take size).length, .token kind (text.take size)⟩ ∧
      ∀ longer ≤ most, size < longer → TokenKind.ofSymbol? (text.take longer) = none := by
  induction most with
  | zero => cases found
  | succ most ih =>
    unfold symbolUpTo? at found
    dsimp only at found
    split at found
    next kind known =>
      cases found
      exact ⟨most + 1, kind, known, rfl, fun longer le lt => absurd lt (Nat.not_lt.mpr le)⟩
    next noSymbol =>
      obtain ⟨size, kind, known, made, longest⟩ := ih found
      refine ⟨size, kind, known, made, fun longer le lt => ?_⟩
      rcases Nat.le_succ_iff.mp le with le | rfl
      · exact longest longer le lt
      · exact noSymbol

/-- A symbol at the front of a text is among those that are looked up there. -/
theorem ofSymbol?_take_of_prefix (isSymbol : (spelled, kind) ∈ TokenKind.symbols)
    (stands : spelled <+: text) :
    TokenKind.ofSymbol? (text.take spelled.length) = some kind ∧
      spelled.length ≤ TokenKind.longestSymbol := by
  have sizes : ∀ entry ∈ TokenKind.symbols, entry.1.length ≤ TokenKind.longestSymbol := by decide
  rw [← List.prefix_iff_eq_take.mp stands]
  exact ⟨ofSymbol?_eq_some_iff.mpr isSymbol, sizes _ isSymbol⟩

/-- No symbol is found where none stands at the front of the text. -/
theorem symbol?_eq_none : symbol? text = none ↔
    ∀ entry ∈ TokenKind.symbols, ¬entry.1 <+: text := by
  constructor
  · rintro unknown ⟨spelled, kind⟩ isSymbol stands
    obtain ⟨known, le⟩ := ofSymbol?_take_of_prefix isSymbol stands
    rw [ofSymbol?_of_symbolUpTo?_eq_none unknown _ le] at known
    cases known
  · intro absent
    cases found : symbol? text with
    | none => rfl
    | some lexeme =>
      obtain ⟨size, kind, known, _⟩ := exists_of_symbolUpTo? found
      exact absurd (List.take_prefix size text) (absent _ (ofSymbol?_eq_some_iff.mp known))

/-- What is found is the longest symbol at the front of the text. -/
theorem exists_of_symbol? {lexeme : Lexeme} (found : symbol? text = some lexeme) :
    ∃ spelled kind rest, text = spelled ++ rest ∧ (spelled, kind) ∈ TokenKind.symbols ∧
      lexeme = ⟨spelled.length, .token kind spelled⟩ ∧
      ∀ entry ∈ TokenKind.symbols, entry.1 <+: text → entry.1.length ≤ spelled.length := by
  obtain ⟨size, kind, known, made, longest⟩ := exists_of_symbolUpTo? found
  refine ⟨text.take size, kind, text.drop size, (List.take_append_drop size text).symm,
    ofSymbol?_eq_some_iff.mp known, made, ?_⟩
  rintro ⟨other, kind'⟩ isSymbol stands
  obtain ⟨known', le⟩ := ofSymbol?_take_of_prefix isSymbol stands
  rw [List.length_take]
  refine Nat.le_min.mpr ⟨Nat.not_lt.mp fun lt => ?_, stands.length_le⟩
  rw [longest _ le lt] at known'
  cases known'

/-- A symbol is found where it stands and the next character does not join on to it. -/
theorem symbol?_eq (isSymbol : (spelled, kind) ∈ TokenKind.symbols)
    (parted : Parted spelled kind rest) :
    symbol? (spelled ++ rest) = some ⟨spelled.length, .token kind spelled⟩ := by
  -- whatever a symbol begins with is a symbol, so no longer one can stand there
  have fronts : ∀ entry ∈ TokenKind.symbols, ∀ size < entry.1.length,
      TokenKind.ofSymbol? (entry.1.take (size + 1)) ≠ none := by decide
  cases found : symbol? (spelled ++ rest) with
  | none => exact absurd (List.prefix_append _ _) (symbol?_eq_none.mp found _ isSymbol)
  | some lexeme =>
    obtain ⟨other, kind', later, shape, isSymbol', rfl, longest⟩ := exists_of_symbol? found
    have le : spelled.length ≤ other.length := longest _ isSymbol (List.prefix_append _ _)
    obtain ⟨more, rfl, rfl⟩ : ∃ more, other = spelled ++ more ∧ rest = more ++ later := by
      rcases List.append_eq_append_iff.mp shape with ⟨more, rfl, rfl⟩ | ⟨more, rfl, rfl⟩
      · exact ⟨more, rfl, rfl⟩
      · rw [List.length_append] at le
        obtain rfl := List.eq_nil_of_length_eq_zero (by omega : more.length = 0)
        exact ⟨[], by simp, by simp⟩
    cases more with
    | nil =>
      rw [List.append_nil] at isSymbol' ⊢
      have same := (ofSymbol?_eq_some_iff.mpr isSymbol').symm.trans
        (ofSymbol?_eq_some_iff.mpr isSymbol)
      rw [Option.some.inj same]
    | cons next more =>
      have joined := parted next rfl
      rw [joins_symbol isSymbol, Option.isSome_eq_false_iff, Option.isNone_iff_eq_none] at joined
      refine absurd ?_ (fronts _ isSymbol' spelled.length (by simp))
      rwa [List.take_length_add_append]

/-- What is taken as a symbol is one in the table, and nothing joins on. -/
theorem symbol?_found (found : symbol? text = some ⟨taken, .token kind value⟩) :
    ∃ rest, text = value ++ rest ∧ value.length = taken ∧ (value, kind) ∈ TokenKind.symbols ∧
      Parted value kind rest := by
  obtain ⟨spelled, kind', rest, shape, isSymbol, made, longest⟩ := exists_of_symbol? found
  cases made
  refine ⟨rest, shape, rfl, isSymbol, fun next head => ?_⟩
  obtain ⟨later, rfl⟩ := List.head?_eq_some_iff.mp head
  rw [joins_symbol isSymbol, Option.isSome_eq_false_iff, Option.isNone_iff_eq_none]
  by_contra longer
  obtain ⟨kind', known⟩ := Option.ne_none_iff_exists'.mp longer
  have stands : value ++ [next] <+: text := ⟨later, by rw [shape, List.append_assoc]; rfl⟩
  have le := longest _ (ofSymbol?_eq_some_iff.mp known) stands
  rw [List.length_append] at le
  exact absurd le (by simp)

/-! ## All tokens -/

/-- What a scanner finds is the spelling of a token to which nothing joins on. -/
theorem starting_found (found : starting first (first :: text) = ⟨taken, .token kind value⟩) :
    ∃ spelled rest, first :: text = spelled ++ rest ∧ spelled.length = taken ∧
      Spells spelled kind value ∧ Parted spelled kind rest := by
  unfold starting at found
  split at found
  next start => exact identifier_found start found
  next =>
    split at found
    next digit => exact number_found digit found
    next =>
      split at found
      next isQuote =>
        obtain rfl := beq_iff_eq.mp isQuote
        exact string_found found
      next =>
        cases matched : symbol? (first :: text) with
        | none =>
          rw [matched] at found
          cases found
        | some lexeme =>
          rw [matched] at found
          cases found
          obtain ⟨rest, shape, size, isSymbol, parted⟩ := symbol?_found matched
          exact ⟨value, rest, shape, size, .symbol isSymbol, parted⟩

/-- A scanner finds the token that is spelled where nothing joins on to the spelling. -/
theorem starting_eq (shape : first :: text = spelled ++ rest) (spells : Spells spelled kind value)
    (parted : Parted spelled kind rest) :
    starting first (first :: text) = ⟨spelled.length, .token kind value⟩ := by
  rw [shape]
  unfold starting
  cases spells with
  | word word =>
    obtain ⟨c, later, rfl, start, parts⟩ := id word
    cases shape
    rw [if_pos start]
    exact identifier_eq word parted
  | int digits short =>
    obtain ⟨c, later, rfl⟩ := List.exists_cons_of_ne_nil digits.1
    cases shape
    have digit := digits.2 _ List.mem_cons_self
    rw [Text.isIdentifierStart_of_digit digit, if_neg Bool.false_ne_true, if_pos digit]
    exact number_eq_int digits short parted
  | @float whole fraction digits decimals bounded =>
    obtain ⟨c, later, rfl⟩ := List.exists_cons_of_ne_nil digits.1
    cases shape
    have digit := digits.2 _ List.mem_cons_self
    rw [Text.isIdentifierStart_of_digit digit, if_neg Bool.false_ne_true, if_pos digit]
    exact number_eq_float digits decimals bounded parted
  | string quotes =>
    cases shape
    have notStart : Text.isIdentifierStart '"' = false := by decide
    have notDigit : Text.isDigit '"' = false := by decide
    rw [notStart, notDigit, if_neg Bool.false_ne_true, if_neg Bool.false_ne_true,
      if_pos (beq_self_eq_true _)]
    exact string_eq quotes rest
  | symbol isSymbol =>
    have others : ∀ entry ∈ TokenKind.symbols, entry.1.head?.all (fun c =>
        !Text.isIdentifierStart c && !Text.isDigit c && !(c == '"')) = true := by decide
    have filled : ∀ entry ∈ TokenKind.symbols, entry.1 ≠ [] := by decide
    obtain ⟨c, later, rfl⟩ := List.exists_cons_of_ne_nil (filled _ isSymbol)
    cases shape
    have plain := others _ isSymbol
    simp only [List.head?_cons, Option.all_some, Bool.and_eq_true, Bool.not_eq_true'] at plain
    obtain ⟨⟨notStart, notDigit⟩, notQuote⟩ := plain
    rw [notStart, notDigit, notQuote, if_neg Bool.false_ne_true, if_neg Bool.false_ne_true,
      if_neg Bool.false_ne_true, symbol?_eq isSymbol parted]
    rfl

/-- A scanner finds a token exactly where a spelling of it stands to which nothing joins on. -/
theorem starting_eq_iff :
    starting first (first :: text) = ⟨taken, .token kind value⟩ ↔
      ∃ spelled rest, first :: text = spelled ++ rest ∧ spelled.length = taken ∧
        Spells spelled kind value ∧ Parted spelled kind rest := by
  refine ⟨starting_found, ?_⟩
  rintro ⟨spelled, rest, shape, rfl, spells, parted⟩
  exact starting_eq shape spells parted

/-- What was found to be a token is the spelling of it that stands at the front. -/
theorem exists_spelled (found : (starting first (first :: text)).found = .token kind value) :
    ∃ spelled rest, first :: text = spelled ++ rest ∧
      spelled.length = (starting first (first :: text)).taken ∧ Spells spelled kind value ∧
      Parted spelled kind rest :=
  starting_eq_iff.mp (by rw [← found])

end Lexeme

end SinosLang
