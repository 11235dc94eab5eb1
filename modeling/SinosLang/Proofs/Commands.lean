import SinosLang.Proofs.Sessions
import SinosLang.Proofs.Text.Case
import SinosLang.Proofs.Text.Parts

/-!
# Format commands and programs

A chunk of two words is taken for a format command if the first one is `format`, whatever the second
one is. A program may be such a chunk, as names are spelled freely and tokens need no blanks between
them: then it is not shown, and an unknown format is reported in its place. But the format never
changes, since the name of a format is a word, and two words alone are no program.

Main statement: `ofChunk?_of_program`.
-/

set_option autoImplicit false

namespace SinosLang

open Grammar

/-! ## The tokens of words -/

namespace Lexes

variable {position : Nat} {text margin word rest : Text} {tokens : List Token}

/-- Blanks before a text add no token. -/
theorem margin_append (isMargin : ∀ c ∈ margin, Text.isBlank c = true)
    (lexes : Lexes (position + margin.length) text tokens) :
    Lexes position (margin ++ text) tokens := by
  induction margin generalizing position with
  | nil => exact lexes
  | cons c margin ih =>
    have behind : Lexes (position + 1) (margin ++ text) tokens := by
      refine ih (fun c isIn => isMargin c (List.mem_cons_of_mem _ isIn)) ?_
      rwa [Nat.add_assoc, Nat.add_comm 1]
    exact behind.blank_cons (isMargin c List.mem_cons_self)

/-- A word before a blank is a token. -/
theorem word_append (isWord : word.IsWord)
    (boundary : ∀ c, rest.head? = some c → Text.isBlank c = true)
    (lexes : Lexes (position + word.length) rest tokens) :
    ∃ span, Lexes position (word ++ rest) (⟨TokenKind.ofWord word, word, span⟩ :: tokens) := by
  have parted : Lexeme.Parted word (TokenKind.ofWord word) rest := by
    intro next head
    rw [Lexeme.joins_word]
    exact Text.isIdentifierPart_of_blank (boundary next head)
  have noComment : word = ['/'] → rest.head? ≠ some '/' := by
    intro _ head
    exact absurd (boundary '/' head) (by decide)
  exact ⟨_, lexes.spelled_append (.word isWord) parted noComment⟩

/-- A text of two words consists of two tokens. -/
theorem of_words {first second : Text} (two : Text.words text = [first, second])
    (isWord : first.IsWord) (isWord' : second.IsWord) :
    ∃ span span', Lexes 0 text
      [⟨TokenKind.ofWord first, first, span⟩, ⟨TokenKind.ofWord second, second, span'⟩] := by
  obtain ⟨margin, rest, rfl, isMargin, _, boundary, behind⟩ := Text.exists_of_words_cons two
  obtain ⟨gap, ending, rfl, isGap, _, boundary', behind'⟩ := Text.exists_of_words_cons behind
  have isEnding := Text.blank_of_words_nil behind'
  have nothing (position : Nat) : Lexes position ending [] := by
    have blank : Lexes position (ending ++ []) [] := margin_append isEnding (.done rfl)
    rwa [List.append_nil] at blank
  obtain ⟨span', later⟩ := word_append isWord' boundary' (nothing _)
  obtain ⟨span, both⟩ := word_append isWord boundary (margin_append isGap later)
  exact ⟨span, span', margin_append isMargin both⟩

end Lexes

/-! ## The ends of statements -/

namespace Grammar

variable {placed : Placement} {expr : Phrase} {tokens : List Token} {tree node : Node}

/-- Some token among others ends a statement or a block. -/
def HasCloser (tokens : List Token) : Prop :=
  ∃ token ∈ tokens, token.kind = .semi ∨ token.kind = .rbrace

/-- Tokens have a closer if the last of them is one. -/
theorem hasCloser_append_singleton {front : List Token} {last : Token}
    (closes : last.kind = .semi ∨ last.kind = .rbrace) : HasCloser (front ++ [last]) :=
  ⟨last, List.mem_append_right _ (List.mem_singleton_self _), closes⟩

/-- The tokens of a block contain its closing brace. -/
theorem Derives.hasCloser {level : Level} (derived : Derives placed expr level tokens node)
    (isBlock : node.isBlock = true) : HasCloser tokens := by
  induction derived with
  | primary inner =>
    cases inner with
    | block _ _ _ closing _ => exact hasCloser_append_singleton (.inr closing)
    | _ => cases isBlock
  | unary | binary => cases isBlock
  | operand _ _ ih => exact ih isBlock

/-- The tokens of a statement contain the semicolon or the brace that ends it. -/
theorem Statement.hasCloser {depth : Nat} {inside : Bool} {next : TokenKind}
    (stands : Statement placed (Expression placed depth .equality) inside next tokens node) :
    HasCloser tokens := by
  cases stands with
  | binding _ _ _ _ _ semi _ => exact hasCloser_append_singleton (.inl semi)
  | terminated _ semi _ => exact hasCloser_append_singleton (.inl semi)
  | standing derived isBlock _ _ _ _ =>
    cases depth with
    | zero => exact derived.elim
    | succ depth => exact Derives.hasCloser derived isBlock

/-- A program is empty, or one of its tokens ends a statement or a block. -/
theorem Program.hasCloser (derived : Program placed tokens tree) (filled : tokens ≠ []) :
    HasCloser tokens := by
  obtain ⟨depth, span, stmts, _, stands⟩ := derived
  cases stands with
  | nil => exact absurd rfl filled
  | cons first _ =>
    obtain ⟨token, isIn, closes⟩ := first.hasCloser
    exact ⟨token, List.mem_append_left _ isIn, closes⟩

end Grammar

/-! ## Chunks of two words -/

namespace FormatCommand

variable {name chunk command asked : Text} {tree : Node}

/-- What is spelled like the command or a format, in whatever case, is a word. -/
theorem isWord_of_lower {word : Text}
    (isName : Text.lower word ∈ "format".toList :: OutputFormat.names) : word.IsWord := by
  have plain : ("format".toList :: OutputFormat.names).all
      (fun known => !known.isEmpty && known.all Text.plainLetters.contains) = true := by decide
  have isPlain := List.all_eq_true.mp plain _ isName
  rw [Bool.and_eq_true, List.all_eq_true] at isPlain
  have starts := Text.isIdentifierStart_of_mem_lower fun d isIn =>
    List.contains_iff_mem.mp (isPlain.2 d isIn)
  cases word with
  | nil => cases isPlain.1
  | cons first rest =>
    refine ⟨first, rest, rfl, starts first List.mem_cons_self, fun c isIn => ?_⟩
    exact Text.isIdentifierPart_of_start (starts c (List.mem_cons_of_mem _ isIn))

/-- Two words that are spelled like names are no program. -/
theorem not_program_of_words {first second : Text} (two : Text.words chunk = [first, second])
    (isWord : first.IsWord) (isWord' : second.IsWord) :
    (Source.ofText name chunk).parse ≠ .ok tree := by
  intro parsed
  obtain ⟨span, span', lexes⟩ := Lexes.of_words two isWord isWord'
  have lexes' : Lexes 0 (Source.ofText name chunk).text _ := lexes
  have derived := ((Source.exists_parse_iff lexes').mp ⟨tree, parsed, rfl⟩).1
  obtain ⟨token, isIn, closes⟩ := derived.hasCloser (List.cons_ne_nil _ _)
  have noCloser (word : Text) :
      ¬ (TokenKind.ofWord word = .semi ∨ TokenKind.ofWord word = .rbrace) := by
    have kinds := Lexeme.ofWord_mem word
    rintro (same | same) <;> rw [same] at kinds <;> exact absurd kinds (by decide)
  rcases List.mem_pair.mp isIn with rfl | rfl
  · exact noCloser first closes
  · exact noCloser second closes

/-- A program that is taken for a format command asks for no format that there is. -/
theorem unknown_of_program (parsed : (Source.ofText name chunk).parse = .ok tree)
    (requested : requested? chunk = some asked) :
    asked ∉ OutputFormat.names ∧ OutputFormat.ofName? asked = none := by
  obtain ⟨command, word, two, isFormat, rfl⟩ := requested?_eq_some requested
  rcases OutputFormat.ofName?_cases (Text.lower word) with ⟨format, isName, _⟩ | notKnown
  · have isKnown : Text.lower word ∈ OutputFormat.names := isName ▸ format.name_mem_names
    have isCommand : command.IsWord :=
      isWord_of_lower (by rw [eq_of_beq isFormat]; exact List.mem_cons_self)
    have isWord : word.IsWord := isWord_of_lower (List.mem_cons_of_mem _ isKnown)
    exact absurd parsed (not_program_of_words two isCommand isWord)
  · exact notKnown

/-- A chunk that the session takes for a change of format is one that asks for it. -/
theorem requested?_of_purpose (purpose : Purpose.ofChunk chunk = .format asked) :
    requested? chunk = some asked := by
  unfold Purpose.ofChunk at purpose
  split at purpose
  · cases purpose
  · split at purpose
    · cases purpose
    · cases requested : requested? chunk with
      | none =>
        rw [requested] at purpose
        cases purpose
      | some name =>
        rw [requested] at purpose
        cases purpose
        rfl

/-- A program is taken for a format command exactly if it consists of two words of which the first is
`format` in whatever case. It is then answered that the other word is an unknown format. In any case
a session keeps its format. -/
theorem ofChunk?_of_program (parsed : (Source.ofText name chunk).parse = .ok tree)
    (current : Text) :
    ((∀ command asked, Text.words chunk = [command, asked] →
        Text.lower command ≠ "format".toList) → ofChunk? chunk current = none) ∧
    (∀ command asked, Text.words chunk = [command, asked] →
      Text.lower command = "format".toList →
        Text.lower asked ∉ OutputFormat.names ∧
        ofChunk? chunk current = some ⟨current, "[error] >>> Unknown format ".toList ++
          Text.listed (Text.lower asked) ++ "; pick one of ".toList ++
            Text.join ", ".toList OutputFormat.names ++ ['\n']⟩) ∧
    ∀ session : Session, (session.respond chunk).1.format = session.format := by
  refine ⟨?_, ?_, ?_⟩
  · intro other
    refine ofChunk?_eq_none ?_ current
    cases requested : requested? chunk with
    | none => rfl
    | some asked =>
      obtain ⟨command, _, two, isFormat, _⟩ := requested?_eq_some requested
      exact absurd (eq_of_beq isFormat) (other _ _ two)
  · intro command asked two isFormat
    have requested : requested? chunk = some (Text.lower asked) := by
      simp [requested?, two, isFormat]
    obtain ⟨notName, notFound⟩ := unknown_of_program parsed requested
    refine ⟨notName, ?_⟩
    rw [ofChunk?_eq_some requested, answerTo, notFound]
    rfl
  · intro session
    rw [Session.respond_fst]
    cases purpose : Purpose.ofChunk chunk with
    | nothing | toggle | program => rfl
    | format asked =>
      have notFound := (unknown_of_program parsed (requested?_of_purpose purpose)).2
      rw [Session.after, notFound]
      rfl

/-- A variable with a blank before the semicolon. -/
theorem ofChunk?_of_program_variable :
    ofChunk? "FORMAT ;".toList "json".toList = some ⟨"json".toList,
      "[error] >>> Unknown format ';'; pick one of tree, json, source\n".toList⟩ ∧
    ((⟨true, "json".toList, 0⟩ : Session).respond "FORMAT ;".toList).1.format = "json".toList := by
  have parsed : (Source.ofText [] "FORMAT ;".toList).parse =
      .ok (.module ⟨0, 8⟩ [.exprStmt ⟨0, 8⟩ (.name ⟨0, 6⟩ "FORMAT".toList)]) := by cbv
  obtain ⟨_, answers, keeps⟩ := ofChunk?_of_program parsed "json".toList
  obtain ⟨_, answer⟩ := answers "FORMAT".toList [';'] (by decide +kernel) (by decide +kernel)
  refine ⟨answer.trans ?_, keeps _⟩
  decide +kernel

/-- A sum is no command, but without a blank before its second operand it is taken for one. -/
theorem format_hides_sum :
    (Source.ofText [] "format +1;".toList).parse = .ok (.module ⟨0, 10⟩ [.exprStmt ⟨0, 10⟩
      (.binary ⟨0, 9⟩ ['+'] (.name ⟨0, 6⟩ "format".toList) (.integer ⟨8, 1⟩ 1))]) ∧
    ofChunk? "format +1;".toList "tree".toList ≠ none ∧
    ofChunk? "format + 1;".toList "tree".toList = none := by
  refine ⟨by cbv, ?_, ?_⟩ <;> decide +kernel

end FormatCommand

end SinosLang
