import SinosLang.Proofs.Chunks

/-!
# What a session answers

A session answers a program with its rendering or with one diagnostic: the format that it keeps is
always one that there is, and lexer and parser fail with a diagnostic only. So the report of an
unexpected error is never given. A session ends where a chunk would begin with the wish to leave, or
where the lines end; an interrupt is one way for them to end.

Main statements: `respond_answers` for one chunk and `transcript_answers` for all of them.
-/

set_option autoImplicit false

namespace SinosLang

namespace Session

variable {session : Session} {known : OutputFormat} {chunk : Text}

/-- What a session puts before a program: the listing of its tokens, if it lists tokens. -/
inductive Lists (session : Session) (source : Source) : Text → Prop
  | quiet : session.verbose = false → Lists session source []
  | verbose {listing : Text} : session.verbose = true → source.tokenListing = .ok listing →
    Lists session source (listing ++ ['\n'])

/-- The answers to a program: its rendering, or the one diagnostic that the parser fails with, or the
one that the listing of its tokens fails with. A diagnostic is rendered under a line that announces
it. -/
inductive Settles (session : Session) (known : OutputFormat) (source : Source) : Text → Prop
  | shown {listing : Text} {tree : Node} : Lists session source listing → source.parse = .ok tree →
    Settles session known source (listing ++ (known.render tree ++ ['\n']))
  | rejected {listing : Text} {d : Diagnostic} : Lists session source listing →
    source.parse = .error (.diagnostic d) →
    Settles session known source
      (listing ++ ("[error] >>>\n".toList ++ d.render source ++ ['\n']))
  | unlisted {d : Diagnostic} : session.verbose = true →
    source.tokenize.result = .error (.diagnostic d) →
    Settles session known source ("[error] >>>\n".toList ++ d.render source ++ ['\n'])

/-- The answers to a chunk, by its purpose. The report of an unexpected error is none of them. -/
inductive Answers (session : Session) (known : OutputFormat) (chunk : Text) : Text → Prop
  | nothing : Purpose.ofChunk chunk = .nothing → Answers session known chunk []
  | toggled : Purpose.ofChunk chunk = .toggle →
    Answers session known chunk ("[mode] >>> Verbose mode ".toList ++
      if session.verbose then "OFF\n".toList else "ON\n".toList)
  | switched {format : OutputFormat} : Purpose.ofChunk chunk = .format format.name →
    Answers session known chunk ("[format] >>> Output format: ".toList ++ format.name ++ ['\n'])
  | unknown {name : Text} : Purpose.ofChunk chunk = .format name → name ∉ OutputFormat.names →
    Answers session known chunk ("[error] >>> Unknown format ".toList ++ Text.listed name ++
      "; pick one of ".toList ++ Text.join ", ".toList OutputFormat.names ++ ['\n'])
  | program {answer : Text} : Purpose.ofChunk chunk = .program →
    Settles session known (sourceOf (session.parsed + 1) chunk) answer →
    Answers session known chunk answer

/-- The program of a source is shown, or the diagnostic that it is rejected with. -/
theorem showProgram_settles {source : Source} {listing : Text} (lists : Lists session source listing) :
    Settles session known source (listing ++ showProgram known.name source) := by
  unfold showProgram
  cases parsed : source.parse with
  | ok tree =>
    rw [OutputFormat.ofName?_name]
    exact .shown lists parsed
  | error failure =>
    obtain ⟨d, rfl, _⟩ := Source.parse_error parsed
    exact .rejected lists parsed

/-- What is shown for a chunk settles it, with the token listing in front where the session is
verbose. -/
theorem showChunk_settles (isKnown : session.format = known.name) (source : Source) :
    Settles session known source (session.showChunk source) := by
  rw [showChunk, isKnown]
  cases listing : session.verbose with
  | false =>
    rw [if_neg Bool.false_ne_true]
    exact showProgram_settles (.quiet listing)
  | true =>
    rw [if_pos rfl]
    cases tokenized : source.tokenize.result with
    | ok tokens =>
      have listed : source.tokenListing = .ok (Token.listing tokens) := by
        rw [Source.tokenListing, tokenized]
        rfl
      have settles : Settles session known source
          (Token.listing tokens ++ ['\n'] ++ showProgram known.name source) :=
        showProgram_settles (.verbose listing listed)
      rw [listed]
      simpa using settles
    | error failure =>
      obtain ⟨d, rfl, _⟩ := Source.tokenize_error tokenized
      rw [Source.tokenListing, tokenized]
      exact .unlisted listing tokenized

/-- A session with a format that there is answers every chunk as its purpose asks for. -/
theorem respond_answers (isKnown : session.format = known.name) (chunk : Text) :
    session.Answers known chunk (session.respond chunk).2 := by
  rw [respond_eq]
  dsimp only
  cases purpose : Purpose.ofChunk chunk with
  | nothing => exact .nothing purpose
  | toggle => exact .toggled purpose
  | format name =>
    show session.Answers known chunk (FormatCommand.answerTo name)
    rcases OutputFormat.ofName?_cases name with ⟨format, rfl, found⟩ | ⟨notName, found⟩
    · rw [FormatCommand.answerTo, if_pos (by rw [found]; rfl)]
      exact .switched purpose
    · rw [FormatCommand.answerTo, if_neg (by rw [found]; decide)]
      exact .unknown purpose notName
  | program => exact .program purpose (showChunk_settles isKnown _)

/-- In a session that starts with a format that there is, every chunk is answered as its purpose asks
for, a program with its rendering or with one diagnostic, and the session keeps a format that there
is. The lines that are typed fall into the chunks and what is left over. The session ends there, and
it does so because a chunk would begin with the wish to leave, or because the lines end before no
brace is open. -/
theorem transcript_answers (verbose : Bool) (format : OutputFormat) (lines : List Text) :
    let start : Session := ⟨verbose, format.name, 0⟩
    let dialogue := Dialogue.ofLines lines
    start.transcript lines =
        (dialogue.chunks.foldl hear (start, start.banner)).2 ++ dialogue.ending ∧
      (∀ earlier later, dialogue.chunks = earlier ++ later →
        ∃ (current : Session) (known : OutputFormat),
          (earlier.foldl hear (start, start.banner)).1 = current ∧ current.format = known.name ∧
          ∀ prompts chunk, later.head? = some (prompts, chunk) →
            current.Answers known chunk (current.respond chunk).2) ∧
      ∃ (groups : List (List Text)) (rest : List Text), lines = groups.flatten ++ rest ∧
        (∀ group ∈ groups, PendingChunk.Closes 0 group ∧
          PendingChunk.beginsToLeave group = false) ∧
        dialogue.chunks.map Prod.snd = groups.map PendingChunk.textOf ∧
        (dialogue.leaves = true ∧ PendingChunk.beginsToLeave rest = true ∨
          dialogue.leaves = false ∧ PendingChunk.StaysOpen 0 rest ∧
            PendingChunk.beginsToLeave rest = false) := by
  intro start dialogue
  refine ⟨start.transcript_eq_foldl lines, ?_, Dialogue.ofLines_groups lines⟩
  intro earlier later _
  have presentable : start.Presentable := ⟨format, rfl⟩
  obtain ⟨known, isKnown⟩ := presentable.afterAll earlier
  refine ⟨start.afterAll earlier, known, foldl_hear_fst start _ earlier, isKnown, ?_⟩
  exact fun prompts chunk _ => respond_answers isKnown chunk

/-- Behind a format command a session that lists tokens comes upon a string without an end, and it is
left before the last line is read. -/
theorem transcript_answers_unlisted :
    (Dialogue.ofLines ["format json".toList, ['"'], " quit ".toList, "1;".toList]).chunks =
      [(">>> ".toList, "format json".toList), (">>> ".toList, ['"'])] ∧
    (Dialogue.ofLines ["format json".toList, ['"'], " quit ".toList, "1;".toList]).leaves = true ∧
    Answers ⟨true, "json".toList, 0⟩ .json ['"']
      ((⟨true, "json".toList, 0⟩ : Session).respond ['"']).2 := by
  have chunks : (Dialogue.ofLines
      ["format json".toList, ['"'], " quit ".toList, "1;".toList]).chunks =
        [(">>> ".toList, "format json".toList)] ++ [(">>> ".toList, ['"'])] := by decide +kernel
  have state : (⟨true, "tree".toList, 0⟩ : Session).afterAll
      [(">>> ".toList, "format json".toList)] = ⟨true, "json".toList, 0⟩ := by decide +kernel
  refine ⟨chunks, by decide +kernel, ?_⟩
  obtain ⟨current, known, is_current, isKnown, answers⟩ :=
    (transcript_answers true .tree
      ["format json".toList, ['"'], " quit ".toList, "1;".toList]).2.1 _ _ chunks
  rw [foldl_hear_fst] at is_current
  obtain rfl := is_current.symm.trans state
  cases known with
  | json => exact answers _ _ rfl
  | _ => exact absurd isKnown (by decide)

end Session

end SinosLang
