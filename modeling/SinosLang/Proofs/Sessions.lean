import SinosLang.Session
import SinosLang.Proofs.Parse.Naming

/-!
# Sessions are folds over their chunks

The lines that are typed in a session make up chunks, and a session answers one chunk after the
other. What it keeps from one to the next is changed by commands alone, but for the number of the
chunks that were programs. Where it lists no tokens it shows a program as a request for the same text
does, under the name of the chunk.

Main statements: `transcript_eq_foldl` for the chunks of a session, `respond_fst` for what a chunk
changes, `respond_as_requested` for the answer to a program, and `transcript_folds`.
-/

set_option autoImplicit false

namespace SinosLang

/-! ## The chunks of a session -/

/-- Behind a chunk there are fewer lines than before it. -/
theorem length_lt_of_readChunk {pending : PendingChunk} {lines rest : List Text} {prompts : Text}
    {chunk : Chunk} (read : readChunk pending lines = (prompts, some chunk, rest)) :
    rest.length < lines.length := by
  induction lines generalizing pending prompts with
  | nil => cases read
  | cons line later ih =>
    rw [readChunk] at read
    cases added : pending.add line with
    | complete chunk' =>
      rw [added] at read
      cases read
      exact Nat.lt_succ_self _
    | more pending' =>
      rw [added] at read
      cases behind : readChunk pending' later with
      | mk prompts' found =>
        obtain ⟨chunk?, rest'⟩ := found
        simp only [behind, Prod.mk.injEq] at read
        obtain ⟨_, rfl, rfl⟩ := read
        exact (ih behind).trans (Nat.lt_succ_self _)

/-- What is typed in a session: the chunks, each with the prompts that are shown for it, and the
prompts behind the last one, up to the wish to leave or the end of the lines. -/
structure Dialogue where
  chunks : List (Text × Text)
  prompts : Text
  leaves : Bool

namespace Dialogue

/-- The chunks that are read from some lines, one after the other. -/
def ofLines (lines : List Text) : Dialogue :=
  match _read : readChunk .empty lines with
  | (prompts, none, _) => ⟨[], prompts, false⟩
  | (prompts, some .leave, _) => ⟨[], prompts, true⟩
  | (prompts, some (.text chunk), rest) =>
    let later := ofLines rest
    { later with chunks := (prompts, chunk) :: later.chunks }
termination_by lines.length
decreasing_by exact length_lt_of_readChunk _read

/-- How a session ends: a chunk that is not complete at the end of the lines leaves its prompts
only. -/
def ending (dialogue : Dialogue) : Text :=
  dialogue.prompts ++ if dialogue.leaves then Session.farewell else '\n' :: Session.farewell

end Dialogue

namespace Session

/-- Goes on with a transcript by a chunk and the prompts before it. -/
def hear (heard : Session × Text) (exchange : Text × Text) : Session × Text :=
  ((heard.1.respond exchange.2).1, heard.2 ++ exchange.1 ++ (heard.1.respond exchange.2).2)

/-- A transcript goes on with the prompts for the next chunk and the answer to it. -/
theorem transcriptFrom_eq (session : Session) (pending : PendingChunk) (lines : List Text) :
    session.transcriptFrom pending lines =
      match readChunk pending lines with
      | (prompts, none, _) => prompts ++ '\n' :: farewell
      | (prompts, some .leave, _) => prompts ++ farewell
      | (prompts, some (.text chunk), rest) =>
        prompts ++ (session.respond chunk).2 ++
          (session.respond chunk).1.transcriptFrom .empty rest := by
  induction lines generalizing pending with
  | nil => rfl
  | cons line later ih =>
    rw [transcriptFrom, readChunk]
    cases added : pending.add line with
    | complete chunk => cases chunk <;> simp
    | more pending' =>
      dsimp only
      rw [ih]
      obtain ⟨prompts, chunk?, rest⟩ := readChunk pending' later
      rcases chunk? with _ | _ | _ <;> simp

/-- The transcript of the lines from the start of a chunk on is a fold over their chunks. -/
theorem append_transcriptFrom (session : Session) (before : Text) (lines : List Text) :
    before ++ session.transcriptFrom .empty lines =
      ((Dialogue.ofLines lines).chunks.foldl hear (session, before)).2 ++
        (Dialogue.ofLines lines).ending := by
  fun_induction Dialogue.ofLines lines generalizing session before with
  | case1 lines prompts rest read =>
    rw [transcriptFrom_eq, read]
    simp [Dialogue.ending]
  | case2 lines prompts rest read =>
    rw [transcriptFrom_eq, read]
    simp [Dialogue.ending]
  | case3 lines prompts chunk rest read later ih =>
    rw [transcriptFrom_eq, read]
    dsimp only
    rw [← List.append_assoc, ← List.append_assoc, ih]
    rfl

/-- A transcript is the banner, the answers to the chunks in turn, and the ending. -/
theorem transcript_eq_foldl (session : Session) (lines : List Text) :
    session.transcript lines =
      ((Dialogue.ofLines lines).chunks.foldl hear (session, session.banner)).2 ++
        (Dialogue.ofLines lines).ending :=
  session.append_transcriptFrom session.banner lines

end Session

/-! ## What a chunk changes -/

/-- What a chunk is for: nothing, the command that switches the listing of tokens, the command that
asks for a format, or a program. -/
inductive Purpose where
  | nothing
  | toggle
  | format (name : Text)
  | program
deriving DecidableEq

/-- The format that a chunk asks for if it consists of the word `format` and one other word. -/
def FormatCommand.requested? (chunk : Text) : Option Text :=
  match Text.words chunk with
  | [command, name] =>
    if Text.lower command == "format".toList then some (Text.lower name) else none
  | _ => none

/-- What a chunk is for, which does not depend on the session. -/
def Purpose.ofChunk (chunk : Text) : Purpose :=
  if chunk.isEmpty || (Lexeme.commentStart.isPrefixOf chunk && !chunk.contains '\n') then
    .nothing
  else if Text.lower chunk == "verbose-mode".toList then
    .toggle
  else
    match FormatCommand.requested? chunk with
    | some name => .format name
    | none => .program

namespace FormatCommand

variable {chunk name : Text}

/-- A chunk that asks for no format is not taken for a change of format. -/
theorem ofChunk?_eq_none (notRequested : requested? chunk = none) (current : Text) :
    ofChunk? chunk current = none := by
  unfold requested? at notRequested
  unfold ofChunk?
  split
  next command name two =>
    rw [two] at notRequested
    cases isFormat : Text.lower command == "format".toList with
    | true => simp only [isFormat, if_true, reduceCtorEq] at notRequested
    | false => rw [bne, isFormat, Bool.not_false, if_pos rfl]
  next => rfl

/-- A chunk asks for a format if it is two words, the first of which is the command and the second
the name. -/
theorem requested?_eq_some (requested : requested? chunk = some name) :
    ∃ command asked, Text.words chunk = [command, asked] ∧
      (Text.lower command == "format".toList) = true ∧ Text.lower asked = name := by
  unfold requested? at requested
  split at requested
  next command asked two =>
    cases isFormat : Text.lower command == "format".toList with
    | true =>
      rw [isFormat, if_pos rfl] at requested
      exact ⟨command, asked, two, isFormat, Option.some.inj requested⟩
    | false => simp only [isFormat, Bool.false_eq_true, if_false, reduceCtorEq] at requested
  next => cases requested

/-- What is answered to the wish for a format. -/
def answerTo (name : Text) : Text :=
  if (OutputFormat.ofName? name).isSome then
    "[format] >>> Output format: ".toList ++ name ++ ['\n']
  else
    "[error] >>> Unknown format ".toList ++ Text.listed name ++ "; pick one of ".toList ++
      Text.join ", ".toList OutputFormat.names ++ ['\n']

/-- A format command changes the format if the one that it asks for is known. -/
theorem ofChunk?_eq_some (requested : requested? chunk = some name) (current : Text) :
    ofChunk? chunk current =
      some ⟨if (OutputFormat.ofName? name).isSome then name else current, answerTo name⟩ := by
  obtain ⟨command, asked, two, isFormat, rfl⟩ := requested?_eq_some requested
  unfold ofChunk? answerTo
  rw [two]
  dsimp only
  rw [bne, isFormat, Bool.not_true, if_neg Bool.false_ne_true]
  cases OutputFormat.ofName? (Text.lower asked) <;> rfl

end FormatCommand

namespace Session

variable {session : Session} {chunk : Text} {known : OutputFormat}

/-- A session after a chunk with a purpose. -/
def after (session : Session) : Purpose → Session
  | .nothing => session
  | .toggle => { session with verbose := !session.verbose }
  | .format name =>
    if (OutputFormat.ofName? name).isSome then { session with format := name } else session
  | .program => { session with parsed := session.parsed + 1 }

/-- What a session answers to a chunk with a purpose. -/
def reply (session : Session) (chunk : Text) : Purpose → Text
  | .nothing => []
  | .toggle =>
    "[mode] >>> Verbose mode ".toList ++
      if session.verbose then "OFF\n".toList else "ON\n".toList
  | .format name => FormatCommand.answerTo name
  | .program => session.showChunk (sourceOf (session.parsed + 1) chunk)

/-- The purpose of a chunk decides what is answered and how the session goes on. -/
theorem respond_eq (session : Session) (chunk : Text) :
    session.respond chunk =
      (session.after (Purpose.ofChunk chunk), session.reply chunk (Purpose.ofChunk chunk)) := by
  unfold respond Purpose.ofChunk
  by_cases blank : (chunk.isEmpty || (Lexeme.commentStart.isPrefixOf chunk &&
      !chunk.contains '\n')) = true
  · rw [if_pos blank, if_pos blank]
    rfl
  · rw [if_neg blank, if_neg blank]
    by_cases toggles : (Text.lower chunk == "verbose-mode".toList) = true
    · rw [if_pos toggles, if_pos toggles]
      rfl
    · rw [if_neg toggles, if_neg toggles]
      cases requested : FormatCommand.requested? chunk with
      | none =>
        rw [FormatCommand.ofChunk?_eq_none requested]
        rfl
      | some name =>
        rw [FormatCommand.ofChunk?_eq_some requested]
        dsimp only [after, reply]
        split <;> rfl

/-- A program is answered by what it shows under its number. -/
theorem respond_of_program (isProgram : Purpose.ofChunk chunk = .program) :
    session.respond chunk = ({ session with parsed := session.parsed + 1 },
      session.showChunk (sourceOf (session.parsed + 1) chunk)) := by
  rw [respond_eq, isProgram]
  rfl

/-- Only the two commands change whether tokens are listed and the format, and an unknown format does
not; only a program is counted. -/
theorem respond_fst (session : Session) (chunk : Text) :
    (session.respond chunk).1 = session.after (Purpose.ofChunk chunk) := by
  rw [respond_eq]

/-- A session keeps a format that there is. -/
def Presentable (session : Session) : Prop :=
  ∃ known : OutputFormat, session.format = known.name

/-- A chunk of any purpose leaves a session presentable. -/
theorem Presentable.after (presentable : session.Presentable) (purpose : Purpose) :
    (session.after purpose).Presentable := by
  cases purpose with
  | nothing | toggle | program => exact presentable
  | format name =>
    rcases OutputFormat.ofName?_cases name with ⟨known, same, found⟩ | ⟨_, found⟩
    · refine ⟨known, ?_⟩
      simpa [Session.after, found] using same
    · simpa [Session.after, found] using presentable

/-- The session behind some chunks. -/
def afterAll (session : Session) (chunks : List (Text × Text)) : Session :=
  chunks.foldl (fun current exchange => current.after (Purpose.ofChunk exchange.2)) session

/-- The session after some chunks does not depend on what was printed before them. -/
theorem foldl_hear_fst (session : Session) (before : Text) (chunks : List (Text × Text)) :
    (chunks.foldl hear (session, before)).1 = session.afterAll chunks := by
  induction chunks generalizing session before with
  | nil => rfl
  | cons exchange chunks ih =>
    rw [List.foldl_cons, hear, ih, respond_fst]
    rfl

/-- Any chunks leave a session presentable. -/
theorem Presentable.afterAll (presentable : session.Presentable) (chunks : List (Text × Text)) :
    (session.afterAll chunks).Presentable := by
  induction chunks generalizing session with
  | nil => exact presentable
  | cons exchange chunks ih => exact ih (presentable.after _)

/-- A program is counted, and a chunk of any other purpose is not. -/
theorem parsed_after (session : Session) (purpose : Purpose) :
    (session.after purpose).parsed = session.parsed + if purpose = .program then 1 else 0 := by
  cases purpose with
  | format name => cases found : OutputFormat.ofName? name <;> simp [after, found]
  | nothing | toggle | program => simp [after]

/-- The programs among the chunks are counted, and nothing else. -/
theorem parsed_afterAll (session : Session) (chunks : List (Text × Text)) :
    (session.afterAll chunks).parsed =
      session.parsed + chunks.countP fun exchange => Purpose.ofChunk exchange.2 = .program := by
  induction chunks generalizing session with
  | nil => rfl
  | cons exchange chunks ih =>
    have step : session.afterAll (exchange :: chunks) =
        (session.after (Purpose.ofChunk exchange.2)).afterAll chunks := rfl
    rw [step, ih, parsed_after, List.countP_cons]
    simp only [decide_eq_true_eq]
    omega

/-! ## The answer to a program -/

/-- A chunk is answered as a run of the command reports its text: what is accepted goes to the first
output, and what is rejected is reported with the name of the chunk in place of that of a text. -/
def AnswersAs (session : Session) (chunk : Text) (report : Report) : Prop :=
  match (Source.ofText textSourceName chunk).parse with
  | .ok _ => report.status = 0 ∧ report.stderr = [] ∧ (session.respond chunk).2 = report.stdout
  | .error _ => report.status = 1 ∧ report.stdout = [] ∧ ∃ rest,
    report.stderr = "[error] >>>\n".toList ++ (textSourceName ++ rest) ∧
    (session.respond chunk).2 = "[error] >>>\n".toList ++
      ("<repl:".toList ++ Text.ofNat (session.parsed + 1) ++ ['>'] ++ rest)

/-- A program is answered, on whatever disk, as a run of the command reports its text. -/
theorem respond_as_requested {m : Type → Type} [Monad m] [LawfulMonad m] (disk : Disk m)
    (isKnown : session.format = known.name) (quiet : session.verbose = false)
    (isProgram : Purpose.ofChunk chunk = .program) :
    ∃ report, Request.run disk (.ofText chunk known false) = pure (.ok report) ∧
      session.AnswersAs chunk report := by
  have parsed_eq : (sourceOf (session.parsed + 1) chunk).parse =
      (Source.ofText textSourceName chunk).parse := Source.parse_ofText _ _ chunk
  rw [Request.run_ofText]
  unfold AnswersAs Request.shown Source.rendering
  rw [respond_of_program isProgram, showChunk, quiet, if_neg Bool.false_ne_true, showProgram,
    parsed_eq, isKnown, OutputFormat.ofName?_name]
  cases parsed : (Source.ofText textSourceName chunk).parse with
  | ok tree => exact ⟨_, rfl, rfl, rfl, rfl⟩
  | error failure =>
    obtain ⟨d, rfl, _⟩ := Source.parse_error parsed
    obtain ⟨rest, shows⟩ := d.render_ofText chunk
    refine ⟨_, rfl, rfl, rfl, rest ++ ['\n'], ?_, ?_⟩
    · show errorBanner ++ d.render _ ++ ['\n'] = errorBanner ++ (textSourceName ++ (rest ++ ['\n']))
      rw [shows, List.append_assoc, List.append_assoc]
    · show errorBanner ++ d.render _ ++ ['\n'] = errorBanner ++ (_ ++ (rest ++ ['\n']))
      rw [sourceOf, shows, List.append_assoc, List.append_assoc]

/-- The transcript of a session is its opening line, then the prompts and the answer for each chunk,
and how it ends. A chunk is answered by a session with the listing of tokens and the format that the
commands before it have left and with the number of the programs before it. Only the two commands
change the former, and an unknown format does not. Where no tokens are listed, a program is answered
as a run of the command reports its text in the same format. -/
theorem transcript_folds (verbose : Bool) (format : OutputFormat) (lines : List Text) :
    let start : Session := ⟨verbose, format.name, 0⟩
    let dialogue := Dialogue.ofLines lines
    start.banner = "Sinos REPL [format=".toList ++ format.name ++
        "]. Type 'exit' or 'quit' to leave.\n".toList ∧
      start.transcript lines =
        (dialogue.chunks.foldl hear (start, start.banner)).2 ++ dialogue.ending ∧
      ∀ earlier prompts chunk later, dialogue.chunks = earlier ++ (prompts, chunk) :: later →
        ∃ (current : Session) (known : OutputFormat),
          (earlier.foldl hear (start, start.banner)).1 = current ∧
          current.format = known.name ∧
          current.parsed =
            (earlier.countP fun exchange => Purpose.ofChunk exchange.2 = .program) ∧
          (current.respond chunk).1 = current.after (Purpose.ofChunk chunk) ∧
          (current.verbose = false → Purpose.ofChunk chunk = .program →
            ∀ (m : Type → Type) [Monad m] [LawfulMonad m] (disk : Disk m),
              ∃ report, Request.run disk (.ofText chunk known false) = pure (.ok report) ∧
                current.AnswersAs chunk report) := by
  intro start dialogue
  refine ⟨rfl, start.transcript_eq_foldl lines, ?_⟩
  intro earlier prompts chunk later _
  have presentable : start.Presentable := ⟨format, rfl⟩
  obtain ⟨known, isKnown⟩ := presentable.afterAll earlier
  refine ⟨start.afterAll earlier, known, foldl_hear_fst start _ earlier, isKnown, ?_, ?_, ?_⟩
  · rw [parsed_afterAll]
    exact Nat.zero_add _
  · exact respond_fst _ chunk
  · intro quiet isProgram m _ _ disk
    exact respond_as_requested disk isKnown quiet isProgram

/-- The command is no program, so the rejected chunk is the second one; the open block behind it is
no chunk. -/
theorem transcript_folds_rejected :
    (Dialogue.ofLines ["1;".toList, "format json".toList, "(1".toList, ['\x7b']]).chunks =
      [(">>> ".toList, "1;".toList), (">>> ".toList, "format json".toList),
        (">>> ".toList, "(1".toList)] ∧
    ∃ report rest,
      Request.run Folder.disk (.ofText "(1".toList .json false) = pure (.ok report) ∧
      report.stderr = "[error] >>>\n".toList ++ ("<string>".toList ++ rest) ∧
      ((⟨false, "json".toList, 1⟩ : Session).respond "(1".toList).2 =
        "[error] >>>\n".toList ++ ("<repl:2>".toList ++ rest) := by
  have chunks : (Dialogue.ofLines
      ["1;".toList, "format json".toList, "(1".toList, ['\x7b']]).chunks =
        [(">>> ".toList, "1;".toList), (">>> ".toList, "format json".toList)] ++
          (">>> ".toList, "(1".toList) :: [] := by decide +kernel
  have state : (⟨false, "tree".toList, 0⟩ : Session).afterAll
      [(">>> ".toList, "1;".toList), (">>> ".toList, "format json".toList)] =
        ⟨false, "json".toList, 1⟩ := by decide +kernel
  have failed : (Source.ofText textSourceName "(1".toList).parse =
      .error (.diagnostic ⟨.expectParenClose, ⟨2, 0⟩⟩) := by cbv
  refine ⟨chunks, ?_⟩
  obtain ⟨current, known, is_current, isKnown, _, _, answers⟩ :=
    (transcript_folds false .tree
      ["1;".toList, "format json".toList, "(1".toList, ['\x7b']]).2.2 _ _ _ _ chunks
  rw [foldl_hear_fst] at is_current
  obtain rfl := is_current.symm.trans state
  cases known with
  | json =>
    obtain ⟨report, run, answersAs⟩ := answers rfl (by decide +kernel) _ Folder.disk
    unfold AnswersAs at answersAs
    rw [failed] at answersAs
    obtain ⟨_, _, rest, shows, answer⟩ := answersAs
    exact ⟨report, rest, run, shows, answer⟩
  | _ => exact absurd isKnown (by decide)

end Session

end SinosLang
