import SinosLang.Request
import SinosLang.Text.Case

/-!
# Interactive sessions

A session reads chunks of input, each continued while its braces are open, and answers each one with
a rendering, a diagnostic, or the effect of a command. Its transcript, prompts included, is a
function of the lines that were typed.
-/

set_option autoImplicit false

namespace SinosLang

/-- The lines of a chunk that have been read so far, latest first, and the number of braces that are
open in them. -/
structure PendingChunk where
  lines : List Text
  balance : Int

/-- A chunk of input: a program or a command, or the wish to leave. -/
inductive Chunk where
  | text (text : Text)
  | leave
deriving DecidableEq, Repr

/-- What one more line makes of the lines before it. -/
inductive Gathered where
  | more (pending : PendingChunk)
  | complete (chunk : Chunk)

namespace PendingChunk

/-- No lines yet. -/
def empty : PendingChunk where
  lines := []
  balance := 0

/-- The prompt for the next line. -/
def prompt (pending : PendingChunk) : Text :=
  if pending.lines.isEmpty then ">>> ".toList else "... ".toList

/-- Whether a line asks to leave the session. -/
def asksToLeave (line : Text) : Bool :=
  Text.trim line == "exit".toList || Text.trim line == "quit".toList

/-- How many more braces a line opens than it closes. -/
def braces (line : Text) : Int :=
  (line.count '\x7b' : Int) - line.count '\x7d'

/-- Adds a line. A chunk is complete once no brace is open in it. -/
def add (pending : PendingChunk) (line : Text) : Gathered :=
  if asksToLeave line && pending.lines.isEmpty then
    .complete .leave
  else
    let lines := line :: pending.lines
    let balance := pending.balance + braces line
    if balance ≤ 0 then
      .complete (.text (Text.trim (Text.joinLines lines.reverse)))
    else
      .more ⟨lines, balance⟩

end PendingChunk

/-- Reads a chunk from the lines still to come: the prompts that are shown, the chunk unless the
lines end before it is complete, and the lines behind it. -/
def readChunk (pending : PendingChunk) : List Text → Text × Option Chunk × List Text
  | [] => (pending.prompt, none, [])
  | line :: later =>
    match pending.add line with
    | .complete chunk => (pending.prompt, some chunk, later)
    | .more pending' =>
      let (prompts, chunk?, rest) := readChunk pending' later
      (pending.prompt ++ prompts, chunk?, rest)

/-- The format command. -/
structure FormatCommand where
  format : Text
  answer : Text
deriving DecidableEq

/-- What a chunk does as a format command: the format from then on and the answer. It is one if it
consists of the word `format` and one other word; an unknown format changes nothing. -/
def FormatCommand.ofChunk? (chunk current : Text) : Option FormatCommand :=
  match Text.words chunk with
  | [command, name] =>
    if Text.lower command != "format".toList then
      none
    else
      let requested := Text.lower name
      match OutputFormat.ofName? requested with
      | some _ => some ⟨requested, "[format] >>> Output format: ".toList ++ requested ++ ['\n']⟩
      | none =>
        some ⟨current,
          "[error] >>> Unknown format ".toList ++ Text.listed requested ++
            "; pick one of ".toList ++ Text.join ", ".toList OutputFormat.names ++ ['\n']⟩
  | _ => none

/-- The report of an unexpected error with a message, or of none at all. -/
def unexpectedReport : Option Text → Text
  | none => errorBanner ++ "NoneType: None\n\n".toList
  | some message =>
    errorBanner ++ "Traceback (most recent call last):\nValueError".toList ++
      (if message.isEmpty then [] else ": ".toList ++ message) ++ "\n\n".toList

/-- What a session keeps from one chunk to the next: whether it lists tokens, the format it shows
programs in, and how many chunks it has parsed. -/
structure Session where
  verbose : Bool := false
  format : Text := "tree".toList
  parsed : Nat := 0
deriving DecidableEq

namespace Session

/-- The line that opens a session. -/
def banner (session : Session) : Text :=
  "Sinos REPL [format=".toList ++ session.format ++
    "]. Type 'exit' or 'quit' to leave.\n".toList

/-- The line that ends a session. -/
def farewell : Text :=
  "Exiting Sinos REPL.\n".toList

/-- The source that a chunk becomes. -/
def sourceOf (number : Nat) (chunk : Text) : Source :=
  Source.ofText ("<repl:".toList ++ Text.ofNat number ++ ['>']) chunk

/-- The program of a source in the format with a name. -/
def showProgram (format : Text) (source : Source) : Text :=
  match source.parse with
  | .error (.diagnostic d) => diagnosticReport source d
  | .error failure => unexpectedReport (some failure.message)
  | .ok node =>
    match OutputFormat.ofName? format with
    | some known => known.render node ++ ['\n']
    | none => unexpectedReport (some (OutputFormat.unknownMessage format))

/-- The answer to a chunk that is a program: the tokens if the session lists them, and the
program. -/
def showChunk (session : Session) (source : Source) : Text :=
  if session.verbose then
    match source.tokenListing with
    | .ok listing => listing ++ '\n' :: showProgram session.format source
    | .error (.diagnostic d) => diagnosticReport source d
    | .error failure => unexpectedReport (some failure.message)
  else
    showProgram session.format source

/-- The answer of a session to a chunk, and the session after it. -/
def respond (session : Session) (chunk : Text) : Session × Text :=
  if chunk.isEmpty || (Lexeme.commentStart.isPrefixOf chunk && !chunk.contains '\n') then
    (session, [])
  else if Text.lower chunk == "verbose-mode".toList then
    ({ session with verbose := !session.verbose },
      "[mode] >>> Verbose mode ".toList ++
        (if session.verbose then "OFF\n".toList else "ON\n".toList))
  else
    match FormatCommand.ofChunk? chunk session.format with
    | some command => ({ session with format := command.format }, command.answer)
    | none =>
      let number := session.parsed + 1
      ({ session with parsed := number }, session.showChunk (sourceOf number chunk))

/-- The rest of a transcript from inside a chunk on, given the lines still to come. -/
def transcriptFrom (session : Session) (pending : PendingChunk) : List Text → Text
  | [] => pending.prompt ++ '\n' :: farewell
  | line :: later =>
    pending.prompt ++
      match pending.add line with
      | .more pending' => transcriptFrom session pending' later
      | .complete .leave => farewell
      | .complete (.text chunk) =>
        let (session', answer) := session.respond chunk
        answer ++ transcriptFrom session' .empty later

/-- The transcript of a session in which the given lines are typed. -/
def transcript (session : Session) (lines : List Text) : Text :=
  session.banner ++ session.transcriptFrom .empty lines

end Session

end SinosLang
