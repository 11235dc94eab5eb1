import SinosLang.Command

/-!
# The program

The command line on the real console and the real files. Everything that is decided is decided by
`Command.ofArguments`, `Request.run` and `Session.respond`.
-/

set_option autoImplicit false

namespace SinosLang.Console

/-- Prints a text on an output. -/
def put (output : IO.FS.Stream) (text : Text) : IO Unit := do
  output.putStr (String.ofList text)
  output.flush

/-- The file error that a failed operation on a path amounts to. -/
def fileError (path : Text) : IO.Error → FileError
  | .noFileOrDirectory .. => ⟨.notFound, path⟩
  | error => ⟨.other (toString error).toList, path⟩

/-- The real files, read as UTF-8. -/
def disk : Disk IO where
  read path := do
    match ← (IO.FS.readBinFile (String.ofList path)).toBaseIO with
    | .error error => return .error (fileError path error)
    | .ok bytes =>
      match String.fromUTF8? bytes with
      | some text => return .ok (Text.unifyNewlines text.toList)
      | none => return .error ⟨.notText, path⟩
  write path text := do
    match ← (IO.FS.writeFile (String.ofList path) (String.ofList text)).toBaseIO with
    | .error error => return .error (fileError path error)
    | .ok _ => return .ok ()

/-- Goes on with a session inside a chunk. The lines already read are answered first, then more are
read until the input ends. -/
partial def converse (session : Session) (pending : PendingChunk) (lines : List Text) :
    IO Unit := do
  let output ← IO.getStdout
  match lines with
  | [] =>
    put output pending.prompt
    let line ← (← IO.getStdin).getLine
    if line.isEmpty then
      put output ('\n' :: Session.farewell)
    else
      converse session pending (Text.inputLines line.toList)
  | line :: later =>
    match pending.add line with
    | .more pending' => converse session pending' later
    | .complete .leave => put output Session.farewell
    | .complete (.text chunk) =>
      let (session', answer) := session.respond chunk
      put output answer
      converse session' .empty later

end SinosLang.Console

open SinosLang

/-- Runs the program with the given arguments and answers with its exit status. -/
def main (arguments : List String) : IO UInt32 := do
  let output ← IO.getStdout
  let errors ← IO.getStderr
  match Command.ofArguments (arguments.map String.toList) with
  | .converse session =>
    Console.put output session.banner
    Console.converse session .empty []
    return 0
  | .exit report =>
    Console.put output report.stdout
    Console.put errors report.stderr
    return report.status.toUInt32
  | .carryOut request =>
    match ← request.run Console.disk with
    | .ok report =>
      Console.put output report.stdout
      Console.put errors report.stderr
      return report.status.toUInt32
    | .error error =>
      Console.put errors (error.message ++ ['\n'])
      return 1
