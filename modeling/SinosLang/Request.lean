import SinosLang.Output
import SinosLang.Disk
import SinosLang.Parse.Grammar

/-!
# Requests

A request names a program, as a file or as text, and asks for its tree in some format or for its
tokens. Carrying it out yields a report, or one of the few errors that leave nothing behind. All is
checked and rendered before anything is written.
-/

set_option autoImplicit false

namespace SinosLang

/-- What one run of the front end is asked for. -/
structure Request where
  input : Text
  isText : Bool := false
  format : Text := "tree".toList
  out? : Option Text := none
  tokens : Bool := false

/-- What a run leaves for its user: the two outputs and the exit status. -/
structure Report where
  stdout : Text
  stderr : Text
  status : Nat
deriving DecidableEq

/-- What can keep a run from a report. -/
inductive RequestError where
  | unsupportedFile
  | unknownFormat (name : Text)
  | file (error : FileError)
  | failure (cause : Failure)
deriving DecidableEq

/-- The words for an error. -/
def RequestError.message : RequestError → Text
  | .unsupportedFile => "Only .sinos files are supported.".toList
  | .unknownFormat name => OutputFormat.unknownMessage name
  | .file error => error.message
  | .failure cause => cause.message

/-- The ending of the names of source files. -/
def sourceSuffix : Text :=
  ".sinos".toList

/-- The name of a source that was given as text. -/
def textSourceName : Text :=
  "<string>".toList

/-- The line that announces an error. -/
def errorBanner : Text :=
  "[error] >>>\n".toList

/-- The diagnostic of a source under its banner. -/
def diagnosticReport (source : Source) (d : Diagnostic) : Text :=
  errorBanner ++ d.render source ++ ['\n']

/-- The listing of the tokens of a source. -/
def Source.tokenListing (source : Source) : Except Failure Text :=
  source.tokenize.result.map Token.listing

/-- The tree of a source in a format. -/
def Source.rendering (source : Source) (format : OutputFormat) : Except Failure Text :=
  source.parse.map format.render

namespace Request

variable {m : Type → Type} [Monad m]

/-- The format that is asked for, once the request has been checked. -/
def check (request : Request) : Except RequestError OutputFormat :=
  if !request.isText && !sourceSuffix.isSuffixOf request.input then
    .error .unsupportedFile
  else
    match OutputFormat.ofName? request.format with
    | some format => .ok format
    | none => .error (.unknownFormat request.format)

/-- The source that is asked for. -/
def source (disk : Disk m) (request : Request) : m (Except RequestError Source) :=
  if request.isText then
    return .ok (Source.ofText textSourceName request.input)
  else do
    match ← disk.read request.input with
    | .ok text => return .ok (Source.ofText request.input text)
    | .error error => return .error (.file error)

/-- Delivers a text as a line of output or, if a file is named, as the contents of the file. The
output takes any text, for any text can be encoded. -/
def deliver (disk : Disk m) (request : Request) (text : Text) : m (Except RequestError Report) :=
  let line := text ++ ['\n']
  match request.out? with
  | none | some [] => return .ok ⟨line, [], 0⟩
  | some path => do
    match ← disk.write path line with
    | .ok _ => return .ok ⟨[], [], 0⟩
    | .error error => return .error (.file error)

/-- Carries out a request. -/
def run (disk : Disk m) (request : Request) : m (Except RequestError Report) := do
  match request.check with
  | .error error => return .error error
  | .ok format =>
    match ← request.source disk with
    | .error error => return .error error
    | .ok source =>
      match if request.tokens then source.tokenListing else source.rendering format with
      | .ok text => request.deliver disk text
      | .error (.diagnostic d) => return .ok ⟨[], diagnosticReport source d, 1⟩
      | .error failure => return .error (.failure failure)

end Request

end SinosLang
