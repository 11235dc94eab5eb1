import SinosLang.Arguments
import SinosLang.Session

/-!
# The command

What the program does with its arguments: it opens a session, carries out a request, or ends at once
with a word on its usage.
-/

set_option autoImplicit false

namespace SinosLang

/-- What the arguments tell the program to do. -/
inductive Command where
  | converse (session : Session)
  | carryOut (request : Request)
  | exit (report : Report)

namespace Command

/-- The usage of the program. -/
def usage : Text :=
  Text.joinLines [
    "usage: sinos [-h] [-s] [-f \x7btree,json,source\x7d] [-o OUTFILE] [--tokens]".toList,
    "             [--repl] [--verbose]".toList,
    "             [source]".toList,
    []]

/-- What the program says when asked for help. -/
def help : Text :=
  usage ++ Text.joinLines [
    [],
    "positional arguments:".toList,
    "  source                Filename or raw source (with -s)".toList,
    [],
    "options:".toList,
    "  -h, --help            show this help message and exit".toList,
    "  -s, --string          Interpret source as literal string".toList,
    "  -f \x7btree,json,source\x7d, --format \x7btree,json,source\x7d".toList,
    "                        AST output format (default: tree)".toList,
    "  -o OUTFILE, --out OUTFILE".toList,
    "                        Output to file".toList,
    "  --tokens              Print tokens instead of the AST".toList,
    "  --repl                Launch interactive REPL instead of parsing a source".toList,
    "  --verbose             Verbose REPL mode (if --repl)".toList,
    []]

/-- The command that settings amount to: a session if one is asked for or if there is no source. -/
def ofSettings (settings : Arguments) : Command :=
  match settings.source? with
  | some source =>
    if settings.repl then
      .converse { verbose := settings.verbose, format := settings.format }
    else
      .carryOut {
        input := source
        isText := settings.isText
        format := settings.format
        out? := settings.out?
        tokens := settings.tokens }
  | none => .converse { verbose := settings.verbose, format := settings.format }

/-- The command that arguments amount to. Without any it is a session. -/
def ofArguments (texts : List Text) : Command :=
  match texts with
  | [] => .converse {}
  | _ :: _ =>
    match Arguments.parse texts with
    | .ok settings => ofSettings settings
    | .error .help => .exit ⟨help, [], 0⟩
    | .error (.usage error) =>
      .exit ⟨[], usage ++ "sinos: error: ".toList ++ error.message ++ ['\n'], 2⟩

end Command

end SinosLang
