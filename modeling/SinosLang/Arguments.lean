import SinosLang.Text.Quoted
import SinosLang.Output

/-!
# Command-line arguments

The flags of the program and the way its arguments are read. Flags may stand before and behind the
one positional argument, short ones may be clustered, long ones may be cut short as long as they
stay unambiguous, and a value may be attached to its flag. Behind a double dash nothing is a flag.
-/

set_option autoImplicit false

namespace SinosLang

/-- The flags of the program. -/
inductive Flag where
  | help
  | string
  | format
  | out
  | tokens
  | repl
  | verbose
deriving DecidableEq, Repr

namespace Flag

/-- All flags. -/
def all : List Flag :=
  [help, string, format, out, tokens, repl, verbose]

/-- The spellings of a flag, the short one first if there is one. -/
def spellings : Flag → List Text
  | help => ["-h".toList, "--help".toList]
  | string => ["-s".toList, "--string".toList]
  | format => ["-f".toList, "--format".toList]
  | out => ["-o".toList, "--out".toList]
  | tokens => ["--tokens".toList]
  | repl => ["--repl".toList]
  | verbose => ["--verbose".toList]

/-- Whether a flag takes a value. -/
def takesValue : Flag → Bool
  | format | out => true
  | _ => false

/-- Every spelling with its flag. -/
def table : List (Text × Flag) :=
  all.flatMap fun flag => flag.spellings.map fun spelling => (spelling, flag)

/-- The flag with a spelling. -/
def ofSpelling? (spelling : Text) : Option Flag :=
  table.lookup spelling

/-- The name of a flag in messages: all of its spellings. -/
def title (flag : Flag) : Text :=
  Text.join ['/'] flag.spellings

end Flag

/-- What can be wrong with the arguments. -/
inductive UsageError where
  | invalidChoice (flag : Flag) (choice : Text)
  | missingValue (flag : Flag)
  | ignoredValue (flag : Flag) (value : Text)
  | ambiguous (argument : Text) (spellings : List Text)
  | unrecognized (arguments : List Text)
deriving DecidableEq, Repr

/-- The words for what is wrong with the arguments. -/
def UsageError.message : UsageError → Text
  | invalidChoice flag choice =>
    "argument ".toList ++ flag.title ++ ": invalid choice: ".toList ++ Text.listed choice ++
      " (choose from ".toList ++ Text.join ", ".toList (OutputFormat.names.map Text.listed) ++ [')']
  | missingValue flag => "argument ".toList ++ flag.title ++ ": expected one argument".toList
  | ignoredValue flag value =>
    "argument ".toList ++ flag.title ++ ": ignored explicit argument ".toList ++ Text.listed value
  | ambiguous argument spellings =>
    "ambiguous option: ".toList ++ argument ++ " could match ".toList ++
      Text.join ", ".toList spellings
  | unrecognized arguments => "unrecognized arguments: ".toList ++ Text.join [' '] arguments

/-- Why the reading of arguments stops early. -/
inductive ArgumentStop where
  | help
  | usage (error : UsageError)
deriving DecidableEq, Repr

/-- One argument by its form. A flag is spelled short or long and may have a text attached to it. -/
inductive Argument where
  | positional (text : Text)
  | separator
  | flag (flag : Flag) (short : Bool) (attached : Option Text)
  | unknown (text : Text)
deriving DecidableEq, Repr

namespace Argument

/-- Whether a text is a negative number: a minus sign and digits of any script, with at most one
point before the last of them. A newline may follow. -/
def isNegativeNumber (text : Text) : Bool :=
  match text with
  | '-' :: rest =>
    let body := if rest.getLast? == some '\n' then rest.dropLast else rest
    let isNumeral := fun c => (Text.digitValue? c).isSome
    match body.dropWhile isNumeral with
    | [] => !body.isEmpty
    | '.' :: fraction => !fraction.isEmpty && fraction.all isNumeral
    | _ => false
  | _ => false

/-- The readings of an argument that begins with a dash and is no spelling by itself: long spellings
that it cuts short, or a short one with something attached. -/
def candidates (text : Text) : List (Text × Argument) :=
  match text with
  | '-' :: '-' :: _ =>
    let stem := text.takeWhile (· != '=')
    let attached :=
      match text.dropWhile (· != '=') with
      | '=' :: value => some value
      | _ => none
    (Flag.table.filter fun entry => stem.isPrefixOf entry.1).map
      fun entry => (entry.1, .flag entry.2 false attached)
  | _ =>
    (Flag.table.filter fun entry => entry.1 == text.take 2).map
      fun entry => (entry.1, .flag entry.2 true (some (text.drop 2)))

/-- The reading of an argument with an equals sign behind a full spelling. -/
def assignment? (text : Text) : Option Argument :=
  match text.dropWhile (· != '=') with
  | '=' :: value =>
    let stem := text.takeWhile (· != '=')
    (Flag.ofSpelling? stem).map fun known =>
      .flag known (stem.length == 2) (some value)
  | _ => none

/-- An argument that begins with a dash and is no flag: a number or a text with a space in it is
positional. -/
def leftover (text : Text) : Argument :=
  if isNegativeNumber text || text.contains ' ' then .positional text else .unknown text

/-- The form of an argument before any double dash. -/
def classify (text : Text) : Except UsageError Argument :=
  match text with
  | '-' :: _ :: _ =>
    match Flag.ofSpelling? text with
    | some known => .ok (.flag known (text.length == 2) none)
    | none =>
      match assignment? text with
      | some argument => .ok argument
      | none =>
        match candidates text with
        | [] => .ok (leftover text)
        | [candidate] => .ok candidate.2
        | several => .error (.ambiguous text (several.map Prod.fst))
  | _ => .ok (.positional text)

/-- The forms of all arguments. The first double dash separates; behind it all are positional. -/
def classifyAll : List Text → Except UsageError (List Argument)
  | [] => .ok []
  | text :: texts =>
    if text == ['-', '-'] then
      .ok (.separator :: texts.map .positional)
    else
      (classify text).bind fun argument =>
        (classifyAll texts).map fun arguments => argument :: arguments

end Argument

/-- A flag that has been given, with its value if it has one. -/
structure Setting where
  flag : Flag
  value? : Option Text
deriving DecidableEq, Repr

/-- What one flag argument asks for: settings in order, and a flag that still needs the next
argument for its value. -/
structure Expansion where
  settings : List Setting
  needsValue : Option Flag
deriving DecidableEq, Repr

namespace Expansion

/-- A flag by itself. -/
def alone (flag : Flag) : Expansion :=
  if flag.takesValue then ⟨[], some flag⟩ else ⟨[⟨flag, none⟩], none⟩

/-- A flag without a value before the others. -/
def before (flag : Flag) (later : Expansion) : Expansion :=
  { later with settings := ⟨flag, none⟩ :: later.settings }

/-- The value that an attached text gives. A double dash gives none. -/
def attachedValue (text : Text) : Option Text :=
  if text == ['-', '-'] then none else some text

/-- A flag with a text attached to it. A short flag that takes no value goes on to a cluster: the
first character of the text is the next short flag, and the others are attached to that. -/
def attach (flag : Flag) (short : Bool) (text : Text) : Except UsageError Expansion :=
  if flag.takesValue then
    .ok ⟨[⟨flag, attachedValue text⟩], none⟩
  else
    match text with
    | [] => .error (.ignoredValue flag [])
    | c :: rest =>
      match if short then Flag.ofSpelling? ['-', c] else none with
      | none => .error (.ignoredValue flag (c :: rest))
      | some next =>
        if rest.isEmpty then
          .ok ((alone next).before flag)
        else
          (attach next true rest).map (before flag)

/-- What a flag argument asks for. -/
def ofFlag (flag : Flag) (short : Bool) : Option Text → Except UsageError Expansion
  | none => .ok (alone flag)
  | some text => attach flag short text

end Expansion

/-- The settings of a run as the arguments give them. -/
structure Arguments where
  source? : Option Text := none
  isText : Bool := false
  format : Text := "tree".toList
  out? : Option Text := none
  tokens : Bool := false
  repl : Bool := false
  verbose : Bool := false
deriving DecidableEq

/-- Arguments on the way: the settings so far, whether the positional one has been seen, and those
that nothing was made of, latest first. -/
structure ArgumentState where
  settings : Arguments
  sourceSeen : Bool
  extras : List Text

namespace Arguments

/-- What stands for the name of a format that was asked for without one. -/
def unnamedFormat : Text :=
  ['[', ']']

/-- Applies one setting. -/
def set (settings : Arguments) (setting : Setting) : Except ArgumentStop Arguments :=
  match setting.flag with
  | .help => .error .help
  | .string => .ok { settings with isText := true }
  | .format =>
    match setting.value? with
    | none => .ok { settings with format := unnamedFormat }
    | some name =>
      if OutputFormat.names.contains name then
        .ok { settings with format := name }
      else
        .error (.usage (.invalidChoice .format name))
  | .out => .ok { settings with out? := setting.value? }
  | .tokens => .ok { settings with tokens := true }
  | .repl => .ok { settings with repl := true }
  | .verbose => .ok { settings with verbose := true }

/-- Applies settings in order. -/
def apply (state : ArgumentState) (changes : List Setting) : Except ArgumentStop ArgumentState :=
  (changes.foldlM set state.settings).map fun settings => { state with settings := settings }

/-- Takes the positional argument. -/
def takeSource (state : ArgumentState) (text : Text) : ArgumentState :=
  { state with settings := { state.settings with source? := some text }, sourceSeen := true }

/-- Reads arguments by their forms. The first positional argument is the source, together with a
double dash on either side of it; what nothing is made of is collected. -/
def collect (state : ArgumentState) : List Argument → Except ArgumentStop ArgumentState
  | [] => .ok state
  | .flag flag short attached :: later =>
    match Expansion.ofFlag flag short attached with
    | .error error => .error (.usage error)
    | .ok expansion =>
      match expansion.needsValue with
      | none => (apply state expansion.settings).bind fun state => collect state later
      | some needy =>
        match later with
        | .positional value :: later =>
          (apply state (expansion.settings ++ [⟨needy, some value⟩])).bind fun state =>
            collect state later
        | _ => .error (.usage (.missingValue needy))
  | .unknown text :: later => collect { state with extras := text :: state.extras } later
  | .positional text :: later =>
    if state.sourceSeen then
      collect { state with extras := text :: state.extras } later
    else
      match later with
      | .separator :: later => collect (takeSource state text) later
      | later => collect (takeSource state text) later
  | .separator :: later =>
    if state.sourceSeen then
      collect { state with extras := ['-', '-'] :: state.extras } later
    else
      match later with
      | .positional text :: later => collect (takeSource state text) later
      | later => collect { state with sourceSeen := true } later
termination_by arguments => arguments.length

/-- The settings that arguments give, or why there are none. -/
def parse (texts : List Text) : Except ArgumentStop Arguments :=
  match Argument.classifyAll texts with
  | .error error => .error (.usage error)
  | .ok arguments =>
    (collect ⟨{}, false, []⟩ arguments).bind fun state =>
      if state.extras.isEmpty then
        .ok state.settings
      else
        .error (.usage (.unrecognized state.extras.reverse))

end Arguments

end SinosLang
