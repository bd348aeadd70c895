import ObjectTalk.Evaluation
import ObjectTalk.Node.Text
/-!
# `CommandLine` — running a program from the shell

One file is named, or `-` for the standard input. `--trace` records every node, `--max-depth` bounds the
call stack; each may be given once, before or after the file. After `--` every argument is a file. Arguments
are read from the left, so a request for the version is met only if no argument before it is wrong.
-/

namespace ObjectTalk.CommandLine

/-- The name under which the program reports. -/
def programName : String := "quickbeam"

/-- The version of the program. -/
def version : String := "0.0.1"

/-- What is wrong with the arguments. -/
inductive UsageError where
  | missingFile
  | emptyFile
  | missingDepth
  /-- The bound of the stack is no number of 64 bits. -/
  | badDepth (text : String)
  /-- An option is given for the second time. -/
  | repeated (option : String)
  | unexpected (arg : String)
deriving DecidableEq, Repr

/-- What is wrong, in words. -/
def UsageError.message : UsageError → String
  | missingFile => "no file is named"
  | emptyFile => "the name of the file is empty"
  | missingDepth => "--max-depth needs a number"
  | badDepth text => "'" ++ text ++ "' is no number for --max-depth"
  | repeated option => option ++ " is given twice"
  | unexpected arg => "unexpected argument '" ++ arg ++ "'"

/-- What the arguments ask for. -/
inductive Command where
  | showVersion
  | showHelp
  /-- Run the program in a file. -/
  | execute (file : String) (settings : Settings)
deriving DecidableEq, Repr

/-- The arguments read so far. -/
structure Options where
  file : Option String := none
  trace : Bool := false
  maxDepth : Option Nat := none

/-- The bound of the stack: decimal digits, possibly after a plus sign, below `2^64`. -/
def depthOf? (text : String) : Option Nat :=
  let digits := match text.toList with
    | '+' :: digits => digits
    | digits => digits
  if !digits.isEmpty && digits.all Char.isDigit then
    let depth := Json.natOfDigits digits
    if depth ≤ Json.maxWord then some depth else none
  else none

namespace Options

/-- Take an argument as the file. -/
def withFile (options : Options) (arg : String) : Except UsageError Options :=
  if options.file.isSome then .error (.unexpected arg)
  else if arg.isEmpty then .error .emptyFile
  else .ok { options with file := some arg }

/-- Take the value of `--max-depth`. -/
def withDepth (options : Options) (text : String) : Except UsageError Options :=
  if options.maxDepth.isSome then .error (.repeated "--max-depth")
  else
    match depthOf? text with
    | some depth => .ok { options with maxDepth := some depth }
    | none => .error (.badDepth text)

/-- Take `--trace`. -/
def withTrace (options : Options) : Except UsageError Options :=
  if options.trace then .error (.repeated "--trace") else .ok { options with trace := true }

/-- What the arguments ask for once all are read. -/
def command (options : Options) : Except UsageError Command :=
  match options.file with
  | none => .error .missingFile
  | some file =>
    .ok (.execute file { maxDepth := options.maxDepth.getD ({} : Settings).maxDepth, trace := options.trace })

end Options

/-- What a single argument is. -/
inductive Arg where
  /-- `--`: all that follow are files. -/
  | endOfOptions
  | trace
  | version
  | help
  /-- `--max-depth`, with its value if it is attached. -/
  | maxDepth (value : Option String)
  /-- A file, or the value of an option. -/
  | plain (text : String)
  /-- An option that there is not. -/
  | unknown (text : String)
deriving DecidableEq, Repr

/-- Tell what an argument is by its text. Of single letters after one dash the first decides. -/
def Arg.ofString (text : String) : Arg :=
  match text.toList with
  | ['-', '-'] => .endOfOptions
  | ['-'] => .plain text
  | '-' :: '-' :: long =>
    if text = "--trace" then .trace
    else if text = "--version" then .version
    else if text = "--help" then .help
    else if text = "--max-depth" then .maxDepth none
    else if "max-depth=".toList.isPrefixOf long then
      .maxDepth (some (String.ofList (long.drop "max-depth=".length)))
    else .unknown text
  | '-' :: 'V' :: _ => .version
  | '-' :: 'h' :: _ => .help
  | '-' :: _ :: _ => .unknown text
  | _ => .plain text

/-- Take all arguments as files. -/
def parseFiles (options : Options) : List String → Except UsageError Command
  | [] => options.command
  | arg :: args => do parseFiles (← options.withFile arg) args

/-- Read the arguments from the left. -/
def parseFrom (options : Options) : List String → Except UsageError Command
  | [] => options.command
  | arg :: args =>
    match Arg.ofString arg with
    | .endOfOptions => parseFiles options args
    | .trace => do parseFrom (← options.withTrace) args
    | .version => .ok .showVersion
    | .help => .ok .showHelp
    | .maxDepth (some value) => do parseFrom (← options.withDepth value) args
    | .maxDepth none =>
      match args with
      | [] => .error .missingDepth
      | value :: args =>
        match Arg.ofString value with
        | .plain value => do parseFrom (← options.withDepth value) args
        | _ => .error .missingDepth
    | .plain file => do parseFrom (← options.withFile file) args
    | .unknown arg => .error (.unexpected arg)

/-- What the arguments ask for. -/
def parse (args : List String) : Except UsageError Command :=
  parseFrom {} args

/-- What the program leaves behind. -/
structure Outcome where
  exitCode : Nat
  stdout : String := ""
  /-- The events of the run, if they are to be shown. -/
  log : List Event := []
  /-- The last line on the standard error, without the line feed. -/
  report : Option String := none

/-- A failure before anything was run. -/
def failure (message : String) : Outcome :=
  { exitCode := 1, report := some (programName ++ ": " ++ message) }

/-- What a run leaves behind. -/
def finish (result : EStateM.Result Fault Machine Value) : Outcome :=
  let shown (machine : Machine) (outcome : Outcome) : Outcome :=
    { outcome with
      stdout := machine.output.text?.getD ""
      log := if machine.settings.trace then machine.journal.toList else [] }
  match result with
  | .ok _ machine => shown machine { exitCode := 0 }
  | .error fault machine => shown machine (failure fault.message)

/-- Run a program, given what reading its file came to. -/
def execute (file : String) (settings : Settings) (source : Except String String) : Outcome :=
  match source with
  | .error why => failure ("failed to read " ++ file ++ ": " ++ why)
  | .ok text =>
    match Node.ofText text with
    | .error error => failure ("failed to parse " ++ file ++ ": " ++ error.message)
    | .ok program => finish (Machine.run program (Machine.boot settings (.kept "")))

/-- How the program is to be called. -/
def help : String :=
  "Usage: " ++ programName ++ " [--trace] [--max-depth N] FILE\n"

/-- What wrong arguments lead to. -/
def refuse (error : UsageError) : Outcome :=
  { exitCode := 2, report := some ("error: " ++ error.message) }

/-- What the program does with its arguments, given how to read files and the standard input. -/
def respond (args : List String) (stdin : String) (fileText : String → Except String String) : Outcome :=
  match parse args with
  | .error error => refuse error
  | .ok .showVersion => { exitCode := 0, stdout := programName ++ " " ++ version ++ "\n" }
  | .ok .showHelp => { exitCode := 0, stdout := help }
  | .ok (.execute file settings) =>
    execute file settings (if file = "-" then .ok stdin else fileText file)

end ObjectTalk.CommandLine
