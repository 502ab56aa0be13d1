import CallAtlas.DataFlow.Basic
import CallAtlas.Text.Basic

/-!
# CommandLine.Args — the arguments of the program

Options stand before or after the name of a command, according to whether they belong to the program
or to the command. A value follows its option as the next argument, after `=`, or directly after a
one-letter option. After `--` every argument is positional.

A value that follows as the next argument is checked only when the next option is read or the
arguments end, so an argument that nobody expects is reported first.
-/

namespace CallAtlas.CommandLine

inductive Command where
  | analyze | entries | graph | cycles
  | hotspots (limit : Nat)
  | impact (target : String)
  | errors (target : Option String)
  | journey (entry : Option String)
  | features (identifier : String)
  | dataflow (file identifier : String) (line : Option Nat) (direction : DataFlow.Direction)
deriving DecidableEq, Repr

structure Invocation where
  root : String := "."
  config : Option String := none
  json : Bool := false
  command : Command
deriving DecidableEq, Repr

/-- Why the arguments do not ask for a command to be run. -/
inductive UsageError where
  /-- Help is asked for: on a command, or on the program. -/
  | displayHelp (command : Option String)
  | nothingAsked
  | missingCommand
  | unknownCommand
  | unknownArgument
  | missingArgument
  /-- An option has no value, or an empty one where none makes sense. -/
  | emptyValue
  | badValue
  | unexpectedValue
  | repeatedOption
deriving DecidableEq, Repr

namespace UsageError

/-- The name of the cause. -/
def name : UsageError → String
  | displayHelp _ => "DisplayHelp"
  | nothingAsked => "DisplayHelpOnMissingArgumentOrSubcommand"
  | missingCommand => "MissingSubcommand"
  | unknownCommand => "InvalidSubcommand"
  | unknownArgument => "UnknownArgument"
  | missingArgument => "MissingRequiredArgument"
  | emptyValue => "InvalidValue"
  | badValue => "ValueValidation"
  | unexpectedValue => "TooManyValues"
  | repeatedOption => "ArgumentConflict"

end UsageError

/-! ## What is expected -/

/-- What an option does, and which values it takes. -/
inductive OptionKind where
  | help
  | switch
  | path
  | count
  | direction
deriving DecidableEq, Repr

namespace OptionKind

def takesValue : OptionKind → Bool
  | help | switch => false
  | path | count | direction => true

/-- A count of at most 64 bits, with an optional plus sign. -/
def count? (s : String) : Option Nat :=
  let digits := (Text.dropLead? ['+'] s.toList).getD s.toList
  if digits.isEmpty || digits.any (!Text.isDigit ·) then none
  else
    let n := digits.foldl (fun n d => 10 * n + (d.toNat - 48)) 0
    if n < Nat.pow 2 64 then some n else none

def check (k : OptionKind) (value : String) : Except UsageError Unit :=
  match k with
  | help | switch => .ok ()
  | path => if value.isEmpty then .error .emptyValue else .ok ()
  | count => if (count? value).isSome then .ok () else .error .badValue
  | direction => if (DataFlow.Direction.parse? value).isSome then .ok () else .error .badValue

end OptionKind

structure OptionSpec where
  short : Option Char := none
  long : String
  kind : OptionKind
  help : String
  default : Option String := none
deriving DecidableEq, Repr

structure PositionalSpec where
  name : String
  required : Bool
  help : String
deriving DecidableEq, Repr

structure CommandSpec where
  name : String
  about : String
  positionals : List PositionalSpec := []
  options : List OptionSpec := []
deriving DecidableEq, Repr

def jsonOption : OptionSpec :=
  { long := "json", kind := .switch, help := "Print JSON instead of text" }

def helpOption : OptionSpec :=
  { short := some 'h', long := "help", kind := .help, help := "Print help" }

/-- The program itself. -/
def programSpec : CommandSpec where
  name := "flowlens"
  about := "Behavior-centric static analysis for TypeScript and JavaScript"
  options :=
    [{ short := some 'r', long := "root", kind := .path, default := some "."
       help := "Project root directory (default: current directory)" },
      { short := some 'c', long := "config", kind := .path
        help := "Config file (default: <root>/flowlens.toml when present)" },
      jsonOption, helpOption]

def targetHelp : String := "Declaration id, name, or Class.method"

def commandSpecs : List CommandSpec :=
  let common := [jsonOption, helpOption]
  [{ name := "analyze", about := "Analyze the project and print a summary", options := common },
    { name := "entries", about := "List entry points and what triggers them", options := common },
    { name := "graph", about := "Dump the call graph (nodes, edges, external calls)",
      options := common },
    { name := "cycles", about := "List call cycles", options := common },
    { name := "hotspots", about := "Most connected declarations"
      options :=
        { short := some 'l', long := "limit", kind := .count, help := "Max results",
          default := some "10" } :: common },
    { name := "impact", about := "What is affected if a declaration changes"
      positionals := [⟨"target", true, targetHelp⟩], options := common },
    { name := "errors",
      about := "Error handling per declaration, or where one declaration's errors go"
      positionals := [⟨"target", false, targetHelp⟩], options := common },
    { name := "journey",
      about := "Step-by-step journey from an entry point (all entry points if omitted)"
      positionals := [⟨"entry", false, targetHelp⟩], options := common },
    { name := "features", about := "Features a file path or declaration name belongs to"
      positionals := [⟨"identifier", true, "File path or declaration name"⟩], options := common },
    { name := "dataflow", about := "Where a variable's value comes from and where it goes"
      positionals :=
        [⟨"file", true, "File path relative to the root"⟩,
          ⟨"identifier", true, "Variable or parameter name"⟩]
      options :=
        [{ short := some 'l', long := "line", kind := .count
           help := "Restrict to the declaration containing this line" },
          { short := some 'd', long := "direction", kind := .direction,
            help := "backward, forward or both"
            default := some "both" }] ++ common }]

def helpCommand : String := "help"

def commandSpec? (name : String) : Option CommandSpec := commandSpecs.find? (·.name = name)

/-! ## Reading -/

/-- What was read at one level: the program, or a command. -/
structure Level where
  spec : CommandSpec
  /-- Options with their values; a switch has an empty value. -/
  values : List (String × String) := []
  positionals : List String := []
  /-- An option whose value, if there is one by now, is not yet checked. -/
  pending : Option (OptionSpec × Option String) := none
  /-- All arguments are positional from here on. -/
  onlyPositionals : Bool := false

namespace Level

def value? (l : Level) (long : String) : Option String := l.values.lookup long

/-- The next argument may be the value of the pending option. -/
def isAwaiting (l : Level) : Bool := l.pending.any (·.2.isNone)

def accept (l : Level) (o : OptionSpec) (value : String) : Except UsageError Level :=
  if (l.value? o.long).isSome then .error .repeatedOption
  else (o.kind.check value).map fun _ => { l with values := l.values ++ [(o.long, value)] }

/-- Checks the pending option. -/
def settle (l : Level) : Except UsageError Level :=
  match l.pending with
  | none => .ok l
  | some (_, none) => .error .emptyValue
  | some (o, some value) => { l with pending := none }.accept o value

/-- Reads an option with the value that is attached to it, if there is one. -/
def readOption (l : Level) (o : OptionSpec) (attached : Option String) : Except UsageError Level :=
  match o.kind.takesValue, attached with
  | true, some value => do (← l.settle).accept o value
  | true, none => do return { (← l.settle) with pending := some (o, none) }
  | false, some _ => .error .unexpectedValue
  | false, none => do
    let l ← l.settle
    if o.kind = .help then
      .error (.displayHelp (if l.spec = programSpec then none else some l.spec.name))
    else l.accept o ""

/-- An argument after `--`. -/
def readLong (l : Level) (text : List Char) : Except UsageError Level :=
  let (name, attached) := match Text.cutFirst '=' text with
    | some (name, value) => (name, some (String.ofList value))
    | none => (text, none)
  match l.spec.options.find? (·.long.toList = name) with
  | some o => l.readOption o attached
  | none => .error .unknownArgument

/-- An argument after a single hyphen: one-letter options, of which the last may have a value. -/
def readShort (l : Level) : List Char → Except UsageError Level
  | [] => .ok l
  | c :: cs =>
    match l.spec.options.find? (·.short = some c) with
    | none => .error .unknownArgument
    | some o =>
      if o.kind.takesValue then
        match cs with
        | [] => l.readOption o none
        | '=' :: value => l.readOption o (some (.ofList value))
        | value => l.readOption o (some (.ofList value))
      else do (← l.readOption o none).readShort cs

/-- An argument that is neither an option nor a value of one. -/
def readPositional (l : Level) (arg : String) : Except UsageError Level :=
  if l.positionals.length < l.spec.positionals.length then do
    let l ← l.settle
    return { l with positionals := l.positionals ++ [arg] }
  else if l.spec = programSpec then
    if l.onlyPositionals && ((commandSpec? arg).isSome || arg = helpCommand) then
      .error .unknownArgument
    else .error .unknownCommand
  else .error .unknownArgument

def readArg (l : Level) (arg : String) : Except UsageError Level :=
  if l.onlyPositionals then l.readPositional arg
  else
    match arg.toList with
    | ['-', '-'] => .ok { l with onlyPositionals := true }
    | '-' :: '-' :: text => l.readLong text
    | '-' :: c :: cs => l.readShort (c :: cs)
    | _ =>
      match l.pending with
      | some (o, none) => .ok { l with pending := some (o, some arg) }
      | _ => l.readPositional arg

/-- The end of the arguments of a command. -/
def finish (l : Level) : Except UsageError Level := do
  let l ← l.settle
  if l.positionals.length < l.spec.positionals.countP (·.required) then
    .error .missingArgument else .ok l

end Level

/-- The command that a finished level asks for. -/
def Level.command? (l : Level) : Option Command :=
  let count (long : String) : Option Nat := (l.value? long).bind OptionKind.count?
  match l.spec.name, l.positionals with
  | "analyze", _ => some .analyze
  | "entries", _ => some .entries
  | "graph", _ => some .graph
  | "cycles", _ => some .cycles
  | "hotspots", _ => some (.hotspots ((count "limit").getD 10))
  | "impact", [target] => some (.impact target)
  | "errors", args => some (.errors args.head?)
  | "journey", args => some (.journey args.head?)
  | "features", [identifier] => some (.features identifier)
  | "dataflow", [file, identifier] =>
    let direction := ((l.value? "direction").bind DataFlow.Direction.parse?).getD .both
    some (.dataflow file identifier (count "line") direction)
  | _, _ => none

/-- The arguments after `help` name a command. -/
def helpFor : List String → UsageError
  | [] => .displayHelp none
  | [name] => if (commandSpec? name).isSome || name = helpCommand then .displayHelp (some name)
  else .unknownCommand
  | _ => .unknownCommand

/-- Reads the arguments of the program up to the name of a command. -/
def readProgram (l : Level) : List String → Except UsageError Invocation
  | [] => do
    let l ← l.settle
    if l.values.isEmpty then .error .nothingAsked else .error .missingCommand
  | arg :: rest =>
    match (if l.onlyPositionals || l.isAwaiting then none else commandSpec? arg) with
    | some spec => do
      let inner ← (← rest.foldlM Level.readArg { spec := spec }).finish
      let l ← l.settle
      match inner.command? with
      | some command =>
        return {
          root := (l.value? "root").getD "."
          config := l.value? "config"
          json := (l.value? "json").isSome || (inner.value? "json").isSome
          command }
      | none => .error .missingArgument
    | none =>
      if arg = helpCommand && !l.onlyPositionals && !l.isAwaiting then .error (helpFor rest)
      else do readProgram (← l.readArg arg) rest

def parseArgs (args : List String) : Except UsageError Invocation :=
  readProgram { spec := programSpec } args

end CallAtlas.CommandLine
