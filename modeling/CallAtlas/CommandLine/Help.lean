import CallAtlas.CommandLine.Args

/-!
# CommandLine.Help — the help texts
-/

namespace CallAtlas.CommandLine

namespace PositionalSpec

/-- Required arguments stand in angle brackets, the others in square brackets. -/
def placeholder (p : PositionalSpec) : String :=
  if p.required then "<" ++ p.name.toUpper ++ ">" else "[" ++ p.name.toUpper ++ "]"

end PositionalSpec

namespace OptionSpec

def usage (o : OptionSpec) : String :=
  let short := match o.short with
    | some c => "-" ++ .singleton c ++ ", "
    | none => "    "
  short ++ "--" ++ o.long ++ (if o.kind.takesValue then " <" ++ o.long.toUpper ++ ">" else "")

def description (o : OptionSpec) : String :=
  match o.default with
  | some value => o.help ++ " [default: " ++ value ++ "]"
  | none => o.help

end OptionSpec

namespace Help

/-- A heading and two columns below it. -/
def table (heading : String) (rows : List (String × String)) : List String :=
  let width := (rows.map (·.1.length)).foldl max 0
  if rows.isEmpty then []
  else ["", heading] ++ rows.map fun (name, about) => "  " ++
    Text.padRight width name ++ "  " ++ about

def options (spec : CommandSpec) : List String :=
  table "Options:" (spec.options.map fun o => (o.usage, o.description))

def helpAbout : String := "Print this message or the help of the given subcommand(s)"

def program : List String :=
  [programSpec.about, "", "Usage: " ++ programSpec.name ++ " [OPTIONS] <COMMAND>"]
  ++ table "Commands:" (commandSpecs.map (fun c => (c.name, c.about)) ++ [(helpCommand, helpAbout)])
  ++ options programSpec

def command (spec : CommandSpec) : List String :=
  let usage := [programSpec.name, spec.name, "[OPTIONS]"] ++ spec.positionals.map (·.placeholder)
  [spec.about, "", "Usage: " ++ Text.join " " usage]
  ++ table "Arguments:" (spec.positionals.map fun p => (p.placeholder, p.help))
  ++ options spec

/-- The help on a command, or on the program. -/
def lines (name : Option String) : List String :=
  match name with
  | none => program
  | some name =>
    match commandSpec? name with
    | some spec => command spec
    | none =>
      [helpAbout, "", "Usage: " ++ programSpec.name ++ " " ++ helpCommand ++ " [COMMAND]..."]
      ++ table "Arguments:" [("[COMMAND]...", "Print help for the subcommand(s)")]

end Help

end CallAtlas.CommandLine
