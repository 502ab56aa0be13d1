import CallAtlas.CommandLine.Help
import CallAtlas.CommandLine.Report
import CallAtlas.DataFlow.Codec
import CallAtlas.ErrorFlow.Codec
import CallAtlas.Graph.Cycles
import CallAtlas.Impact.Codec
import CallAtlas.Json.Printer
import CallAtlas.Pipeline.Codec
import CallAtlas.Workspace

/-!
# CommandLine.Run — one run of the program

Settings are loaded first, then the source files are collected and analysed, and then the command is
answered. Only the command for features needs no source files. An empty project is reported and
analysed like any other.
-/

namespace CallAtlas.CommandLine

/-- What a run leaves behind. -/
structure Outcome where
  code : Nat
  stdout : String := ""
  stderr : String := ""
deriving DecidableEq, Repr

/-- Why a command is not answered. -/
inductive Failure where
  | settings (root : String) (e : AnalysisError)
  | analysis (e : AnalysisError)
  | notAnalyzed (path : String)
deriving DecidableEq, Repr

namespace Failure

/-- The message with the messages of its causes. -/
def chain : Failure → List String
  | settings root e => ["loading config for " ++ root, e.message] ++ e.causes
  | analysis e => e.message :: e.causes
  | notAnalyzed path => [path ++ " is not an analyzed source file"]

def message (f : Failure) : String := "Error: " ++ Text.join ": " f.chain

end Failure

/-- An answer in both of its forms. -/
structure Answer where
  text : List String
  json : Json

namespace Answer

def lines (a : Answer) (asJson : Bool) : List String := if asJson then [a.json.pretty] else a.text

def ofList {α : Type} (text : List String) (toJson : α → Json) (items : List α) : Answer :=
  ⟨text, .arr (items.map toJson)⟩

end Answer

/-- Lines, each with its line break. -/
def printed (lines : List String) : String := String.join (lines.map (· ++ "\n"))

/-- The features of a text that is read both as a path and as a name. -/
def answerFeatures (p : Pipeline) (identifier : String) : Answer :=
  let found := p.features.featuresOfAll [.path identifier, .name identifier]
  .ofList (Report.features identifier found) Feature.toJson found

/-- An entry point with its trigger; members are in alphabetical order. -/
def entryJson (j : Journey) : Json :=
  .obj
    [("entry_id", .str j.entryId),
      ("trigger", .obj <| Json.present "element" .str j.trigger.element
        ++ [("handler", .str j.trigger.handler), ("kind", .str j.trigger.kind.name),
          ("label", .str j.trigger.label)])]

/-- Answers a command on analysed files. -/
def answer (p : Pipeline) (root : String) (files : List SourceFile) (o : RunOutput) (c : Command) :
    Except Failure Answer :=
  let ask {α : Type} (query : Except AnalysisError α) (f : α → Answer) : Except Failure Answer :=
    match query with
    | .ok a => .ok (f a)
    | .error e => .error (.analysis e)
  match c with
  | .analyze => .ok ⟨Report.summary root o.summary o.skipped, o.summary.toJson⟩
  | .entries => .ok (.ofList (Report.entries o.journeys) entryJson o.journeys)
  | .graph => .ok ⟨Report.graph o.graph, o.graph.snapshot.toJson⟩
  | .cycles => .ok (.ofList (Report.cycles o.graph.cycles) Json.ofStrings o.graph.cycles)
  | .hotspots limit =>
    let top := o.hotspots.take limit
    .ok (.ofList (Report.hotspots top) (Hotspot.toJson Json.ofFloat) top)
  | .impact target => ask (p.impact o.graph target) fun r => ⟨Report.impact r, r.toJson⟩
  | .errors (some target) => ask (p.errorTrace o.graph target) fun t =>
    ⟨Report.errorTrace t, t.toJson⟩
  | .errors none =>
    let escaping := (p.errorProfiles o.graph).filter (·.escapes)
    .ok (.ofList (Report.errorProfiles escaping) ErrorProfile.toJson escaping)
  | .journey (some entry) => ask (p.journey o.graph entry) fun j =>
    .ofList (Report.journey j) Journey.toJson [j]
  | .journey none => .ok (.ofList (o.journeys.flatMap Report.journey) Journey.toJson o.journeys)
  | .features identifier => .ok (answerFeatures p identifier)
  | .dataflow file identifier line direction =>
    let path := Path.normalize file
    match files.find? (·.path = path) with
    | none => .error (.notAnalyzed path)
    | some source =>
      ask (p.dataFlow o.graph source { identifier, line, direction }) fun t =>
        ⟨Report.dataFlow t, t.toJson⟩

/-- Runs a command in a workspace. A root that does not exist has no files, and is shown as it was
given. -/
def execute (w : Workspace) (i : Invocation) : Outcome :=
  let place := (w.resolve i.root).toOption.map (·.1)
  let root := (place.map w.fullPath).getD i.root
  let settings := match i.config, place with
    | some path, _ => w.loadSettings path
    | none, some place => w.discoverSettings place
    | none, none => .ok {}
  let failed (f : Failure) (notes : List String) : Outcome :=
    { code := 1, stderr := printed (notes ++ [f.message]) }
  let answered (a : Answer) (notes : List String) : Outcome :=
    { code := 0, stdout := printed (a.lines i.json), stderr := printed notes }
  match settings with
  | .error e => failed (.settings root e) []
  | .ok settings =>
    match Pipeline.make settings, i.command with
    | .error e, _ => failed (.analysis e) []
    | .ok p, .features identifier => answered (answerFeatures p identifier) []
    | .ok p, command =>
      let files := (place.map w.sources).getD []
      let notes := Report.onlyIf files.isEmpty ["No JavaScript or TypeScript files under " ++ root]
      match answer p root files (p.run files) command with
      | .ok a => answered a notes
      | .error f => failed f notes

/-- Runs the program with some arguments. -/
def run (w : Workspace) (args : List String) : Outcome :=
  match parseArgs args with
  | .ok i => execute w i
  | .error (.displayHelp name) => { code := 0, stdout := printed (Help.lines name) }
  | .error e => { code := 2, stderr := printed ["error: " ++ e.name] }

end CallAtlas.CommandLine
