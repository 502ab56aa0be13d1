import CallAtlas.Decimal.Shortest
import CallAtlas.Pipeline

/-!
# CommandLine.Report — what the commands print as text

Each report is a list of lines.
-/

namespace CallAtlas.CommandLine.Report

open Text (decimal join padLeft padRight)

def traversalCut : String := "(truncated: traversal limit reached)"

/-- The lines, if the condition holds. -/
def onlyIf (condition : Bool) (lines : List String) : List String := if condition then lines else []

/-- A heading with indented lines below it, nothing if there are none. -/
def section? (heading : String) (items : List String) : List String :=
  onlyIf (!items.isEmpty) (heading :: items.map ("  " ++ ·))

def features (identifier : String) (fs : List Feature) : List String :=
  onlyIf fs.isEmpty ["No features for '" ++ identifier ++ "'"]
    ++ fs.map fun f => padRight 16 f.name ++ " via " ++ join ", " f.matchedVia

def summary (root : String) (s : RunSummary) (skipped : List SkippedFile) : List String :=
  ["flowlens - " ++ root,
    .ofList (List.replicate 26 '═'),
    "Files:        " ++ decimal s.filesAnalyzed ++ " (" ++ decimal s.filesSkipped ++ " skipped)",
    "Declarations: " ++ decimal s.graph.declarations,
    "Edges:        " ++ decimal s.graph.callEdges ++ " calls, " ++
      decimal s.graph.apiEdges ++ " api",
    "External:     " ++ decimal s.graph.httpCalls ++ " http, " ++
      decimal s.graph.databaseCalls ++ " database, "
      ++ decimal s.graph.unresolvedCalls ++ " unresolved",
    "Entry points: " ++ decimal s.graph.entryPoints,
    "Journeys:     " ++ decimal s.journeys ++ " (" ++ decimal s.truncatedJourneys ++ " truncated)"]
  ++ onlyIf (0 < s.filesTruncated)
    ["Truncated:    " ++ decimal s.filesTruncated ++ " files nested too deep, partly analyzed"]
  ++ skipped.map fun f => "  skipped " ++ f.path ++ ": " ++ f.reason

def entries (js : List Journey) : List String :=
  js.map fun j => padRight 48 j.entryId ++ " " ++ padRight 8 j.trigger.kind.name ++ " " ++
    j.trigger.label

/-- Entry points are marked by a star. Requests that lead to a handler of the project are not shown
as external. -/
def graph (g : CallGraph) : List String :=
  g.declarations.flatMap fun d =>
    [(if g.isEntryPoint d.id then "* " else "  ") ++ d.id]
    ++ (g.callees d.id).map ("    -> " ++ ·.id)
    ++ ((g.externalsFrom d.id).filter (·.matchedHandler.isNone)).map ("    => " ++ ·.stepId)

def cycles (cs : List (List String)) : List String :=
  onlyIf cs.isEmpty ["No cycles"] ++ cs.map (join " -> ")

def hotspots (hs : List Hotspot) : List String :=
  hs.map fun h =>
    padLeft 6 (Decimal.fixed 1 h.score) ++ "  in " ++ padRight 3 (decimal h.fanIn) ++ " out "
      ++ padRight 3 (decimal h.fanOut) ++ " " ++ h.id

def impact (r : ImpactReport) : List String :=
  ["Impact of " ++ r.targetName ++ " (" ++ r.targetId ++ ")", ""]
  ++ onlyIf r.affected.isEmpty ["Nothing calls this declaration."]
  ++ (r.affected.map fun n =>
    "  [" ++ padRight 6 n.risk.name ++ "] d=" ++ decimal n.distance ++ " in=" ++
      padRight 3 (decimal n.fanIn) ++ " "
      ++ n.id)
  ++ onlyIf (!r.affectedEntryPoints.isEmpty) ("" :: section? "Entry points:" r.affectedEntryPoints)
  ++ ["", r.featureSummary]
  ++ onlyIf r.truncated [traversalCut]

def step (s : JourneyStep) : String :=
  let mark (b : Bool) (text : String) : String := if b then text else ""
  .ofList (List.replicate (2 * (s.depth + 1)) ' ') ++ decimal s.order ++ ". " ++ s.label
    ++ mark s.isExternalCall " (external)" ++ mark s.awaited " (await)" ++
      mark s.conditional " (if)"
    ++ mark s.looped " (loops back)"

def journey (j : Journey) : List String :=
  [j.title ++ " [" ++ j.trigger.label ++ "]"] ++ j.steps.map step ++
    onlyIf j.truncated ["  " ++ traversalCut] ++ [""]

/-- A report on declarations that let errors escape. -/
def errorProfiles (ps : List ErrorProfile) : List String :=
  if ps.isEmpty then ["No unhandled errors"]
  else
    (ps.flatMap fun p =>
      ["[" ++ padRight 7 p.risk.name ++ "] " ++ p.id]
      ++ onlyIf (!p.raises.isEmpty) ["    raises:   " ++ join ", " p.raises]
      ++ onlyIf (!p.receivesFrom.isEmpty) ["    receives: " ++ join ", " p.receivesFrom]
      ++ p.reason.toList.map ("    " ++ ·))
    ++ ["", decimal ps.length ++ " declarations let errors escape, " ++
      decimal (ps.countP (·.risk = .danger))
      ++ " at entry points"]

def errorTrace (t : ErrorTrace) : List String :=
  ["Errors from " ++ t.originId]
  ++ onlyIf t.reached.isEmpty ["  no caller receives them unhandled"]
  ++ (t.reached.map fun (id, distance) => "  d=" ++ decimal distance ++ " " ++ id)
  ++ section? "Caught by:" t.handledBy
  ++ section? "Reach entry points:" t.entryPoints
  ++ onlyIf t.truncated [traversalCut]

def dataFlow (t : DataFlow.Trace) : List String :=
  let finding (arrow : String) (line : Nat) (kind detail : String) : String :=
    "  " ++ arrow ++ " " ++ padRight 4 (decimal line) ++ " " ++ padRight 16 kind ++ " " ++ detail
  [t.identifier ++ " in " ++ t.file]
  ++ (t.sources.flatMap fun s =>
    finding "<-" s.line s.kind.label s.detail :: s.linkedIds.map ("         via " ++ ·))
  ++ (t.destinations.flatMap fun d =>
    finding "->" d.line d.kind.label d.detail :: d.calleeId.toList.map ("         into " ++ ·))
  ++ ["", t.summary]
  ++ onlyIf t.truncated ["(truncated: finding limit reached)"]

end CallAtlas.CommandLine.Report
