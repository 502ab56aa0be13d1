import CallAtlas.DataFlow.Trace
import CallAtlas.ErrorFlow.Profile
import CallAtlas.Feature.Rule
import CallAtlas.Graph.Store
import CallAtlas.Hotspot
import CallAtlas.Impact.Report
import CallAtlas.Journey.Walk
import CallAtlas.Layering
import CallAtlas.Progress

/-!
# Pipeline — files in, graph and findings out

A file that cannot be read is skipped with a reason and never stops the others. The graph is
assembled when all files are read, and everything else is asked of the finished graph.
-/

namespace CallAtlas

structure SkippedFile where
  /-- The path as it was given. -/
  path : String
  reason : String
deriving DecidableEq, Repr

/-- What became of some files. -/
structure Batch where
  /-- By path. -/
  analyses : List FileAnalysis := []
  /-- By path. -/
  skipped : List SkippedFile := []
deriving DecidableEq, Repr

namespace SourceFile

/-- Reads and classifies one file. -/
def analyze (settings : ExtractionSettings) (rules : List LayerRule) (file : SourceFile) :
    Except SkippedFile FileAnalysis :=
  match file.extract settings with
  | .ok f => .ok (f.classify rules)
  | .error e => .error ⟨file.path, e.message⟩

end SourceFile

namespace Batch

def analyze (settings : ExtractionSettings) (rules : List LayerRule)
    (files : List SourceFile) : Batch :=
  let results := files.map (·.analyze settings rules)
  let analyses := results.filterMap fun r =>
    match r with
    | .ok f => some f
    | .error _ => none
  let skipped := results.filterMap fun r =>
    match r with
    | .ok _ => none
    | .error s => some s
  ⟨Order.sortOn Order.text (·.filePath) analyses, Order.sortOn Order.text (·.path) skipped⟩

end Batch

structure RunSummary where
  filesAnalyzed : Nat
  filesSkipped : Nat
  graph : GraphStats
  journeys : Nat
  truncatedJourneys : Nat
  /-- Files with code below the nesting limit. -/
  filesTruncated : Nat
deriving DecidableEq, Repr

/-- All that one run produces. -/
structure RunOutput where
  analyses : List FileAnalysis
  skipped : List SkippedFile
  graph : CallGraph
  hotspots : List Hotspot
  journeys : List Journey

namespace RunOutput

def summary (o : RunOutput) : RunSummary where
  filesAnalyzed := o.analyses.length
  filesSkipped := o.skipped.length
  graph := o.graph.stats
  journeys := o.journeys.length
  truncatedJourneys := o.journeys.countP (·.truncated)
  filesTruncated := o.analyses.countP (·.truncated)

end RunOutput

/-- Settings with the tables that are made from them. -/
structure Pipeline where
  settings : Settings
  rules : List LayerRule
  features : FeatureTable

namespace Pipeline

/-- Fails if a feature pattern cannot be read. -/
def make (settings : Settings) : Except AnalysisError Pipeline := do
  return ⟨settings, LayerRule.defaults settings.extraction, ← FeatureTable.build settings.features⟩

def analyze (p : Pipeline) (files : List SourceFile) : Batch :=
  Batch.analyze p.settings.extraction p.rules files

/-- Reads all files, assembles the graph, ranks hotspots and follows a journey from each entry
point. -/
def run (p : Pipeline) (files : List SourceFile) : RunOutput :=
  let batch := p.analyze files
  let graph := (GraphStore.assemble batch.analyses).graph
  { analyses := batch.analyses
    skipped := batch.skipped
    graph
    hotspots := Hotspot.ranking graph p.settings.hotspots
    journeys := Journey.synthesizeAll graph p.settings.journey }

/-- The events of a run over so many files with this output. -/
def runEvents (fileCount : Nat) (o : RunOutput) : List ProgressEvent :=
  ProgressEvent.around .extraction fileCount
    ++ ProgressEvent.around .graphAssembly o.analyses.length
    ++ ProgressEvent.around .traversal o.graph.entries.length

def impact (p : Pipeline) (g : CallGraph) (query : String) : Except AnalysisError ImpactReport :=
  ImpactReport.compute g p.settings.impact p.features.featuresOfDeclaration query

def journey (p : Pipeline) (g : CallGraph) (query : String) : Except AnalysisError Journey :=
  Journey.synthesize g p.settings.journey query

def hotspots (p : Pipeline) (g : CallGraph) : List Hotspot := Hotspot.ranking g p.settings.hotspots

def errorProfiles (p : Pipeline) (g : CallGraph) : List ErrorProfile :=
  ErrorProfile.all g p.settings.errors

/-- The events of one round of error profiles. -/
def errorProfileEvents (g : CallGraph) : List ProgressEvent :=
  ProgressEvent.around .traversal g.nodes.length

def errorTrace (p : Pipeline) (g : CallGraph) (query : String) : Except AnalysisError ErrorTrace :=
  ErrorTrace.find g p.settings.errors.limits query

def dataFlow (p : Pipeline) (g : CallGraph) (file : SourceFile) (query : DataFlow.Query) :
    Except AnalysisError DataFlow.Trace :=
  DataFlow.trace g file query p.settings.extraction p.settings.dataflow

end Pipeline

end CallAtlas
