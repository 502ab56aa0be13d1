import CallAtlas.Code.Call
import CallAtlas.Code.Codec
import CallAtlas.Code.Declaration
import CallAtlas.Code.Edge
import CallAtlas.Code.File
import CallAtlas.Code.Naming
import CallAtlas.CommandLine.Args
import CallAtlas.CommandLine.Help
import CallAtlas.CommandLine.Report
import CallAtlas.CommandLine.Run
import CallAtlas.DataFlow.Basic
import CallAtlas.DataFlow.Codec
import CallAtlas.DataFlow.Trace
import CallAtlas.DataFlow.Use
import CallAtlas.Decimal.Shortest
import CallAtlas.Error
import CallAtlas.ErrorFlow.Codec
import CallAtlas.ErrorFlow.Profile
import CallAtlas.ErrorFlow.Trace
import CallAtlas.Extraction.Chain
import CallAtlas.Extraction.Literal
import CallAtlas.Extraction.State
import CallAtlas.Extraction.Walk
import CallAtlas.Feature.Basic
import CallAtlas.Feature.Rule
import CallAtlas.Glob
import CallAtlas.Graph.Assembly
import CallAtlas.Graph.Basic
import CallAtlas.Graph.Codec
import CallAtlas.Graph.Cycles
import CallAtlas.Graph.Query
import CallAtlas.Graph.Store
import CallAtlas.Hotspot
import CallAtlas.Ignore
import CallAtlas.Impact.Codec
import CallAtlas.Impact.EntryPaths
import CallAtlas.Impact.Reach
import CallAtlas.Impact.Report
import CallAtlas.Impact.Risk
import CallAtlas.Job.Codec
import CallAtlas.Job.Queue
import CallAtlas.Job.Table
import CallAtlas.Journey.Codec
import CallAtlas.Journey.Label
import CallAtlas.Journey.Walk
import CallAtlas.Journey.Wording
import CallAtlas.Json.Basic
import CallAtlas.Json.Printer
import CallAtlas.Json.Reader
import CallAtlas.Json.Record
import CallAtlas.Layering
import CallAtlas.Main
import CallAtlas.Order
import CallAtlas.Pipeline
import CallAtlas.Pipeline.Codec
import CallAtlas.Progress
import CallAtlas.Regex.Basic
import CallAtlas.Regex.CharSet
import CallAtlas.Regex.Limit
import CallAtlas.Regex.Parser
import CallAtlas.Regex.Property
import CallAtlas.Registry.Basic
import CallAtlas.Registry.Resolve
import CallAtlas.Route.Pattern
import CallAtlas.Settings.Basic
import CallAtlas.Settings.Codec
import CallAtlas.Settings.Toml
import CallAtlas.Source
import CallAtlas.Source.Codec
import CallAtlas.Text.Basic
import CallAtlas.Text.Blank
import CallAtlas.Text.CaseMap
import CallAtlas.Text.CaseMap.Table
import CallAtlas.Text.CategoryTable
import CallAtlas.Text.WordTable
import CallAtlas.Toml.Document
import CallAtlas.Toml.Scalar
import CallAtlas.Toml.Value
import CallAtlas.Tree.Node
import CallAtlas.Tree.Reader
import CallAtlas.Workspace
import CallAtlas.Proofs.BreadthFirst
import CallAtlas.Proofs.GraphInvariant
import CallAtlas.Proofs.ReachExact
import CallAtlas.Proofs.ErrorTraceExact
import CallAtlas.Proofs.ErrorProfileExact
import CallAtlas.Proofs.AssemblyExact
import CallAtlas.Proofs.JourneyListing
import CallAtlas.Proofs.FirstSite
import CallAtlas.Proofs.JourneyReach
import CallAtlas.Proofs.TreeDescent
import CallAtlas.Proofs.ExtractionMoves
import CallAtlas.Proofs.ExtractionNesting
import CallAtlas.Proofs.ExtractionLayout
import CallAtlas.Proofs.GraphRepresentation
import CallAtlas.Proofs.StoredGraph
import CallAtlas.Proofs.ScopeChain
import CallAtlas.Proofs.LexicalScope
import CallAtlas.Proofs.JourneyCoverage
import CallAtlas.Proofs.Descendants
import CallAtlas.Proofs.InsertionOrder
import CallAtlas.Proofs.FeatureUnion
import CallAtlas.Proofs.FileOrder
import CallAtlas.Proofs.SharedIds
import CallAtlas.Proofs.CyclesExact
import CallAtlas.Proofs.JourneyLoops
import CallAtlas.Proofs.ImpactExact
import CallAtlas.Proofs.ImpactMonotone
import CallAtlas.Proofs.EntryRoutes
import CallAtlas.Proofs.EntryAgreement
import CallAtlas.Proofs.RequestAddress
import CallAtlas.Proofs.JobEviction
import CallAtlas.Proofs.JobInterleaving
import CallAtlas.Proofs.JobWaiter
import CallAtlas.Proofs.JsonFields
import CallAtlas.Proofs.ExchangeForm
import CallAtlas.Proofs.RouteLanguage
import CallAtlas.Proofs.RouteChoice
import CallAtlas.Proofs.TextCuts
import CallAtlas.Proofs.RelativeImport
import CallAtlas.Proofs.ExtractionScript
import CallAtlas.Proofs.OwnClass
import CallAtlas.Proofs.TreeOrder
import CallAtlas.Proofs.WalkTurns
import CallAtlas.Proofs.WalkVisits
import CallAtlas.Proofs.WalkRoutes
import CallAtlas.Proofs.GuardFlags
import CallAtlas.Proofs.ChainOnce
import CallAtlas.Proofs.TemplateText
import CallAtlas.Proofs.CallCoverage
import CallAtlas.Proofs.EntryPathOrder
import CallAtlas.Proofs.ReachLimits
import CallAtlas.Proofs.FlowVisits
import CallAtlas.Proofs.FlowFindings
import CallAtlas.Proofs.FlowOutcome
import CallAtlas.Proofs.FlowDirections
import CallAtlas.Proofs.FlowScope
import CallAtlas.Proofs.DepthLimit
import CallAtlas.Proofs.Phrasing
import CallAtlas.Proofs.OwnAddress
import CallAtlas.Proofs.RouteTable
