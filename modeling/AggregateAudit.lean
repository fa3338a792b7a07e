import AggregateAudit.Analysis
import AggregateAudit.Command
import AggregateAudit.Command.Arguments
import AggregateAudit.Command.Check
import AggregateAudit.Command.Init
import AggregateAudit.Command.ListRules
import AggregateAudit.Command.Outcome
import AggregateAudit.Config
import AggregateAudit.Config.Source
import AggregateAudit.Declaration
import AggregateAudit.Discovery
import AggregateAudit.Exclude
import AggregateAudit.Exclude.Glob
import AggregateAudit.FileTree
import AggregateAudit.Finding
import AggregateAudit.Ignore.File
import AggregateAudit.Ignore.Layer
import AggregateAudit.Ignore.Pattern
import AggregateAudit.Ignore.Repository
import AggregateAudit.Ignore.User
import AggregateAudit.Inheritance
import AggregateAudit.Json
import AggregateAudit.Json.Reader
import AggregateAudit.Log
import AggregateAudit.Main
import AggregateAudit.Path
import AggregateAudit.Proofs.Acceptance
import AggregateAudit.Proofs.Address
import AggregateAudit.Proofs.Bystanders
import AggregateAudit.Proofs.ChosenConfig
import AggregateAudit.Proofs.CompactLines
import AggregateAudit.Proofs.Composition
import AggregateAudit.Proofs.ConfiguredRoot
import AggregateAudit.Proofs.ConstructorOutline
import AggregateAudit.Proofs.Course
import AggregateAudit.Proofs.Cutting
import AggregateAudit.Proofs.DecisionTree
import AggregateAudit.Proofs.Derivation
import AggregateAudit.Proofs.Edits
import AggregateAudit.Proofs.Excludes
import AggregateAudit.Proofs.Exposure
import AggregateAudit.Proofs.Faithfulness
import AggregateAudit.Proofs.Framing
import AggregateAudit.Proofs.HiddenStatements
import AggregateAudit.Proofs.Insertion
import AggregateAudit.Proofs.JsonText
import AggregateAudit.Proofs.LiteralPatterns
import AggregateAudit.Proofs.MatcherInfluence
import AggregateAudit.Proofs.Merging
import AggregateAudit.Proofs.NameGate
import AggregateAudit.Proofs.Neutrality
import AggregateAudit.Proofs.ParameterCount
import AggregateAudit.Proofs.ParameterLists
import AggregateAudit.Proofs.PathOrder
import AggregateAudit.Proofs.Pieces
import AggregateAudit.Proofs.Placement
import AggregateAudit.Proofs.PlainPaths
import AggregateAudit.Proofs.PreOrder
import AggregateAudit.Proofs.Printing
import AggregateAudit.Proofs.Reading
import AggregateAudit.Proofs.RecordForms
import AggregateAudit.Proofs.ReportJson
import AggregateAudit.Proofs.Resolution
import AggregateAudit.Proofs.RoundTrip
import AggregateAudit.Proofs.RuleIndependence
import AggregateAudit.Proofs.RuleSelection
import AggregateAudit.Proofs.RunResult
import AggregateAudit.Proofs.SessionHistory
import AggregateAudit.Proofs.Sketch
import AggregateAudit.Proofs.SketchOutline
import AggregateAudit.Proofs.SketchTree
import AggregateAudit.Proofs.SortedFindings
import AggregateAudit.Proofs.SourcePaths
import AggregateAudit.Proofs.SourceSnippets
import AggregateAudit.Proofs.Spacing
import AggregateAudit.Proofs.Spans
import AggregateAudit.Proofs.StableSort
import AggregateAudit.Proofs.TextKept
import AggregateAudit.Proofs.TreeWeight
import AggregateAudit.Proofs.Unreadable
import AggregateAudit.Proofs.Utf8
import AggregateAudit.Proofs.Walking
import AggregateAudit.Proofs.WellNamed
import AggregateAudit.Proofs.WholeWord
import AggregateAudit.Report
import AggregateAudit.Report.Encoding
import AggregateAudit.Report.Format
import AggregateAudit.Report.Frame
import AggregateAudit.Rule
import AggregateAudit.Rule.Catalog
import AggregateAudit.Session
import AggregateAudit.Source.Directive
import AggregateAudit.Source.Extraction
import AggregateAudit.Source.Interpolation
import AggregateAudit.Source.Lexeme
import AggregateAudit.Source.Lexemes
import AggregateAudit.Source.Literal
import AggregateAudit.Source.Member
import AggregateAudit.Source.Outline
import AggregateAudit.Source.Parse
import AggregateAudit.Source.Piece
import AggregateAudit.Source.Statement
import AggregateAudit.Source.Tree
import AggregateAudit.Source.Words
import AggregateAudit.Text.CaseContext
import AggregateAudit.Text.Lowercase
import AggregateAudit.Text.NameChar
import AggregateAudit.Text.Quoted
import AggregateAudit.Text.Search
import AggregateAudit.Text.Utf8
import AggregateAudit.Text.Width
import AggregateAudit.Text.WordChar
import AggregateAudit.Toml.Reader
import AggregateAudit.Toml.Scalar
import AggregateAudit.Toml.Value
import AggregateAudit.Workspace
