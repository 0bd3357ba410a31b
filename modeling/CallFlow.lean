import CallFlow.Batch
import CallFlow.Batch.Job
import CallFlow.CommandLine.Finish
import CallFlow.CommandLine.Grammar
import CallFlow.Compilation
import CallFlow.Config
import CallFlow.Corpus
import CallFlow.Corpus.Case
import CallFlow.Corpus.Fault
import CallFlow.Corpus.Kind
import CallFlow.Corpus.Outline
import CallFlow.Corpus.Reader
import CallFlow.Corpus.Verdict
import CallFlow.CorpusCommand
import CallFlow.Decimal.Binary
import CallFlow.Decimal.Rounded
import CallFlow.Decimal.Shortest
import CallFlow.Diagram
import CallFlow.Diagram.Dot.Drawing
import CallFlow.Diagram.Dot.Quoted
import CallFlow.Diagram.Dot.Reader
import CallFlow.Diagram.Dot.Statement
import CallFlow.Diagram.Format
import CallFlow.Diagram.Mermaid
import CallFlow.Diagram.Naming
import CallFlow.Diagram.PlantUml
import CallFlow.Difference.Listing
import CallFlow.Difference.Script
import CallFlow.Difference.Slide
import CallFlow.Discovery
import CallFlow.Distinct
import CallFlow.DrawCommand
import CallFlow.Edge
import CallFlow.Extraction
import CallFlow.Failure
import CallFlow.FileTree
import CallFlow.FileTree.Agreement
import CallFlow.FileTree.Growth
import CallFlow.FileTree.Fault
import CallFlow.FreshName
import CallFlow.Graph
import CallFlow.Graph.Json
import CallFlow.Ignore.Glob
import CallFlow.Ignore.Rule
import CallFlow.Ignore.RuleFile
import CallFlow.Index
import CallFlow.Json
import CallFlow.Layout
import CallFlow.Layout.Program
import CallFlow.Layout.Script.Builtin
import CallFlow.Layout.Script.Condition
import CallFlow.Layout.Script.Evaluation
import CallFlow.Layout.Script.Field
import CallFlow.Layout.Script.Format
import CallFlow.Layout.Script.Fraction
import CallFlow.Layout.Script.Grammar
import CallFlow.Layout.Script.Listing
import CallFlow.Layout.Script.Machine
import CallFlow.Layout.Script.Mask
import CallFlow.Layout.Script.Numeral
import CallFlow.Layout.Script.PathPattern
import CallFlow.Layout.Script.Pattern
import CallFlow.Layout.Script.Signal
import CallFlow.Layout.Script.Source
import CallFlow.Layout.Script.Sum
import CallFlow.Layout.Script.Syntax
import CallFlow.Layout.Script.Wording
import CallFlow.Layout.System
import CallFlow.Layout.Tool
import CallFlow.Layout.Tool.Arrangement
import CallFlow.Layout.Tool.Cat
import CallFlow.Layout.Tool.Excerpt
import CallFlow.Layout.Tool.Filing
import CallFlow.Layout.Tool.Flag
import CallFlow.Layout.Tool.Line
import CallFlow.Layout.Tool.Series
import CallFlow.Layout.Tool.Tally
import CallFlow.Layout.Tool.Transliteration
import CallFlow.Main
import CallFlow.Module
import CallFlow.Options
import CallFlow.OutputFormat
import CallFlow.Path
import CallFlow.Proofs.MermaidNames
import CallFlow.Proofs.DanglingIds
import CallFlow.Proofs.ArrivalOrder
import CallFlow.Proofs.RedundantReferences
import CallFlow.Proofs.References
import CallFlow.Proofs.StateNames
import CallFlow.Report
import CallFlow.Stem
import CallFlow.Text
import CallFlow.Text.Obscure
import CallFlow.Text.Quoted
import CallFlow.Text.Utf8
import CallFlow.Text.Words
import CallFlow.Toml.Document
import CallFlow.Toml.Scalar
import CallFlow.Toml.Scan
import CallFlow.Toml.Text
import CallFlow.Toml.Tree
import CallFlow.Toml.Value
import CallFlow.Walk
import CallFlow.Xml.Character
import CallFlow.Xml.Content
import CallFlow.Xml.Element
import CallFlow.Xml.Fault
import CallFlow.Xml.Node
import CallFlow.Xml.Prolog
import CallFlow.Xml.Reference
import CallFlow.Xml.Scan
import CallFlow.Xml.Tag
import CallFlow.Xml.TextRun
import CallFlow.Proofs.MergedGraph
import CallFlow.Proofs.NamesApart
import CallFlow.Diagram.Arrow
import CallFlow.Diagram.Dot.Element
import CallFlow.Diagram.Mermaid.Reader
import CallFlow.Diagram.PlantUml.Reader
import CallFlow.Proofs.ArrowReading
import CallFlow.Proofs.DotReading
import CallFlow.Proofs.DeclaredOnce
import CallFlow.Proofs.FlowchartLines
import CallFlow.Proofs.DotDrawing
import CallFlow.Proofs.SourceNote
import CallFlow.Diagram.Drawn
import CallFlow.Proofs.SameArrows
import CallFlow.Proofs.ArtifactFiles
import CallFlow.Proofs.DocumentOutcome
import CallFlow.Proofs.Interleaving
import CallFlow.Proofs.ParallelRun
import CallFlow.Proofs.Isolation
import CallFlow.Proofs.CaseLines
import CallFlow.Proofs.CaseReading
import CallFlow.Proofs.CasesReadBack
import CallFlow.Proofs.ModuleList
import CallFlow.Extraction.Writing
import CallFlow.Proofs.ModulesReadBack
import CallFlow.Proofs.Predecessors
import CallFlow.Proofs.ParsedCases
import CallFlow.Proofs.RewrittenCases
import CallFlow.FileTree.Soundness
import CallFlow.Proofs.RewrittenCorpus
import CallFlow.Proofs.Outcomes
import CallFlow.Proofs.Updates
import CallFlow.Proofs.Verdicts
import CallFlow.Proofs.Blessing
import CallFlow.Proofs.CaseOutlines
import CallFlow.Proofs.OutlinedTexts
import CallFlow.Proofs.KeptComments
import CallFlow.Proofs.ElementNames
import CallFlow.Proofs.FlowchartLabels
import CallFlow.Proofs.DescribedSteps
import CallFlow.Proofs.CleanTexts
import CallFlow.Proofs.DroppedSteps
import CallFlow.Proofs.GrownGraph
import CallFlow.Proofs.UnknownContent
import CallFlow.Proofs.ArtifactStems
import CallFlow.Proofs.FormatNames
import CallFlow.Proofs.PathOrder
import CallFlow.Proofs.WalkedTrees
import CallFlow.Proofs.FoundDocuments
import CallFlow.Proofs.SingleDocument
import CallFlow.Proofs.ChildGroups
import CallFlow.Proofs.CountedNames
import CallFlow.Proofs.EscapedTexts
import CallFlow.Proofs.CaseNames
import CallFlow.Proofs.FailureHistory
