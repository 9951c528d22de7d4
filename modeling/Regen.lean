import Regen.Action
import Regen.Assoc
import Regen.Backup
import Regen.Builtin
import Regen.Builtin.Badge
import Regen.Builtin.Evaluation
import Regen.Builtin.Fence
import Regen.Builtin.Requirement
import Regen.Command
import Regen.Command.Flag
import Regen.Command.Options
import Regen.Command.State
import Regen.Decimal.Binary64
import Regen.Decimal.Shortest
import Regen.Document
import Regen.Document.Chunk
import Regen.Document.Matching
import Regen.Document.Tree
import Regen.Errno
import Regen.Excerpt
import Regen.Fault
import Regen.FileSystem
import Regen.Generator
import Regen.Header.Grammar
import Regen.Header.Lexeme
import Regen.Header.Token
import Regen.Journal
import Regen.Main
import Regen.Manual
import Regen.Moment
import Regen.Path
import Regen.Pipeline
import Regen.Position
import Regen.Project
import Regen.Proofs.Advance
import Regen.Proofs.BackupRuns
import Regen.Proofs.BlamedDirectives
import Regen.Proofs.BracketMachine
import Regen.Proofs.BuiltinCharacters
import Regen.Proofs.BuiltinContents
import Regen.Proofs.CharacterSteps
import Regen.Proofs.CheckedParameters
import Regen.Proofs.ChunkTiling
import Regen.Proofs.CommandRuns
import Regen.Proofs.ConstantContents
import Regen.Proofs.Cuts
import Regen.Proofs.DeepestNesting
import Regen.Proofs.DefaultNamespace
import Regen.Proofs.DocumentPrinting
import Regen.Proofs.EvaluatedLines
import Regen.Proofs.Excerpts
import Regen.Proofs.ExcessiveNesting
import Regen.Proofs.FencedBlocks
import Regen.Proofs.FilesKept
import Regen.Proofs.FilledDocuments
import Regen.Proofs.FirstFailures
import Regen.Proofs.Forests
import Regen.Proofs.HeaderLanguage
import Regen.Proofs.HeaderPrinting
import Regen.Proofs.HeaderSpellings
import Regen.Proofs.HeaderTokens
import Regen.Proofs.Idempotence
import Regen.Proofs.IndependentUpdates
import Regen.Proofs.LegibleChunks
import Regen.Proofs.LexemeBoundaries
import Regen.Proofs.LexemeEnds
import Regen.Proofs.LexemeRules
import Regen.Proofs.LexemeStream
import Regen.Proofs.MalformedMarkers
import Regen.Proofs.ManualLines
import Regen.Proofs.MarkerHeaders
import Regen.Proofs.MarkerVerdicts
import Regen.Proofs.MergedVariables
import Regen.Proofs.Occurrences
import Regen.Proofs.OutputDocuments
import Regen.Proofs.PlainReferences
import Regen.Proofs.QueryFields
import Regen.Proofs.Regeneration
import Regen.Proofs.RegistryRuns
import Regen.Proofs.Relocation
import Regen.Proofs.RenderingHistory
import Regen.Proofs.Reparsing
import Regen.Proofs.ReportedFailures
import Regen.Proofs.ResolutionOrder
import Regen.Proofs.Respelling
import Regen.Proofs.ScanSemantics
import Regen.Proofs.Separators
import Regen.Proofs.ShownLines
import Regen.Proofs.TrimmedVersions
import Regen.Proofs.TruePositions
import Regen.Proofs.TypedParameters
import Regen.Proofs.UpdateAtomicity
import Regen.Proofs.UpdateSteps
import Regen.Proofs.VariablePrecedence
import Regen.Proofs.VersionBadges
import Regen.Proofs.WorkflowBadges
import Regen.Proofs.WritableReports
import Regen.Reference
import Regen.Registry
import Regen.Rendering
import Regen.Resolution
import Regen.Schema
import Regen.Scope
import Regen.Settings
import Regen.Stamp
import Regen.Surroundings
import Regen.Table
import Regen.Text.Blank
import Regen.Text.Cut
import Regen.Text.Digit
import Regen.Text.Printable
import Regen.Text.Quoted
import Regen.Text.Upper
import Regen.Text.Utf8
import Regen.Text.Utf8.Pieces
import Regen.Update
import Regen.Url
import Regen.Url.Host
import Regen.Url.Query
import Regen.Value
import Regen.Value.Key
import Regen.Value.Order
