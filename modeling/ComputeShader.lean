import ComputeShader.Case.Basic
import ComputeShader.Case.Decoding
import ComputeShader.Case.Encoding
import ComputeShader.Case.Literal
import ComputeShader.Case.Seed
import ComputeShader.CommandLine.Arguments
import ComputeShader.CommandLine.Commands
import ComputeShader.Comparison.Basic
import ComputeShader.Comparison.Expectation
import ComputeShader.Comparison.Lane
import ComputeShader.Corpus.Check
import ComputeShader.Corpus.Collection
import ComputeShader.Corpus.Evaluation
import ComputeShader.Dispatch.Basic
import ComputeShader.Dispatch.Config
import ComputeShader.Dispatch.Execution
import ComputeShader.Dispatch.Grid
import ComputeShader.Dispatch.Shuffle
import ComputeShader.Error
import ComputeShader.Files.Access
import ComputeShader.Files.Path
import ComputeShader.Files.Tree
import ComputeShader.Image.Format
import ComputeShader.Image.LittleEndian
import ComputeShader.Image.Texture
import ComputeShader.Json.Basic
import ComputeShader.Json.Reader
import ComputeShader.Json.Record
import ComputeShader.Json.Writer
import ComputeShader.Main
import ComputeShader.Numeric.Binary
import ComputeShader.Numeric.Decimal
import ComputeShader.Numeric.Double
import ComputeShader.Numeric.Single
import ComputeShader.Proofs.AccessIsolation
import ComputeShader.Proofs.AlikeRuns
import ComputeShader.Proofs.ArrayMemory
import ComputeShader.Proofs.AtomicChanges
import ComputeShader.Proofs.AtomicSequences
import ComputeShader.Proofs.BodySizes
import ComputeShader.Proofs.CallPlaces
import ComputeShader.Proofs.CaseSeeds
import ComputeShader.Proofs.CheckedBodies
import ComputeShader.Proofs.ClosedBodies
import ComputeShader.Proofs.ClosedShaders
import ComputeShader.Proofs.CompleteDispatches
import ComputeShader.Proofs.CompoundAssignments
import ComputeShader.Proofs.DeterminedCalls
import ComputeShader.Proofs.DiagnosticOrder
import ComputeShader.Proofs.DispatchRuns
import ComputeShader.Proofs.DispatchSteps
import ComputeShader.Proofs.Effects
import ComputeShader.Proofs.ElementHistory
import ComputeShader.Proofs.EmptyResources
import ComputeShader.Proofs.ErasedPositions
import ComputeShader.Proofs.EvaluatedEquality
import ComputeShader.Proofs.EvaluationFrames
import ComputeShader.Proofs.EventCounts
import ComputeShader.Proofs.ExactComparison
import ComputeShader.Proofs.ExpressionProgress
import ComputeShader.Proofs.ExpressionSizes
import ComputeShader.Proofs.FailedOperations
import ComputeShader.Proofs.FirstFit
import ComputeShader.Proofs.FlatContents
import ComputeShader.Proofs.FloatDifference
import ComputeShader.Proofs.GridCoverage
import ComputeShader.Proofs.GridOrder
import ComputeShader.Proofs.HeaderProgress
import ComputeShader.Proofs.HeaderSizes
import ComputeShader.Proofs.HiddenContents
import ComputeShader.Proofs.IndexPolicies
import ComputeShader.Proofs.InvocationScripts
import ComputeShader.Proofs.LaneRules
import ComputeShader.Proofs.LanewiseOperators
import ComputeShader.Proofs.LanguageStarts
import ComputeShader.Proofs.LexicalRules
import ComputeShader.Proofs.LoadOutcomes
import ComputeShader.Proofs.LoadedShaders
import ComputeShader.Proofs.MistypedStores
import ComputeShader.Proofs.Noninterference
import ComputeShader.Proofs.OperationErrors
import ComputeShader.Proofs.ParsingProgress
import ComputeShader.Proofs.PathLenses
import ComputeShader.Proofs.Permissions
import ComputeShader.Proofs.Process
import ComputeShader.Proofs.ProjectedStores
import ComputeShader.Proofs.RaceDetection
import ComputeShader.Proofs.RacePolicies
import ComputeShader.Proofs.RaceReports
import ComputeShader.Proofs.ReachedStates
import ComputeShader.Proofs.ReadExpressions
import ComputeShader.Proofs.RegisterEquality
import ComputeShader.Proofs.RepeatedEvaluation
import ComputeShader.Proofs.ResourceFills
import ComputeShader.Proofs.RestatedSeeds
import ComputeShader.Proofs.RoundedProducts
import ComputeShader.Proofs.RunComposition
import ComputeShader.Proofs.RunEffects
import ComputeShader.Proofs.RunValues
import ComputeShader.Proofs.ScheduleIndependence
import ComputeShader.Proofs.ScopedExpressions
import ComputeShader.Proofs.ScopedHeaders
import ComputeShader.Proofs.ScopedParsing
import ComputeShader.Proofs.ScopedStatements
import ComputeShader.Proofs.SeedLayers
import ComputeShader.Proofs.SeededContents
import ComputeShader.Proofs.SeededStores
import ComputeShader.Proofs.SerialRuns
import ComputeShader.Proofs.SinglesAsDoubles
import ComputeShader.Proofs.SlicedAccesses
import ComputeShader.Proofs.SlotAssignment
import ComputeShader.Proofs.SlotSearch
import ComputeShader.Proofs.SnapshotAccessors
import ComputeShader.Proofs.SnapshotDisagreements
import ComputeShader.Proofs.SnapshotMatching
import ComputeShader.Proofs.SnapshotTexts
import ComputeShader.Proofs.SpacedTokens
import ComputeShader.Proofs.SpelledIntegers
import ComputeShader.Proofs.StatementProgress
import ComputeShader.Proofs.SteadyParsing
import ComputeShader.Proofs.StepBudgets
import ComputeShader.Proofs.StepTraces
import ComputeShader.Proofs.StoreCalls
import ComputeShader.Proofs.StoreCells
import ComputeShader.Proofs.StoreOperations
import ComputeShader.Proofs.StoreRepresentation
import ComputeShader.Proofs.StoreScripts
import ComputeShader.Proofs.TexelCopies
import ComputeShader.Proofs.TokenProgress
import ComputeShader.Proofs.TokenizedTexts
import ComputeShader.Proofs.TypedLocals
import ComputeShader.Proofs.UniqueSlots
import ComputeShader.Proofs.WrittenExpressions
import ComputeShader.Proofs.WrittenTokens
import ComputeShader.Proofs.WrittenValues
import ComputeShader.Report.Divergences
import ComputeShader.Report.Snapshot
import ComputeShader.Report.Table
import ComputeShader.Shader.AccessCheck
import ComputeShader.Shader.Fault
import ComputeShader.Shader.Load
import ComputeShader.Shader.Manifest
import ComputeShader.Shader.Model
import ComputeShader.Shader.Nodes
import ComputeShader.Shader.Outline
import ComputeShader.Shader.Parser.Declaration
import ComputeShader.Shader.Parser.Expression
import ComputeShader.Shader.Parser.State
import ComputeShader.Shader.Parser.Statement
import ComputeShader.Shader.Slots
import ComputeShader.Shader.Syntax
import ComputeShader.Snapshot.Basic
import ComputeShader.Snapshot.Encoding
import ComputeShader.Source.Lexer
import ComputeShader.Source.Token
import ComputeShader.Store.Access
import ComputeShader.Store.Basic
import ComputeShader.Store.Bindings
import ComputeShader.Store.Diagnostics
import ComputeShader.Store.Race
import ComputeShader.Store.Seeding
import ComputeShader.Text.Whitespace
import ComputeShader.Text.Width
import ComputeShader.Toml.Document
import ComputeShader.Toml.Reader
import ComputeShader.Toml.Scalar
import ComputeShader.Value.Basic
import ComputeShader.Value.Operator
import ComputeShader.Value.Projection
import ComputeShader.Value.Scalar
import ComputeShader.Value.Type
