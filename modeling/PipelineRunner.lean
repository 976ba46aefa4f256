import PipelineRunner.Cancellation
import PipelineRunner.CommandLine.Arguments
import PipelineRunner.CommandLine.Help
import PipelineRunner.CommandLine.Listing
import PipelineRunner.CommandLine.Options
import PipelineRunner.CommandLine.Program
import PipelineRunner.Container.Client
import PipelineRunner.Container.Lease
import PipelineRunner.Container.Runtime
import PipelineRunner.Container.Scripted
import PipelineRunner.Engine.Execution
import PipelineRunner.Engine.OwnSteps
import PipelineRunner.Engine.Rota
import PipelineRunner.Engine.Solo
import PipelineRunner.Engine.StageRun
import PipelineRunner.Engine.Trial
import PipelineRunner.Failure
import PipelineRunner.Host.FileTree
import PipelineRunner.Host.Machine
import PipelineRunner.Host.Outcome
import PipelineRunner.Host.Routine
import PipelineRunner.Host.Site
import PipelineRunner.Host.Streaming
import PipelineRunner.Json.Basic
import PipelineRunner.Json.Reader
import PipelineRunner.Launcher.Service
import PipelineRunner.Log.Buffer
import PipelineRunner.Main
import PipelineRunner.Number.FloatText
import PipelineRunner.OrderedMap
import PipelineRunner.Pipeline.Basic
import PipelineRunner.Pipeline.Image
import PipelineRunner.Pipeline.Json
import PipelineRunner.Plugin.Basic
import PipelineRunner.Plugin.Builtin
import PipelineRunner.Plugin.Registry
import PipelineRunner.Plugin.Scripted
import PipelineRunner.Proofs.AttemptAccounts
import PipelineRunner.Proofs.AttemptTimes
import PipelineRunner.Proofs.BranchCancellation
import PipelineRunner.Proofs.Breakdowns
import PipelineRunner.Proofs.CheckoutPlaces
import PipelineRunner.Proofs.ClientDialogues
import PipelineRunner.Proofs.ContainerCustody
import PipelineRunner.Proofs.ContainerPlacement
import PipelineRunner.Proofs.ContainerScope
import PipelineRunner.Proofs.ContainerTurns
import PipelineRunner.Proofs.DocumentOrder
import PipelineRunner.Proofs.EarliestFaults
import PipelineRunner.Proofs.EndedWorkflows
import PipelineRunner.Proofs.Endings
import PipelineRunner.Proofs.ExecutionRuns
import PipelineRunner.Proofs.FailFast
import PipelineRunner.Proofs.ForwardedOutput
import PipelineRunner.Proofs.Grammar
import PipelineRunner.Proofs.ImageReferences
import PipelineRunner.Proofs.Instants
import PipelineRunner.Proofs.Interruption
import PipelineRunner.Proofs.JsonTexts
import PipelineRunner.Proofs.LauncherCourses
import PipelineRunner.Proofs.LauncherRuns
import PipelineRunner.Proofs.Launching
import PipelineRunner.Proofs.LogKeeping
import PipelineRunner.Proofs.LogRecords
import PipelineRunner.Proofs.NonInterference
import PipelineRunner.Proofs.OnTrack
import PipelineRunner.Proofs.OrderedEntries
import PipelineRunner.Proofs.OutputPipes
import PipelineRunner.Proofs.Overtaking
import PipelineRunner.Proofs.OwnStepsRuns
import PipelineRunner.Proofs.PathWalks
import PipelineRunner.Proofs.PipelineTexts
import PipelineRunner.Proofs.PluginLives
import PipelineRunner.Proofs.Promptness
import PipelineRunner.Proofs.RegistryRuns
import PipelineRunner.Proofs.ReportTexts
import PipelineRunner.Proofs.RetryLoop
import PipelineRunner.Proofs.RootCause
import PipelineRunner.Proofs.Rotation
import PipelineRunner.Proofs.Scanning
import PipelineRunner.Proofs.Scheduling
import PipelineRunner.Proofs.ScriptImage
import PipelineRunner.Proofs.Settling
import PipelineRunner.Proofs.Signatures
import PipelineRunner.Proofs.StageOutcomes
import PipelineRunner.Proofs.StageRuns
import PipelineRunner.Proofs.StageTraces
import PipelineRunner.Proofs.StateBrackets
import PipelineRunner.Proofs.StepAttempts
import PipelineRunner.Proofs.StepCourses
import PipelineRunner.Proofs.StepIdentity
import PipelineRunner.Proofs.StopAnswers
import PipelineRunner.Proofs.StreamedOutput
import PipelineRunner.Proofs.TailedLogs
import PipelineRunner.Proofs.TimingIndependence
import PipelineRunner.Proofs.TokenForest
import PipelineRunner.Proofs.Turns
import PipelineRunner.Proofs.TurnsAtPlaces
import PipelineRunner.Proofs.Untouched
import PipelineRunner.Proofs.WaitingLine
import PipelineRunner.Proofs.WantedTurns
import PipelineRunner.Proofs.WorkCourses
import PipelineRunner.Proofs.WrittenScripts
import PipelineRunner.Regex.Basic
import PipelineRunner.Regex.Parser
import PipelineRunner.Regex.Perl
import PipelineRunner.Retry
import PipelineRunner.Schedule
import PipelineRunner.Script.Lexeme
import PipelineRunner.Script.Parser
import PipelineRunner.Script.Token
import PipelineRunner.Settings
import PipelineRunner.Shell.Action
import PipelineRunner.Shell.Arithmetic
import PipelineRunner.Shell.Builtin.Basic
import PipelineRunner.Shell.Builtin.Directory
import PipelineRunner.Shell.Builtin.Printing
import PipelineRunner.Shell.Builtin.Signals
import PipelineRunner.Shell.Builtin.Variables
import PipelineRunner.Shell.Command
import PipelineRunner.Shell.Condition
import PipelineRunner.Shell.Expansion
import PipelineRunner.Shell.Extended.Arithmetic
import PipelineRunner.Shell.Extended.Assigning
import PipelineRunner.Shell.Extended.Builtin.Basic
import PipelineRunner.Shell.Extended.Builtin.Catalog
import PipelineRunner.Shell.Extended.Builtin.Declaring
import PipelineRunner.Shell.Extended.Builtin.Jobs
import PipelineRunner.Shell.Extended.Builtin.Names
import PipelineRunner.Shell.Extended.Builtin.Places
import PipelineRunner.Shell.Extended.Builtin.Reading
import PipelineRunner.Shell.Extended.Builtin.Settings
import PipelineRunner.Shell.Extended.Builtin.Testing
import PipelineRunner.Shell.Extended.Escapes
import PipelineRunner.Shell.Extended.Expansion
import PipelineRunner.Shell.Extended.Glob
import PipelineRunner.Shell.Extended.Interpreter
import PipelineRunner.Shell.Extended.Leading
import PipelineRunner.Shell.Extended.Parts
import PipelineRunner.Shell.Extended.Session
import PipelineRunner.Shell.Extended.WordLists
import PipelineRunner.Shell.Extended.Written
import PipelineRunner.Shell.Fields
import PipelineRunner.Shell.Format
import PipelineRunner.Shell.Interpreter
import PipelineRunner.Shell.Lookup
import PipelineRunner.Shell.Numeral
import PipelineRunner.Shell.Parser
import PipelineRunner.Shell.Pattern
import PipelineRunner.Shell.Redirection
import PipelineRunner.Shell.Source
import PipelineRunner.Shell.State
import PipelineRunner.Text.Basic
import PipelineRunner.Text.Bytes
import PipelineRunner.Text.CharClass
import PipelineRunner.Text.Digest
import PipelineRunner.Text.Utf8
import PipelineRunner.Time.Basic
import PipelineRunner.Time.Calendar
import PipelineRunner.Time.Wording
import PipelineRunner.Utility.Arranging
import PipelineRunner.Utility.Batching
import PipelineRunner.Utility.Blocks
import PipelineRunner.Utility.Catalog
import PipelineRunner.Utility.Columns
import PipelineRunner.Utility.Copying
import PipelineRunner.Utility.Dating
import PipelineRunner.Utility.Dumping
import PipelineRunner.Utility.Encoding
import PipelineRunner.Utility.Evaluating
import PipelineRunner.Utility.Files
import PipelineRunner.Utility.Find.Expression
import PipelineRunner.Utility.Find.Search
import PipelineRunner.Utility.Format
import PipelineRunner.Utility.Identity
import PipelineRunner.Utility.Input
import PipelineRunner.Utility.Job
import PipelineRunner.Utility.Listing
import PipelineRunner.Utility.Ordering
import PipelineRunner.Utility.Pairing
import PipelineRunner.Utility.Printing
import PipelineRunner.Utility.Rights
import PipelineRunner.Utility.Running
import PipelineRunner.Utility.Searching
import PipelineRunner.Utility.StreamEditor.Run
import PipelineRunner.Utility.StreamEditor.Script
import PipelineRunner.Utility.Testing
import PipelineRunner.Utility.Viewing
import PipelineRunner.Work
import PipelineRunner.Workflow.Report
import PipelineRunner.Workflow.State
import PipelineRunner.World
