import FamiliarAi.ControlPlane.ConnectionRun
import FamiliarAi.Drive.Settlement
import FamiliarAi.Drive.LiveSessions
import FamiliarAi.Review.Identity
import FamiliarAi.Storage.CleanCompletion
import FamiliarAi.Storage.SavedCycles
import FamiliarAi.Storage.Migrations
import FamiliarAi.Context.Agreement
import FamiliarAi.ControlPlane.LeaseRun
import FamiliarAi.Delivery.MigrationGate
import FamiliarAi.Accounting.Snapshots
import FamiliarAi.Backlog.Debounce
import FamiliarAi.Backlog.DependencyGrammars
import FamiliarAi.Backlog.Next
import FamiliarAi.Agent.EditScope
import FamiliarAi.Agent.Conversation
import FamiliarAi.Agent.ToolJournal
import FamiliarAi.Batch.Disposition
import FamiliarAi.Residency.Held
import FamiliarAi.Delivery.SmokeGate
import FamiliarAi.Storage.IdentityRoundTrip
import FamiliarAi.Context.Discovery
import FamiliarAi.Compress.InputTransform
import FamiliarAi.Review.Dispositions
import FamiliarAi.Review.LockfileEvidence
import FamiliarAi.Review.TierSelection
import FamiliarAi.Probation.Callers
import FamiliarAi.Storage.BootstrapHistory
import FamiliarAi.Drive.LockExclusion
import FamiliarAi.Summary.Handled
import FamiliarAi.Accounting.Views
import FamiliarAi.Review.ScopePaths
import FamiliarAi.Review.PackageLoops
import FamiliarAi.Review.ScopeClasses
import FamiliarAi.Storage.WaiverCover
import FamiliarAi.Review.SecretScan
import FamiliarAi.Review.NameStatus
import FamiliarAi.Review.CitedHunks
import FamiliarAi.Probation.Score
import FamiliarAi.Storage.Done
import FamiliarAi.Storage.ScopeGate
import FamiliarAi.Reservation.Deadlines
import FamiliarAi.Drive.Waves
import FamiliarAi.Drive.Width
import FamiliarAi.Accounting.Decimals
import FamiliarAi.Agent.Outcome
import FamiliarAi.Agent.LocalStream
import FamiliarAi.Agent.ToolResults
import FamiliarAi.Agent.Registry
import FamiliarAi.Llm.EventStream
