import ConsoleLog.Builder
import ConsoleLog.Proofs.Leakage
import ConsoleLog.Proofs.Restoration
import ConsoleLog.Proofs.Journal
import ConsoleLog.Proofs.Timestamp
import ConsoleLog.Proofs.Batch
import ConsoleLog.Proofs.Isolation
import ConsoleLog.Proofs.Output
import ConsoleLog.Proofs.Screen
import ConsoleLog.Proofs.ColorModes
import ConsoleLog.Proofs.Transcript
import ConsoleLog.Proofs.Indentation
import ConsoleLog.Proofs.Progress
import ConsoleLog.Proofs.Capacity
import ConsoleLog.Proofs.Lifecycle
import ConsoleLog.Proofs.Precedence
import ConsoleLog.Proofs.Diagnostics
import ConsoleLog.Proofs.Flushing
import ConsoleLog.Proofs.Tracking
import ConsoleLog.Proofs.Layout
import ConsoleLog.Proofs.HostColors
import ConsoleLog.Proofs.Endings
import ConsoleLog.Proofs.Exceptions
import ConsoleLog.Proofs.Instant
import ConsoleLog.Proofs.Attributes
import ConsoleLog.Proofs.LevelNames
import ConsoleLog.Proofs.EventId
