import ClockifyAssistant.CalendarAgreement
import ClockifyAssistant.CallbackOrder
import ClockifyAssistant.CancelledCommands
import ClockifyAssistant.ClarificationProtocol
import ClockifyAssistant.Clockify.HostThrottleMonitor
import ClockifyAssistant.CompleteLists
import ClockifyAssistant.ConfirmationFreshness
import ClockifyAssistant.ConfirmedCharges
import ClockifyAssistant.ConfirmedDays
import ClockifyAssistant.DayGrammar
import ClockifyAssistant.DeclaredPlans
import ClockifyAssistant.EventCursor
import ClockifyAssistant.GovernorDrains
import ClockifyAssistant.GovernorRate
import ClockifyAssistant.GovernorSafety
import ClockifyAssistant.Harness.OperationHash
import ClockifyAssistant.Harness.SanitizedValues
import ClockifyAssistant.Harness.SourceSpans
import ClockifyAssistant.HostCallCap
import ClockifyAssistant.IdentifierClosure
import ClockifyAssistant.IdentityResolution
import ClockifyAssistant.IntentUsage
import ClockifyAssistant.LeaseConservation
import ClockifyAssistant.LedgerOwnership
import ClockifyAssistant.ModelCharges
import ClockifyAssistant.MutationDispatch
import ClockifyAssistant.PresentedBounds
import ClockifyAssistant.PresentedWrites
import ClockifyAssistant.PreviewRuns
import ClockifyAssistant.RecoveryCounters
import ClockifyAssistant.RepeatedCalls
import ClockifyAssistant.RestoreEvidence
import ClockifyAssistant.RestoredCards
import ClockifyAssistant.ReviewWindows
import ClockifyAssistant.RoleFreshness
import ClockifyAssistant.RoleScopes
import ClockifyAssistant.Routes.FifoLock
import ClockifyAssistant.Routes.RateLimit
import ClockifyAssistant.RunTelemetry
import ClockifyAssistant.StartupReconciliation
import ClockifyAssistant.SuspendedChains
import ClockifyAssistant.ToolResultBounds
import ClockifyAssistant.ToolSetRuns
import ClockifyAssistant.TruthfulReplies
import ClockifyAssistant.TurnRunReplay
import ClockifyAssistant.UnchangedTargets
import ClockifyAssistant.UndoLedger
import ClockifyAssistant.UndoReversal
import ClockifyAssistant.UnknownArguments
