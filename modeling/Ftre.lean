import Ftre.Session.RestartFold
import Ftre.Session.RequestStatus
import Ftre.Session.SnapshotSoundness
import Ftre.Session.RollbackSafety
import Ftre.Session.RepositorySerial
import Ftre.Session.HistoryPages
import Ftre.Session.LogLaw
import Ftre.Session.CheckpointWindow
import Ftre.Session.RepairLaw
import Ftre.Inbox.ReloadLaw
import Ftre.Inbox.OperationAtomicity
import Ftre.Inbox.AttachmentDelivery
import Ftre.Inbox.Suspension
import Ftre.Inbox.HistoryAgreement
import Ftre.Inbox.ReceiptSafety
import Ftre.Runtime.TurnBracket
import Ftre.Runtime.LoopBound
import Ftre.Runtime.SubagentGuards
import Ftre.Tools.ExecutionGate
import Ftre.Runtime.BatchLaw
import Ftre.Tools.EditLaw
import Ftre.Tools.ShellOutput
import Ftre.Tools.PlanTool
import Ftre.Hooks.DrainBarrier
import Ftre.Processes.Lifecycle
import Ftre.InlineExtension.RoundTrip
import Ftre.Messaging.StreamLaw
import Ftre.Messaging.OutboundDispatch
import Ftre.Messaging.InboundBus
import Ftre.Messaging.AttachmentConfinement
import Ftre.Messaging.ProfileSelection
import Ftre.Runtime.ApprovalRuns
import Ftre.Runtime.ToolStability
import Ftre.Runtime.TurnExclusion
import Ftre.Runtime.MaintenanceBarrier
import Ftre.Runtime.TargetedCancel
import Ftre.Runtime.StreamRun
import Ftre.Llm.CompletionsConformance
import Ftre.Llm.CancelledStream
import Ftre.Llm.Fallback
import Ftre.Llm.ResponsesConformance
import Ftre.Llm.HistoryConformance
import Ftre.Encoding.Agreement
import Ftre.Compaction.TrimRuns
import Ftre.Compaction.Watermark
import Ftre.Compaction.Chunks
import Ftre.Compaction.SharingLaw
import Ftre.Compaction.ViewLaw
import Ftre.Compaction.UserMessages
import Ftre.Agent.PauseSafety
import Ftre.Agent.ProfileLaw
import Ftre.Config.ConfigUpdates
import Ftre.Mcp.SourceLaw
import Ftre.Team.MembershipLaw
import Ftre.Commands.CommandLaws
