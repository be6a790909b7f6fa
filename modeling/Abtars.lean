import Abtars.Board.Cleanup
import Abtars.Board.DeliveryRuns
import Abtars.Board.DispatchOrder
import Abtars.Board.Obligations
import Abtars.Lease.Deadlines
import Abtars.Lease.Facts
import Abtars.Lease.Grace
import Abtars.Lifecycle.WakeScheduler
import Abtars.Memory.OutboxAtomicity
import Abtars.Orc.Fuse
import Abtars.Peer.DoorbellAcks
import Abtars.Peer.DoorbellReplay
import Abtars.Peer.HelpStatus
import Abtars.Peer.RequestAuth
import Abtars.Peer.WsOutbox
import Abtars.Pi.Acknowledgement
import Abtars.Pi.ControlOnce
import Abtars.Pi.EventValidity
import Abtars.Pi.PushLoop
import Abtars.Pi.UiRequests
import Abtars.Project.DecisionOwnership
import Abtars.Project.ReviewEvidence
import Abtars.Project.TerminalLanding
import Abtars.Retry.Cap
import Abtars.Retry.Reservations
import Abtars.Retry.Revisions
import Abtars.Session.ExecutionSlots
import Abtars.Session.RegistryLaws
import Abtars.Session.Steering
import Abtars.Sha.Policy
import Abtars.Task.Admission
import Abtars.Task.Cascade
import Abtars.Task.Isolation
import Abtars.Task.RetryGroups
import Abtars.Tui.FrameDecoder
import Abtars.Tui.FrameLimits
import Abtars.Tui.StreamsKept
import Abtars.Worker.Budget
import Abtars.Worker.Evidence
import Abtars.Workflow.Admission
import Abtars.Workflow.DeliveryOnce
import Abtars.Workflow.InputRounds
import Abtars.Workflow.InspectionProgress
import Abtars.Workflow.Quiescence
