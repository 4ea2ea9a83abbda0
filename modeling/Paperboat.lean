import Paperboat.ConnectorProtocol.Fencing
import Paperboat.ConnectorProtocol.Withdrawal
import Paperboat.ConnectorProtocol.DrainHold
import Paperboat.ConnectorProtocol.Prepared
import Paperboat.ConnectorProtocol.Leases
import Paperboat.Preview.Renewal
import Paperboat.RelayCarrier.ReadDeadline
import Paperboat.SupervisorUpdate.Grants
import Paperboat.ResumableStream.Ownership
import Paperboat.ResumableStream.HalfClose
import Paperboat.TransferCrypto.Manifest
import Paperboat.TerminalHistory.Replay
import Paperboat.Session.TerminalModes
import Paperboat.Paste.Transparency
import Paperboat.Paste.ShellWord
import Paperboat.ConnectionManager.FailClosed
import Paperboat.ConnectionManager.Suspicion
import Paperboat.NetworkAdaptation.PathMTU
import Paperboat.EnvironmentManager.Mutate
import Paperboat.EnvInject.Reauthorization
import Paperboat.LocalAPI.Watchers
import Paperboat.Operation.Capacity
import Paperboat.Operation.Outcomes
import Paperboat.ConnectorRotation.Readiness
import Paperboat.NetworkRecovery.Unanswered
import Paperboat.HostState.Survival
import Paperboat.HostdProtocol.Fence
import Paperboat.ExecProcess.Replay
import Paperboat.TunnelManager.NetworkFences
