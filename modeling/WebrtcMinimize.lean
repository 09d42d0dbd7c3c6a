import WebrtcMinimize.ProgramWriters
import WebrtcMinimize.ProgramReplay
import WebrtcMinimize.FailoverStops
import WebrtcMinimize.FailoverFences
import WebrtcMinimize.MediaAcks
import WebrtcMinimize.FederationSequences
import WebrtcMinimize.PlaybackSessions
import WebrtcMinimize.SFrameEnvelopes
import WebrtcMinimize.OverlayResume
import WebrtcMinimize.RolloverAlignment
import WebrtcMinimize.SourceClockMap
import WebrtcMinimize.AssignmentOrder
import WebrtcMinimize.AuthorityRuns
import WebrtcMinimize.DirectorCommands
import WebrtcMinimize.HLSRuns
import WebrtcMinimize.MachineSessions
import WebrtcMinimize.SourceSignals
import WebrtcMinimize.PairRuns
import WebrtcMinimize.SupervisorRuns
import WebrtcMinimize.SourceGrantRuns
import WebrtcMinimize.PackagerAssignmentRuns
import WebrtcMinimize.DiagramsRuns
import WebrtcMinimize.PollRuns
import WebrtcMinimize.DecryptLifecycleRuns
import WebrtcMinimize.OverlayKeyRuns
import WebrtcMinimize.PeerResetRuns
import WebrtcMinimize.SourceKeyRuns
import WebrtcMinimize.RtpContinuity
import WebrtcMinimize.IceCandidates
import WebrtcMinimize.BreakoutBalance
import WebrtcMinimize.JoinAtomicity
import WebrtcMinimize.BackupParents
import WebrtcMinimize.RelayQuorum
import WebrtcMinimize.FailoverAtomicity
import WebrtcMinimize.GrantAtomicity
import WebrtcMinimize.SFrameCodec
import WebrtcMinimize.ReplayWindows
import WebrtcMinimize.OverlayQueue
import WebrtcMinimize.CapacityLedger
import WebrtcMinimize.LazyDecoder
import WebrtcMinimize.RolloverBudget
import WebrtcMinimize.DecodeBudget
import WebrtcMinimize.SenderPool
import WebrtcMinimize.AudioStrategy
