import JJMCP.SummaryTable
import JJMCP.LatestSummary
import JJMCP.Submission
import JJMCP.RuntimeInstall
import JJMCP.Recording
import JJMCP.ServeProgress
import JJMCP.HelperStreams
import JJMCP.PaneLock
import JJMCP.LockReclaim
import JJMCP.Emission
import JJMCP.PollComplete
import JJMCP.ProcessReap
import JJMCP.ProcessPipes
import JJMCP.ProcessHang
import JJMCP.PaneMode
import JJMCP.RuntimeMissing
import JJMCP.Scrollback
import JJMCP.Answering
import JJMCP.TransportAgreement
import JJMCP.TranscriptKeeps
import JJMCP.Accumulator
import JJMCP.LineTruncation
import JJMCP.ByteTruncation
import JJMCP.Streaming
import JJMCP.Slices
import JJMCP.LegacyText
import JJMCP.Locality
import JJMCP.WorkingSet
import JJMCP.CompactionRounds
import JJMCP.JuliaLiteral
import JJMCP.PrefixFunction
import JJMCP.TmuxFields
import JJMCP.MarkerIds
import JJMCP.ForegroundGeneration
import JJMCP.NumericArguments
import JJMCP.HelperSocket
import JJMCP.ServeOptions
import JJMCP.SummaryRange
import JJMCP.BeginSeen
import JJMCP.HelperConversation
import JJMCP.ProcessOutput
import JJMCP.PaneReply
import JJMCP.CallScope
import JJMCP.ConfigStore
import JJMCP.TmuxBuffers
import JJMCP.ServeEnds
import JJMCP.TranscriptFiles
import JJMCP.ServeReports
import JJMCP.ServeCalls
