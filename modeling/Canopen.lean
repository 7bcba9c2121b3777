import Canopen.Can.Interface
import Canopen.Node
import Canopen.Crc
import Canopen.Client
import Canopen.Fanout
import Canopen.Script
import Canopen.Bus
import Canopen.Plant
import Canopen.Client.Settings
import Canopen.Sdo.Frame
import Canopen.Proofs.Framing
import Canopen.Proofs.Segments
import Canopen.Proofs.Ends
import Canopen.Proofs.Line
import Canopen.Proofs.Service
import Canopen.Proofs.Exchange
import Canopen.Proofs.Traffic
import Canopen.Proofs.Downloads
import Canopen.Proofs.BlockDownload
import Canopen.Proofs.Uploads
import Canopen.Proofs.BlockUpload
import Canopen.Proofs.Operation
import Canopen.Proofs.Outcomes
import Canopen.Proofs.LostRequests
import Canopen.Proofs.Lockstep
import Canopen.Proofs.Simulation
import Canopen.Proofs.Addressing
import Canopen.Proofs.Attachment
import Canopen.Proofs.OverBus
import Canopen.Proofs.AbortDiscipline
import Canopen.Proofs.Lossy
import Canopen.Proofs.LossyUploads
import Canopen.Proofs.LossyBlocks
import Canopen.Proofs.LossyBlockUploads
import Canopen.Proofs.UploadSafety
import Canopen.Proofs.LossyDownloads
import Canopen.Proofs.Rereading
import Canopen.Proofs.LossyBlockDownloads
import Canopen.Proofs.DownloadSafety
import Canopen.Proofs.LostAcknowledgement
import Canopen.Proofs.SegmentLoss
import Canopen.Proofs.LostSegment
import Canopen.Proofs.Reading
import Canopen.Proofs.Trace
import Canopen.Proofs.Upholding
import Canopen.Proofs.TerminalFrames
import Canopen.Proofs.RetryBudget
import Canopen.Proofs.Prompt
import Canopen.Proofs.PromptDownloads
import Canopen.Proofs.PromptUploads
import Canopen.Proofs.PromptBlockUploads
import Canopen.Proofs.PromptOperations
import Canopen.Proofs.Openings
import Canopen.Proofs.Ports
import Canopen.Proofs.Orders
import Canopen.Proofs.SharedPort
import Canopen.Proofs.Permanence
import Canopen.Proofs.Aftermath
import Canopen.Proofs.CanonicalFrames
import Canopen.Proofs.Formats
import Canopen.Proofs.FrameContents
import Canopen.Proofs.Histories
import Canopen.Proofs.Storing
import Canopen.Proofs.Checksums
import Canopen.Proofs.CorruptByte
import Canopen.Proofs.Termination
import Canopen.Proofs.ForeignTraffic
import Canopen.Proofs.Commitments
import Canopen.Proofs.BlockStreams
import Canopen.Proofs.Supervision
import Canopen.Proofs.Watching
import Canopen.Proofs.Release
import Canopen.Proofs.Delivery
import Canopen.Proofs.Channels
import Canopen.Proofs.Conduct
import Canopen.Proofs.Courses
import Canopen.Proofs.BlockSender
import Canopen.Proofs.Fetching
import Canopen.Proofs.BlockReceiver
import Canopen.Proofs.Answers
import Canopen.Proofs.SegmentSender
import Canopen.Proofs.SegmentReceiver
import Canopen.Proofs.Origins
import Canopen.Proofs.Punctuality
import Canopen.Proofs.SteadyStreams
import Canopen.Proofs.TimelyAnswers
import Canopen.Proofs.Patience
import Canopen.Proofs.Shortfalls
import Canopen.Proofs.Attempts
import Canopen.Proofs.Acceptance
import Canopen.Proofs.Guarded
import Canopen.Proofs.GuardedTransfers
import Canopen.Proofs.TrapFree
import Canopen.Proofs.GuardedFrames
import Canopen.Proofs.GuardedServer
import Canopen.Proofs.Robustness
