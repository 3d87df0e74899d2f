import Kodama.Lib.Machine
import Kodama.Lib.HashMap
import Kodama.Lib.Bytes
import Kodama.Lib.FileSystem
import Kodama.Lib.Windows
import Kodama.Lib.SlidingWindow
import Kodama.Lib.Incremental
import Kodama.Lib.Boxes
import Kodama.Lib.Broadcast
import Kodama.Lib.Positions
import Kodama.Lib.Mpsc
import Kodama.Lib.MessagePack
import Kodama.Core.Frame
import Kodama.Transport.Framing
import Kodama.Transport.Hop
import Kodama.Transport.FrameStream
import Kodama.Transport.Muxer
import Kodama.Transport.Backpressure
import Kodama.Transport.SendErrors
import Kodama.Transport.Demuxer
import Kodama.Capture.Abr
import Kodama.Capture.AbrPressure
import Kodama.Capture.Throughput
import Kodama.Capture.Telemetry
import Kodama.Capture.H264
import Kodama.Capture.KeyframeCheck
import Kodama.Capture.NalSpans
import Kodama.Capture.Video
import Kodama.Capture.VideoCapture
import Kodama.Server.Peers
import Kodama.Server.Reconnect
import Kodama.Server.RateLimit
import Kodama.Server.CameraLoop
import Kodama.Server.MemoryBudget
import Kodama.Server.Handlers
import Kodama.Server.CommandChannel
import Kodama.Server.CommandRegistry
import Kodama.Server.ReadySignal
import Kodama.Server.ClientCommands
import Kodama.Firmware.Update
import Kodama.Firmware.UpdateRace
import Kodama.Firmware.BitrateHandler
import Kodama.Storage.Local
import Kodama.Storage.Recording
import Kodama.Storage.Lossless
import Kodama.Storage.Expiry
import Kodama.Storage.Reopen
import Kodama.Storage.Cleanup
import Kodama.Storage.CleanupIndex
import Kodama.Storage.Accounting
import Kodama.Storage.Restart
import Kodama.Storage.SegmentHeader
import Kodama.Storage.DiskUsage
import Kodama.Storage.Cloud
import Kodama.Storage.Truncation
import Kodama.Storage.FailedWrite
import Kodama.Storage.FailedRotation
import Kodama.Storage.CloudCalls
import Kodama.Server.Retention
import Kodama.Server.Quota
import Kodama.Web.Fmp4
import Kodama.Web.BoxChain
import Kodama.Web.Segments
import Kodama.Web.KeyframeStart
import Kodama.Web.VideoFeed
import Kodama.Web.Cameras
import Kodama.Web.TelemetryFeed
import Kodama.Web.TelemetryDecoders
import Kodama.Server.CommandLink
import Kodama.Firmware.Camera
import Kodama.Lib.Subscription
import Kodama.Transport.Forwarder
import Kodama.Firmware.Relay
import Kodama.Server.FrameRouter
import Kodama.Server.EndToEnd
import Kodama.Lib.Text
import Kodama.Firmware.NetworkMonitor
import Kodama.Storage.Playback
import Kodama.Server.RecordingTask
import Kodama.Web.Protocol
import Kodama.Server.CommandWires
import Kodama.Server.CommandRouting
import Kodama.Lib.Pieces
import Kodama.Capture.Audio
import Kodama.Storage.CloudUpkeep
import Kodama.Storage.CloudPlayback
import Kodama.Storage.CloudLossless
