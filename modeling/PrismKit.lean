import PrismKit.Timeline.Admission
import PrismKit.Timeline.Bookkeeping
import PrismKit.Timeline.Repetition
import PrismKit.Timeline.Dispatch
import PrismKit.Timeline.Conflict
import PrismKit.Timeline.Observation
import PrismKit.Timeline.RepeatGuard
import PrismKit.Library.Earliest
import PrismKit.Timeline.Wakeup
import PrismKit.Timeline.ExtraTick
import PrismKit.Timeline.Defence
import PrismKit.Timeline.Nesting
import PrismKit.Timeline.CallTree
import PrismKit.Library.Batches
import PrismKit.Library.Bytes
import PrismKit.Protocol.Frame
import PrismKit.Protocol.Link
import PrismKit.Protocol.Receive
import PrismKit.Protocol.Delivery
import PrismKit.Protocol.Transmit
import PrismKit.Protocol.Retry
import PrismKit.Commands.Agreement
import PrismKit.Controller.Shift
import PrismKit.Timeline.Twin
import PrismKit.Timeline.Lockstep
import PrismKit.Timeline.Rerun
import PrismKit.Timeline.WrapInvariance
import PrismKit.Timeline.Replay
import PrismKit.Timeline.Termination
import PrismKit.Timeline.ResumeOrder
import PrismKit.Protocol.Corruption
import PrismKit.Protocol.Resynchronisation
import PrismKit.Protocol.Bounds
import PrismKit.Protocol.Loopback
import PrismKit.Protocol.Timeout
import PrismKit.Controller.Playback
import PrismKit.Library.Rounding
import PrismKit.Controller.FadeCurve
import PrismKit.Controller.GradientPath
import PrismKit.Controller.Staging
import PrismKit.Timeline.Commit
import PrismKit.Controller.Transition
import PrismKit.Timeline.Underway
import PrismKit.Timeline.Chaining
import PrismKit.Controller.OklabChecked
import PrismKit.Controller.OklabRange
import PrismKit.Controller.OklabPath
import PrismKit.Controller.Hsv
import PrismKit.Preflight.Partition
import PrismKit.Preflight.PoolAccess
import PrismKit.Controller.ExactExecution
import PrismKit.Timeline.Exactness
import PrismKit.Controller.Updates
import PrismKit.Timeline.Cadence
import PrismKit.Controller.OklabError
import PrismKit.Controller.OklabRoundTrip
import PrismKit.Library.Mailbox
import PrismKit.Library.RingBuffer
import PrismKit.Library.Overwrite
import PrismKit.Controller.Painting
import PrismKit.Timeline.Painting
import PrismKit.Timeline.Picture
import PrismKit.Firmware.StripManager
import PrismKit.Firmware.Tasks
import PrismKit.Firmware.Calls
import PrismKit.Firmware.Moves
import PrismKit.Firmware.Interleaving
import PrismKit.Firmware.Traces
import PrismKit.Firmware.Arrivals
import PrismKit.Firmware.Schedule
import PrismKit.Firmware.System
import PrismKit.Firmware.Progress
import PrismKit.Firmware.Download
import PrismKit.Firmware.Pictures
import PrismKit.Firmware.Boot
import PrismKit.Firmware.Display
