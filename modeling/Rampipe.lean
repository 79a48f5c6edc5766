import Rampipe.Lib.Search
import Rampipe.Lib.Loop
import Rampipe.Lib.Cells
import Rampipe.Lib.Table
import Rampipe.Lib.Chain
import Rampipe.Lib.Codec
import Rampipe.Lib.Machine
import Rampipe.Model.Text
import Rampipe.Model.Json
import Rampipe.Model.Protocol
import Rampipe.Model.ToolFormat
import Rampipe.Model.ToolCalls
import Rampipe.Model.Llama
import Rampipe.Model.Generation
import Rampipe.Model.Conversation
import Rampipe.Model.Session
import Rampipe.Model.Registry
import Rampipe.Model.Daemon
import Rampipe.Model.Connection
import Rampipe.Model.Scripted
import Rampipe.Model.Wire
import Rampipe.Model.OneShot
import Rampipe.Model.Settings
import Rampipe.Model.Remote
import Rampipe.Model.Contexts
import Rampipe.Spec.Dialogue
import Rampipe.Spec.Transcript
import Rampipe.Results.Spans
import Rampipe.Results.Room
import Rampipe.Results.Opening
import Rampipe.Results.Hibernation
import Rampipe.Results.Refinement
import Rampipe.Results.Failure
import Rampipe.Results.Reply
import Rampipe.Results.Probes
import Rampipe.Results.Calls
import Rampipe.Results.Delimited
import Rampipe.Results.Separated
import Rampipe.Results.Scanning
import Rampipe.Results.JsonCalls
import Rampipe.Results.Truncation
import Rampipe.Results.TurnEnd
import Rampipe.Results.TurnProse
import Rampipe.Results.TurnCut
import Rampipe.Results.Derived
import Rampipe.Results.Registry
import Rampipe.Results.Residency
import Rampipe.Results.Eviction
import Rampipe.Results.Statistics
import Rampipe.Results.Exchange
import Rampipe.Results.PositionShift
import Rampipe.Results.TurnCount
import Rampipe.Results.Recomposition
import Rampipe.Results.ToolSurface
import Rampipe.Results.Composition
import Rampipe.Results.ParserLoops
import Rampipe.Results.SearchedSpans
import Rampipe.Results.RoomSums
import Rampipe.Results.Recording
import Rampipe.Results.GenerationLoop
import Rampipe.Results.Rebuilding
import Rampipe.Results.Recency
import Rampipe.Results.MakingRoom
import Rampipe.Results.MergedSentinels
import Rampipe.Results.Replaying
import Rampipe.Results.Wire
import Rampipe.Results.OneShot
import Rampipe.Results.Stopping
import Rampipe.Results.Progress
import Rampipe.Results.Ledger
import Rampipe.Results.Settings
import Rampipe.Results.Remote
import Rampipe.Results.OneShotWire
import Rampipe.Results.Twins
import Rampipe.Results.PuttingAway
