import Bres.Transition.Outcome
import Bres.Transition.Run
import Bres.Transition.Custody
import Bres.Transition.Framing
import Bres.Transition.Feed
import Bres.Transition.Backlog
import Bres.Transition.Merge
import Bres.Transition.Register
import Bres.Transition.Table
import Bres.Transition.Gate
import Bres.Transition.Worker
import Bres.Memory.Region
import Bres.Memory.Rows
import Bres.Signal.Saturate
import Bres.Signal.Interpolate
import Bres.Geometry.Triangle
import Bres.Text.Substitute
import Bres.Text.Lexer
import Bres.Basic.Number
import Bres.Basic.Rounding
import Bres.Basic.Json
import Bres.Basic.Denotes
import Bres.Basic.Instance
import Bres.Event.Queue
import Bres.Signaling.Websockets
import Bres.Signaling.Webrtc
import Bres.Pool.Channel
import Bres.Pool.StaticImage
import Bres.Pool.Effect
import Bres.Pool.Command
import Bres.Pool.SlotChange
import Bres.Exchange.Step
import Bres.Exchange.Custody
import Bres.Exchange.Fifo
import Bres.Pool.Threads
import Bres.Pool.World
import Bres.Pool.Buffers
import Bres.Pool.Texture
import Bres.Pool.Delivery
import Bres.Pool.Add
import Bres.Pool.Delete
import Bres.Pool.Property
import Bres.Pool.Look
import Bres.Pool.ImageBytes
import Bres.Pool.Exit
import Bres.Pool.Names
import Bres.Pool.Registry
import Bres.Pool.Control
import Bres.Pool.Stages
import Bres.Signaling.Dispatch
import Bres.Signaling.Limits
import Bres.Signaling.Receive
import Bres.Signaling.IceServers
import Bres.Signaling.Negotiation
import Bres.Signaling.Connect
import Bres.Signaling.Connection
import Bres.Signaling.Conversation
import Bres.Signaling.Protocol
import Bres.Sdi.Output
import Bres.Sdi.Playout
import Bres.Sdi.Stock
import Bres.Sdi.Fifo
import Bres.Sdi.Clock
import Bres.Sdi.Pipeline
import Bres.Sdi.Device
import Bres.Sdi.Chain
import Bres.Telnet.Recv
import Bres.Telnet.Safety
import Bres.Telnet.Chunks
import Bres.Telnet.Clients
import Bres.Audio.OnData
import Bres.Audio.Upsample
import Bres.Audio.Callback
import Bres.Audio.Mix
import Bres.Audio.Output
import Bres.Audio.Backlog
import Bres.Audio.Round
import Bres.Audio.Stream
import Bres.Video.Draw
import Bres.Video.Flip
import Bres.Video.Frame
import Bres.Video.Gl
import Bres.Video.Mixer
import Bres.System.MainLoop
import Bres.System.Simulation
import Bres.System.Refinement
import Bres.System.Joins
