import IkunSvr.Lib.Run
import IkunSvr.Lib.Framing
import IkunSvr.Lib.Codec
import IkunSvr.Lib.Varint
import IkunSvr.Lib.Records
import IkunSvr.Lib.Table
import IkunSvr.Lib.Least
import IkunSvr.Lib.Waits
import IkunSvr.Lib.Locks
import IkunSvr.Lib.WaitQueue
import IkunSvr.Lib.WaitQueueStop
import IkunSvr.Lib.WaitQueueLive
import IkunSvr.Net.Buffer
import IkunSvr.Net.PickLoop
import IkunSvr.Net.Accepts
import IkunSvr.Net.Channel
import IkunSvr.Net.Dispatch
import IkunSvr.Net.Connect
import IkunSvr.Net.Handling
import IkunSvr.Receive.Copies
import IkunSvr.Receive.Reassembly
import IkunSvr.Receive.Hang
import IkunSvr.Receive.Closing
import IkunSvr.Output.Conservation
import IkunSvr.Output.Paths
import IkunSvr.Output.Arming
import IkunSvr.Output.Edges
import IkunSvr.Proto.Wire
import IkunSvr.Proto.Messages
import IkunSvr.Proto.Echo
import IkunSvr.Proto.Client
import IkunSvr.Loop.Timer
import IkunSvr.Loop.Batch
import IkunSvr.Loop.Sweep
import IkunSvr.Loop.Sweeps
import IkunSvr.Loop.Wakeup
import IkunSvr.Loop.Posts
import IkunSvr.Loop.Serving
import IkunSvr.Race.Disconnect
import IkunSvr.Race.Setup
import IkunSvr.Pool.Threadpool
import IkunSvr.Pool.Serving
import IkunSvr.Pool.Replies
import IkunSvr.Pool.Answers
import IkunSvr.Pool.Lockstep
import IkunSvr.Actor.Session
import IkunSvr.Actor.Create
import IkunSvr.Actor.Mgr
import IkunSvr.Actor.Delivery
import IkunSvr.Actor.Registry
import IkunSvr.Actor.Balance
import IkunSvr.Server.Model
import IkunSvr.Server.Ownership
import IkunSvr.Server.Lifetime
import IkunSvr.Server.Keys
import IkunSvr.Server.Tables
import IkunSvr.Server.Terminal
import IkunSvr.Server.Accept
import IkunSvr.Server.Backlog
import IkunSvr.Server.Confined
import IkunSvr.Server.Mutexes
import IkunSvr.Server.Shutdown
