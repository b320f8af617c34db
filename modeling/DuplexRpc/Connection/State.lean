import DuplexRpc.Config
import DuplexRpc.Correlator
import DuplexRpc.Dispatcher
import DuplexRpc.Framing.Decoder
import DuplexRpc.Framing.Header
import DuplexRpc.Contract

namespace DuplexRpc

-- The phase of a connection only moves forward.
inductive Connection.Phase where
  | created | listening | closed
  deriving DecidableEq, Repr

def Connection.Phase.name : Connection.Phase → String
  | .created => "created"
  | .listening => "listening"
  | .closed => "closed"

-- A request of the peer, from its arrival on. Its position among all tasks tells it and
-- its cancellation signal apart from those of any other, even under the same id.
structure Connection.Task where
  request : Request
  cancelled : Bool := false
  invoked : Bool := false
  response : Option Response := none
  deriving DecidableEq

-- What has happened, for statements about whole runs; nothing is decided by it.
inductive Connection.Event where
  | took (item : Framing.Item)
  | reported (issue : Issue)
  | handed (response : Response)
  | invoked (task : Nat)
  | dispatched (notification : Notification)
  | noteEnded
  | wrote (message : Message) (octets : List UInt8)
  deriving DecidableEq

structure Connection where
  config : Config
  served : Registry
  called : Registry
  handlers : List (String × MethodKind)
  phase : Connection.Phase := .created
  -- How often the loops that read, write and work off notifications were started.
  starts : Nat := 0
  decoder : Framing.Decoder
  faultsInRow : Nat := 0
  -- A notification that found the queue full; nothing is read meanwhile.
  held : Option Notification := none
  notes : List Notification := []
  -- The notification whose handler runs.
  running : Option Notification := none
  correlator : Correlator
  tasks : List Connection.Task := []
  -- The latest unfinished task under each id.
  inFlight : List (RequestId × Nat) := []
  log : List Connection.Event := []

namespace Connection

-- Queues hold at least one message.
def initial (config : Config) (served called : Registry) (handlers : List (String × MethodKind)) : Connection where
  config := config
  served := served
  called := called
  handlers := handlers
  decoder := { limits := .of config.maxContentLength.toNat config.maxHeaderBytes.toNat }
  correlator := .initial called.cancellation (max config.outboundQueueCapacity.toNat 1)

def noteCapacity (c : Connection) : Nat := max c.config.notificationQueueCapacity.toNat 1

def dispatcher (c : Connection) : Dispatcher := ⟨c.handlers, c.served.cancellation⟩

def contract (c : Connection) : Contract := ⟨c.served, c.called, c.config.validateMessages⟩

def pendingRequests (c : Connection) : Nat := c.correlator.pendingCount

def describe (c : Connection) : String :=
  let phase := match c.phase with
    | .created => "Created"
    | .listening => "Listening"
    | .closed => "Closed"
  "Connection \x7b name: " ++ Quoted.quote c.config.name ++ ", state: " ++ phase ++ " \x7d"

def record (c : Connection) (e : Event) : Connection :=
  { c with log := c.log ++ [e] }

def report (c : Connection) (issue : Issue) : Connection :=
  c.record (.reported issue)

-- Hands a response over for writing: it is queued, or waits for room. Once nothing is
-- written any more it is dropped.
def handOver (c : Connection) (r : Response) : Connection :=
  match c.correlator.offer (.response r) .arriving with
  | (.refused, _) => c
  | (_, correlator) => { c with correlator := correlator }.record (.handed r)

def setTask (c : Connection) (task : Nat) (change : Task → Task) : Connection :=
  { c with tasks := c.tasks.modify task change }

def cancelTask (c : Connection) (task : Nat) : Connection :=
  c.setTask task fun t => { t with cancelled := true }

inductive StartError where
  | alreadyListening
  | closed
  deriving DecidableEq, Repr

def StartError.message : StartError → String
  | .alreadyListening => "Connection is already listening"
  | .closed => "Connection is closed"

def start (c : Connection) : Except StartError Connection :=
  match c.phase with
  | .created => .ok { c with phase := .listening, starts := c.starts + 1 }
  | .listening => .error .alreadyListening
  | .closed => .error .closed

-- Ends pending requests and cancels the tasks in flight. Where nothing was ever read or
-- written the outbound queue goes away at once, otherwise when the writer stops.
def close (c : Connection) : Connection :=
  if c.phase = .closed then c
  else
    let correlator := c.correlator.failAll.2
    let correlator := if c.phase = .created then correlator.disconnect else correlator
    let cancelled := c.inFlight.foldl (fun c entry => c.cancelTask entry.2) c
    { cancelled with phase := .closed, correlator := correlator, inFlight := [] }

end Connection
end DuplexRpc
