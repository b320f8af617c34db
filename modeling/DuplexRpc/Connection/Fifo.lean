import DuplexRpc.Connection.Step
import DuplexRpc.Handler.Script

namespace DuplexRpc

-- What can be made ready to run: the loops, a task, and the sender of a waiting message.
inductive Fifo.Job where
  | reader
  | writer
  | worker
  | task (task : Nat)
  | sender (ticket : Nat)
  deriving DecidableEq, Repr

-- A connection with scripted handlers under one schedule: jobs run one after another in
-- the order in which they became ready, each until it can go no further.
structure Fifo where
  connection : Connection
  scripts : Scripts
  gate : Gate Fifo.Job := {}
  -- Plans of the handlers that were run and have not ended.
  plans : List (Nat × Plan Outcome) := []
  notePlan : Option (String × Plan (Option Note)) := none
  notes : List (String × Note) := []
  ready : List Fifo.Job := []
  -- Octets of the peer that the read loop has not asked for yet.
  arrived : List UInt8 := []
  inputEnded : Bool := false
  outputBroken : Bool := false

namespace Fifo

def initial (config : Config) (served called : Registry) (scripts : Scripts) : Fifo where
  connection := .initial config served called scripts.kinds
  scripts := scripts

def enqueue (jobs : List Job) (job : Job) : List Job :=
  if job ∈ jobs then jobs else jobs ++ [job]

def wake (f : Fifo) (jobs : List Job) : Fifo :=
  { f with ready := jobs.foldl enqueue f.ready }

-- Tasks whose signal was given, then tasks that are new.
def wokenTasks (before after : List Connection.Task) : List Job :=
  let signalled := (before.zip after).zipIdx.filterMap fun ((s, t), task) =>
    if !s.cancelled && t.cancelled && t.response.isNone then some (Job.task task) else none
  signalled ++ (List.range' before.length (after.length - before.length)).map .task

-- Senders that have just come, or have just been given room.
def wokenSenders (before after : Connection) : List Job :=
  (after.correlator.outbound.waiting.filter fun w =>
    w.standing ≠ .inLine && (before.correlator.outbound.waiter? w.ticket).map (·.standing) ≠ some w.standing).map
    fun w => .sender w.ticket

-- The jobs that a change of the connection makes ready. Closing wakes the loops before
-- the tasks it cancels.
def woken (before after : Connection) : List Job :=
  let closed := before.phase ≠ .closed && after.phase = .closed
  let queued := before.correlator.outbound.accepted.length < after.correlator.outbound.accepted.length
  let noted := before.notes.length < after.notes.length
  let freed := after.notes.length < before.notes.length && after.held.isSome
  (if closed || freed then [Job.reader] else []) ++
    (if closed || noted then [Job.worker] else []) ++
    (if closed || queued then [Job.writer] else []) ++
    wokenSenders before after ++ wokenTasks before.tasks after.tasks

def move (f : Fifo) (after : Connection) : Fifo :=
  { f with connection := after }.wake (woken f.connection after)

-- Whoever was given a permit is ready to go on.
def setGate (f : Fifo) (gate : Gate Job) : Fifo :=
  { f with gate := gate }.wake (gate.granted.filter (· ∉ f.gate.granted))

-- One move of a job, and whether it may go on.
abbrev Turn := Fifo × Bool

def moved (f : Fifo) (after : Option Connection) : Turn :=
  match after with
  | some c => (f.move c, true)
  | none => (f, false)

def runReader (f : Fifo) : Turn :=
  let c := f.connection
  if c.held.isSome then f.moved c.queueHeld
  else
    match c.readNext with
    | some after => (f.move after, true)
    | none =>
      if f.arrived ≠ [] then
        match c.receive f.arrived with
        | some after => ({ f with arrived := [] }.move after, true)
        | none => (f, false)
      else if f.inputEnded then ((f.moved c.readEnd).1, false)
      else (f, false)

def runWriter (f : Fifo) : Turn :=
  match if f.outputBroken then f.connection.failWrite else f.connection.write with
  | some after => (f.move after, true)
  | none => ((f.moved f.connection.stopWriter).1, false)

def pollNote (f : Fifo) (method : String) (plan : Plan (Option Note)) : Turn :=
  match plan.poll f.gate .worker false with
  | (some note, gate) =>
    { f.setGate gate with notePlan := none, notes := f.notes ++ note.toList.map fun k => (method, k) }.moved
      f.connection.endNote
  | (none, gate) => (f.setGate gate, false)

def runWorker (f : Fifo) : Turn :=
  match f.notePlan with
  | some (method, plan) => f.pollNote method plan
  | none =>
    match f.connection.takeNote with
    | none => (f, false)
    | some after =>
      let plan := after.running.map fun n => (n.method, f.scripts.notePlan n)
      ({ f with notePlan := plan }.move after, true)

-- A task whose handler is not run any more leaves the gate.
def runTask (f : Fifo) (task : Nat) : Turn :=
  match (f.connection.tasks[task]?).filter (·.response.isNone) with
  | none => (f, false)
  | some t =>
    let plan :=
      if f.connection.dispatcher.runsHandler t.request t.cancelled then
        f.plans.lookup task <|> f.scripts.requestPlan? t.request t.cancelled
      else none
    let (outcome, gate) := match plan with
      | some plan => plan.poll f.gate (.task task) t.cancelled
      | none => (none, f.gate.leave (.task task))
    let plans := match plan, outcome with
      | some plan, none => Table.put task plan f.plans
      | _, _ => Table.erase task f.plans
    let f := { f.setGate gate with plans := plans }
    ((f.moved (f.connection.pollTask task outcome)).1, false)

def runJob (f : Fifo) : Job → Turn
  | .reader => f.runReader
  | .writer => f.runWriter
  | .worker => f.runWorker
  | .task task => f.runTask task
  | .sender ticket => (f.move (f.connection.turn ticket), false)

-- Runs what is ready, for at most `moves` moves. A job stays in front while it goes on.
def settleWithin : Nat → Fifo → Fifo
  | 0, f => f
  | moves + 1, f =>
    match f.ready with
    | [] => f
    | job :: _ =>
      match f.runJob job with
      | (f, true) => settleWithin moves f
      | (f, false) => settleWithin moves { f with ready := f.ready.drop 1 }

-- No octet, message or waiting party causes more than a few moves, so that these are enough.
def moveBound (f : Fifo) : Nat :=
  let c := f.connection
  64 * (1 + f.arrived.length + c.decoder.buffer.length + c.tasks.length + c.notes.length + f.ready.length +
    f.gate.line.length + c.correlator.outbound.queued.length + c.correlator.outbound.waiting.length)

-- Runs until nothing is ready.
def settle (f : Fifo) : Fifo :=
  settleWithin f.moveBound f

def start (f : Fifo) : Except Connection.StartError Fifo :=
  f.connection.start.map fun c => { f with connection := c }.wake [.writer, .worker, .reader]

def close (f : Fifo) : Fifo :=
  f.move f.connection.close

-- Whether octets of the peer are still taken.
def isOpen (f : Fifo) : Bool :=
  f.connection.phase ≠ .closed && !f.inputEnded

def feed (f : Fifo) (octets : List UInt8) : Fifo :=
  { f with arrived := f.arrived ++ octets }.wake [.reader]

def endInput (f : Fifo) : Fifo :=
  { f with inputEnded := true }.wake [.reader]

def breakOutput (f : Fifo) : Fifo :=
  { f with outputBroken := true }

def release (f : Fifo) (n : Nat) : Fifo :=
  f.setGate (f.gate.release n)

-- A call that would have to wait for room is given up.
def request (f : Fifo) (method : String) (params : Option Payload) : Connection.Requesting × Fifo :=
  match f.connection.request method params with
  | (.waiting call ticket, c) => (.waiting call ticket, f.move (c.abandon ticket))
  | (answer, c) => (answer, f.move c)

-- A call whose caller waits for room as long as it takes.
def requestPatiently (f : Fifo) (method : String) (params : Option Payload) : Connection.Requesting × Fifo :=
  let (answer, c) := f.connection.request method params
  (answer, f.move c)

def notify (f : Fifo) (method : String) (params : Option Payload) : Connection.Notifying × Fifo :=
  match f.connection.notify method params with
  | (.waiting ticket, c) => (.waiting ticket, f.move (c.abandon ticket))
  | (answer, c) => (answer, f.move c)

def cancel (f : Fifo) (id : RequestId) : Correlator.Cancelling × Fifo :=
  match f.connection.cancel id with
  | (.waiting ticket, c) => (.waiting ticket, f.move (c.abandon ticket))
  | (answer, c) => (answer, f.move c)

def pollCall (f : Fifo) (call : Nat) : Correlator.Look × Fifo :=
  let (look, c) := f.connection.pollCall call
  (look, { f with connection := c })

-- The outcome of a call whose result is wanted as a type. While its sender waits, the
-- call has none, even if it was completed meanwhile.
def pollTyped (f : Fifo) (call : Nat) (type : TypeName) : Correlator.Look × Fifo :=
  match (f.connection.correlator.calls[call]?).map Call.stage with
  | some (.waiting _) => (.pending, f)
  | some .refused => (.done (.error .connectionClosed), { f with connection := f.connection.forgetCall call })
  | _ =>
    match f.pollCall call with
    | (.done (.result value), f) =>
      match type.retype value with
      | .ok value => (.done (.result value), f)
      | .error misfit => (.done (.error (.serialization misfit)), f)
    | other => other

end Fifo
end DuplexRpc
