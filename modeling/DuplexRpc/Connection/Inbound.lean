import DuplexRpc.Connection.State

namespace DuplexRpc.Connection

-- A request becomes a task of its own. A task in flight under the same id is cancelled
-- and no longer the one in flight.
def takeRequest (c : Connection) (r : Request) : Connection :=
  let c := match c.inFlight.lookup r.id with
    | some earlier => c.cancelTask earlier
    | none => c
  { c with tasks := c.tasks ++ [{ request := r }], inFlight := Table.put r.id c.tasks.length c.inFlight }

def cancelledId? (n : Notification) : Option RequestId :=
  (n.param? "id").bind (·.requestId?)

def badCancel (n : Notification) : Issue :=
  .make .invalidParams
    ("Cancel notification without a valid request id: " ++ ((n.params.map Payload.toJson).getD .null).text)

-- A cancel notification for an id that is not in flight does nothing.
def takeCancel (c : Connection) (n : Notification) : Connection :=
  match cancelledId? n with
  | none => c.report (badCancel n)
  | some id =>
    match c.inFlight.lookup id with
    | some task => c.cancelTask task
    | none => c

def withoutId (reply : Reply) : Issue :=
  .make .invalidRequest (match reply with
    | .result _ => "Received response without id"
    | .error e => "Received error response without id: " ++ e.display)

def takeResponse (c : Connection) (r : Response) : Connection :=
  match r.id with
  | none => c.report (withoutId r.reply)
  | some id =>
    match c.correlator.resolve id r.reply with
    | (none, correlator) => { c with correlator := correlator }
    | (some issue, correlator) => { c with correlator := correlator }.report issue

def rejection (id : RequestId) (issue : Issue) : Response :=
  ⟨some id, .error ⟨issue.kind.code, issue.text, issue.cause?.map fun cause => .string cause.display⟩⟩

-- A frame that did not decode is reported. What claims to be a request is answered, and
-- what claims to be a response fails the request it names.
def takeFault (c : Connection) (body : List UInt8) (issue : Issue) : Connection :=
  let c := c.report issue
  match issue.id, Envelope.kindOf? body with
  | some id, some .request => c.handOver (rejection id issue)
  | some id, some .response => { c with correlator := (c.correlator.fail id (.invalidResponse issue)).2 }
  | _, _ => c

-- One frame's body. A notification for a handler is held until it enters the queue.
def takeBody (c : Connection) (body : List UInt8) : Connection :=
  match c.contract.decode c.correlator.pendingMethod body with
  | .error issue => c.takeFault body issue
  | .ok (.request r) => c.takeRequest r
  | .ok (.notification n) => if c.served.isCancelMethod n.method then c.takeCancel n else { c with held := some n }
  | .ok (.response r) => c.takeResponse r

def faultBudget (c : Connection) : Nat := max c.config.maxConsecutiveFramingErrors.toNat 1

-- One item of the stream. Framing faults in a row close the connection when their budget
-- is used up; any frame, whatever its body, ends the row.
def takeItem (c : Connection) (item : Framing.Item) : Connection :=
  let c := c.record (.took item)
  match item with
  | .fault fault =>
    let c := { c with faultsInRow := c.faultsInRow + 1 }.report (.make .parseError fault.message)
    if c.faultBudget ≤ c.faultsInRow then c.close else c
  | .body body => { c with faultsInRow := 0 }.takeBody body

-- The read loop goes on to the next item.
def readNext (c : Connection) : Option Connection :=
  if c.phase = .listening ∧ c.held = none then
    match c.decoder.next with
    | (some item, decoder) => some ({ c with decoder := decoder }.takeItem item)
    | (none, _) => none
  else none

-- The read loop reads more only when nothing complete is left.
def receive (c : Connection) (chunk : List UInt8) : Option Connection :=
  if c.phase = .listening ∧ c.held = none then
    match c.decoder.next with
    | (some _, _) => none
    | (none, decoder) => some { c with decoder := decoder.push chunk }
  else none

-- The end of the stream, or a failure to read, closes the connection.
def readEnd (c : Connection) : Option Connection :=
  if c.phase = .listening ∧ c.held = none then
    match c.decoder.next with
    | (some _, _) => none
    | (none, decoder) => some { c with decoder := decoder }.close
  else none

-- The held notification enters the queue.
def queueHeld (c : Connection) : Option Connection :=
  match c.held with
  | some n =>
    if c.phase = .listening ∧ c.notes.length < c.noteCapacity then
      some { c with held := none, notes := c.notes ++ [n] }
    else none
  | none => none

-- The worker goes on to the next notification.
def takeNote (c : Connection) : Option Connection :=
  match c.notes with
  | n :: rest =>
    if c.phase = .listening ∧ c.running = none then
      some ({ c with notes := rest, running := some n }.record (.dispatched n))
    else none
  | [] => none

-- The notification's handler has ended, well or badly; a running one goes on after close.
def endNote (c : Connection) : Option Connection :=
  match c.running with
  | some _ => some ({ c with running := none }.record .noteEnded)
  | none => none

-- A task in flight under its id is taken out before its response is handed over, so a
-- cancellation that comes later finds nothing.
def finishTask (c : Connection) (task : Nat) (r : Response) : Connection :=
  let c := c.setTask task fun t => { t with response := some r }
  let c := match c.tasks[task]? with
    | some t =>
      if c.inFlight.lookup t.request.id = some task then
        { c with inFlight := Table.erase t.request.id c.inFlight }
      else c
    | none => c
  c.handOver r

-- A poll of a task; `handler` is what its handler yields if it is run.
def pollTask (c : Connection) (task : Nat) (handler : Option Outcome) : Option Connection :=
  match c.tasks[task]? with
  | none => none
  | some t =>
    if t.response.isSome then none
    else
      let runs := c.dispatcher.runsHandler t.request t.cancelled
      let c := if runs && !t.invoked then
          (c.setTask task fun t => { t with invoked := true }).record (.invoked task)
        else c
      match c.dispatcher.poll t.request t.cancelled handler with
      | some r => some (c.finishTask task r)
      | none => some c

-- A handler may give its own cancellation signal.
def signalOwn (c : Connection) (task : Nat) : Option Connection :=
  match c.tasks[task]? with
  | some t => if t.invoked ∧ t.response = none then some (c.cancelTask task) else none
  | none => none

end DuplexRpc.Connection
