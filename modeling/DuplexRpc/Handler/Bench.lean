import DuplexRpc.Handler.Script

namespace DuplexRpc

-- A message in the dispatcher's hands, with a cancellation signal of its own. The plan
-- is made at the first poll that runs the handler.
inductive Bench.Work where
  | request (request : Request) (plan : Option (Plan Outcome))
  | notification (notification : Notification) (plan : Option (Plan (Option Note)))
  | response
  | finished

structure Bench.Slot where
  work : Bench.Work
  cancelled : Bool := false

-- A dispatcher with scripted handlers and messages to poll by hand, one slot each.
structure Bench where
  scripts : Scripts
  cancellation : Option CancelSettings
  gate : Gate Nat := {}
  slots : List Bench.Slot := []
  notes : List (String × Note) := []

namespace Bench

inductive Look where
  | pending
  | answer (response : Response)
  | nothing
  | taken

def dispatcher (b : Bench) : Dispatcher := b.scripts.dispatcher b.cancellation

def start (b : Bench) (m : Message) (cancelled : Bool) : Bench :=
  let work := match m with
    | .request r => Work.request r none
    | .notification n => .notification n none
    | .response _ => .response
  { b with slots := b.slots ++ [⟨work, cancelled⟩] }

def setWork (b : Bench) (slot : Nat) (work : Work) : Bench :=
  { b with slots := b.slots.modify slot fun s => { s with work := work } }

def cancel (b : Bench) (slot : Nat) : Bench :=
  { b with slots := b.slots.modify slot fun s => { s with cancelled := true } }

def release (b : Bench) (n : Nat) : Bench :=
  { b with gate := b.gate.release n }

-- A handler that is not run any more leaves the gate.
def pollRequest (b : Bench) (slot : Nat) (r : Request) (plan : Option (Plan Outcome)) (cancelled : Bool) :
    Look × Bench :=
  let plan := if b.dispatcher.runsHandler r cancelled then plan <|> b.scripts.requestPlan? r cancelled else none
  let (outcome, gate) := match plan with
    | some plan => plan.poll b.gate slot cancelled
    | none => (none, b.gate.leave slot)
  let b := { b with gate := gate }
  match b.dispatcher.poll r cancelled outcome with
  | some response => (.answer response, b.setWork slot .finished)
  | none => (.pending, b.setWork slot (.request r plan))

def pollNotification (b : Bench) (slot : Nat) (n : Notification) (plan : Option (Plan (Option Note)))
    (cancelled : Bool) : Look × Bench :=
  let plan := plan.getD (b.scripts.notePlan n)
  match plan.poll b.gate slot cancelled with
  | (some note, gate) =>
    (.nothing, { b with gate := gate, notes := b.notes ++ note.toList.map fun k => (n.method, k) }.setWork slot .finished)
  | (none, gate) => (.pending, { b with gate := gate }.setWork slot (.notification n (some plan)))

def poll (b : Bench) (slot : Nat) : Look × Bench :=
  match b.slots[slot]? with
  | none => (.taken, b)
  | some s =>
    match s.work with
    | .finished => (.taken, b)
    | .response => (.nothing, b.setWork slot .finished)
    | .request r plan => b.pollRequest slot r plan s.cancelled
    | .notification n plan => b.pollNotification slot n plan s.cancelled

end Bench
end DuplexRpc
