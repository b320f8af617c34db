import DuplexRpc.Connection.Inbound
import DuplexRpc.Connection.Outgoing

namespace DuplexRpc.Connection

-- Everything that can happen to a connection: calls of its owner, octets of the peer,
-- and one move each of the loops, tasks and waiting senders. One action is a stretch of code
-- between two awaits and happens as a whole: calls of `start` and `close` and the handling of a
-- frame that overlap on several threads are not spoken of.
inductive Action where
  | start
  | close
  | receive (chunk : List UInt8)
  | readNext
  | readEnd
  | queueHeld
  | takeNote
  | endNote
  | pollTask (task : Nat) (handler : Option Outcome)
  | signalOwn (task : Nat)
  | write
  | failWrite
  | stopWriter
  | turn (ticket : Nat)
  | abandon (ticket : Nat)
  | request (method : String) (params : Option Payload)
  | notify (method : String) (params : Option Payload)
  | cancel (id : RequestId)
  | pollCall (call : Nat)
  | forgetCall (call : Nat)

-- The state after an action, if the action is possible.
def step (c : Connection) : Action → Option Connection
  | .start => match c.start with
    | .ok c => some c
    | .error _ => none
  | .close => some c.close
  | .receive chunk => c.receive chunk
  | .readNext => c.readNext
  | .readEnd => c.readEnd
  | .queueHeld => c.queueHeld
  | .takeNote => c.takeNote
  | .endNote => c.endNote
  | .pollTask task handler => c.pollTask task handler
  | .signalOwn task => c.signalOwn task
  | .write => c.write
  | .failWrite => c.failWrite
  | .stopWriter => c.stopWriter
  | .turn ticket => some (c.turn ticket)
  | .abandon ticket => some (c.abandon ticket)
  | .request method params => some (c.request method params).2
  | .notify method params => some (c.notify method params).2
  | .cancel id => some (c.cancel id).2
  | .pollCall call => some (c.pollCall call).2
  | .forgetCall call => some (c.forgetCall call)

-- Runs in any order of possible actions. No schedule is assumed.
inductive Runs : Connection → List Action → Connection → Prop where
  | nil {c} : Runs c [] c
  | snoc {origin before after actions action} :
      Runs origin actions before → before.step action = some after → Runs origin (actions ++ [action]) after

inductive Reachable : Connection → Prop where
  | intro {config served called handlers actions c} :
      Runs (initial config served called handlers) actions c → Reachable c

end DuplexRpc.Connection
