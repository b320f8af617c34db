import DuplexRpc.Proofs.Connection.Moves
import DuplexRpc.Proofs.Contract

namespace DuplexRpc.Connection
open Correlator (Linked)
variable {c after : Connection} {action : Action} {body : List UInt8} {members : Envelope.Members} {id : RequestId}

theorem step_linked (linked : Linked c.correlator) (moved : c.step action = some after) : Linked after.correlator := by
  rw [step_correlator moved]
  exact Correlator.moveAll_linked linked _

theorem runs_linked {origin : Connection} {actions : List Action} (linked : Linked origin.correlator)
    (runs : Runs origin actions c) : Linked c.correlator := by
  induction runs with
  | nil => exact linked
  | snoc _ moved ih => exact step_linked ih moved

-- How a frame without a method answers the call it names.
inductive Answers (c : Connection) (body : List UInt8) (members : Envelope.Members) (id : RequestId) :
    CallOutcome → Prop where
  | reply {reply} : c.contract.decode c.correlator.pendingMethod body = .ok (.response ⟨some id, reply⟩) →
      c.contract.ReadAs c.correlator.pendingMethod members reply → Answers c body members id (.ofReply reply)
  | issue {issue} : c.contract.decode c.correlator.pendingMethod body = .error issue → issue.id = some id →
      Answers c body members id (.error (.invalidResponse issue))

end DuplexRpc.Connection
