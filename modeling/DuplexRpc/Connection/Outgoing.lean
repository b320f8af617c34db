import DuplexRpc.Connection.State

namespace DuplexRpc

-- A method can be called only if it is declared, and only as what it is declared.
def Registry.refusal? (r : Registry) (method : String) (kind : MethodKind) : Option CallError :=
  match r.lookup method with
  | none => some (.unknownMethod method)
  | some spec => if spec.kind = kind then none else some (.wrongKind method spec.kind)

namespace Connection

inductive Requesting where
  | refused (error : CallError)
  | accepted (call : Nat) (id : RequestId)
  | waiting (call ticket : Nat)
  deriving DecidableEq

-- A request to the peer. A refused call leaves no trace but a used-up id where the
-- connection is closed.
def request (c : Connection) (method : String) (params : Option Payload) : Requesting × Connection :=
  match c.called.refusal? method .request with
  | some error => (.refused error, c)
  | none =>
    match c.correlator.send method params with
    | (.closed, correlator) => (.refused .connectionClosed, { c with correlator := correlator })
    | (.accepted call id, correlator) => (.accepted call id, { c with correlator := correlator })
    | (.waiting call ticket, correlator) => (.waiting call ticket, { c with correlator := correlator })

inductive Notifying where
  | refused (error : CallError)
  | accepted
  | waiting (ticket : Nat)
  deriving DecidableEq

-- A notification to the peer.
def notify (c : Connection) (method : String) (params : Option Payload) : Notifying × Connection :=
  match c.called.refusal? method .notification with
  | some error => (.refused error, c)
  | none =>
    if c.correlator.closed then (.refused .connectionClosed, c)
    else
      match c.correlator.offer (.notification ⟨method, params⟩) .inLine with
      | (.refused, _) => (.refused .connectionClosed, c)
      | (.accepted, correlator) => (.accepted, { c with correlator := correlator })
      | (.waiting ticket, correlator) => (.waiting ticket, { c with correlator := correlator })

def cancel (c : Connection) (id : RequestId) : Correlator.Cancelling × Connection :=
  let (answer, correlator) := c.correlator.cancel id
  (answer, { c with correlator := correlator })

def turn (c : Connection) (ticket : Nat) : Connection :=
  { c with correlator := c.correlator.turn ticket }

def abandon (c : Connection) (ticket : Nat) : Connection :=
  { c with correlator := c.correlator.abandon ticket }

def pollCall (c : Connection) (call : Nat) : Correlator.Look × Connection :=
  let (look, correlator) := c.correlator.poll call
  (look, { c with correlator := correlator })

def forgetCall (c : Connection) (call : Nat) : Connection :=
  { c with correlator := c.correlator.forget call }

-- The frame of a message, as it is given to the stream.
def frame (c : Connection) (m : Message) : List UInt8 :=
  Framing.encode c.config.contentType m.encode

-- The writer writes what is queued, also after the connection has closed.
def write (c : Connection) : Option Connection :=
  if c.starts = 0 then none
  else c.correlator.take.map fun (m, correlator) =>
    { c with correlator := correlator }.record (.wrote m (c.frame m))

-- A write that fails closes the connection and stops the writer; the message is lost.
def failWrite (c : Connection) : Option Connection :=
  if c.starts = 0 then none
  else c.correlator.take.map fun (_, correlator) =>
    let closed := { c with correlator := correlator }.close
    { closed with correlator := closed.correlator.disconnect }

-- The writer stops once the connection is closed and nothing is queued.
def stopWriter (c : Connection) : Option Connection :=
  if c.starts ≠ 0 ∧ c.phase = .closed ∧ c.correlator.outbound.queued = [] then
    some { c with correlator := c.correlator.disconnect }
  else none

end Connection
end DuplexRpc
