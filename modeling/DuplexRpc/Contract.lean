import DuplexRpc.Envelope
import DuplexRpc.Registry

namespace DuplexRpc

-- What frames are read by: parameters take the shapes of the methods served here, results
-- those of the methods called at the peer; validation asks for the version and a method
-- that is not empty.
structure Contract where
  served : Registry := {}
  called : Registry := {}
  validate : Bool := false

namespace Contract
open Envelope

def paramsShape (k : Contract) (method : String) : Shape :=
  match k.served.lookup method with
  | some spec => spec.params
  | none => .any

-- The result of a response has the shape of the pending request it answers.
def resultShape (k : Contract) (pending : RequestId → Option String) (id : RequestId) : Shape :=
  match (pending id).bind k.called.lookup with
  | some spec => spec.result
  | none => .any

-- Null parameters are let through whatever the shape.
def decodeParams (k : Contract) (method : String) : Option Json → Except Fault (Option Payload)
  | none => .ok none
  | some .null => .ok (some .null)
  | some v =>
    match (k.paramsShape method).decode v with
    | .ok p => .ok (some p)
    | .error cause => .error (.params method cause)

def decodeCall (k : Contract) (members : Members) : Except Fault Message :=
  match members.lookup "method" with
  | some (.string method) =>
    if k.validate ∧ method = "" then .error .methodEmpty
    else
      match members.lookup "id", id? members with
      | some found, none => .error (.requestId found)
      | _, some id => (k.decodeParams method (members.lookup "params")).map fun params =>
          .request ⟨id, method, params⟩
      | none, none => (k.decodeParams method (members.lookup "params")).map fun params =>
          .notification ⟨method, params⟩
  | _ => .error .methodNotString

def decodeReply (k : Contract) (pending : RequestId → Option String) (members : Members) :
    Except Fault Reply :=
  match members.lookup "result", members.lookup "error" with
  | some _, some _ => .error .twoOutcomes
  | none, none => .error .noOutcome
  | none, some v =>
    match ResponseError.ofJson v with
    | .ok e => .ok (.error e)
    | .error misfit => .error (.errorObject misfit)
  | some v, none =>
    match id? members with
    | none => .error .resultWithoutId
    | some id =>
      match (k.resultShape pending id).decode v with
      | .ok p => .ok (.result p)
      | .error cause => .error (.result id cause)

def decodeResponse (k : Contract) (pending : RequestId → Option String) (members : Members) :
    Except Fault Message :=
  match members.lookup "id", id? members with
  | some .null, _ | none, _ | _, some _ =>
    (k.decodeReply pending members).map fun reply => .response ⟨id? members, reply⟩
  | some found, none => .error (.responseId found)

def decodeMembers (k : Contract) (pending : RequestId → Option String) (members : Members) :
    Except Fault Message :=
  if k.validate ∧ members.lookup "jsonrpc" ≠ some Message.version then
    .error (.version (members.lookup "jsonrpc"))
  else if has members "method" then k.decodeCall members
  else if has members "result" || has members "error" || has members "id" then k.decodeResponse pending members
  else .error .noKind

-- One frame's body. `pending` tells the method of a request of ours that awaits its answer.
def decode (k : Contract) (pending : RequestId → Option String) (body : List UInt8) : Except Issue Message :=
  match Json.read body with
  | .error fault =>
    .error (.caused .parseError "Unable to parse JSON message" (.make .parseError (fault.message body)))
  | .ok (.object members) =>
    match k.decodeMembers pending members with
    | .ok m => .ok m
    | .error fault => .error (fault.toIssue (id? members))
  | .ok _ => .error (.make .invalidRequest "JSON-RPC message must be an object")

end Contract
end DuplexRpc
