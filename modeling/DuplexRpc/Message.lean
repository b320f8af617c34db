import DuplexRpc.Json.Writer
import DuplexRpc.Payload
import DuplexRpc.ResponseError

namespace DuplexRpc

structure Request where
  id : RequestId
  method : String
  params : Option Payload := none
  deriving DecidableEq

structure Notification where
  method : String
  params : Option Payload := none
  deriving DecidableEq

-- A call is answered by a result or by an error, never both.
inductive Reply where
  | result (value : Payload)
  | error (error : ResponseError)
  deriving DecidableEq

-- The id is absent only where the id of the answered message could not be read.
structure Response where
  id : Option RequestId
  reply : Reply
  deriving DecidableEq

inductive MessageKind where
  | request | notification | response
  deriving DecidableEq, Repr

def MessageKind.name : MessageKind → String
  | .request => "request"
  | .notification => "notification"
  | .response => "response"

inductive Message where
  | request (request : Request)
  | notification (notification : Notification)
  | response (response : Response)
  deriving DecidableEq

def Request.param? (r : Request) (name : String) : Option Payload :=
  r.params.bind (·.field? name)

def Notification.param? (n : Notification) (name : String) : Option Payload :=
  n.params.bind (·.field? name)

def Reply.field? : Reply → String → Option Payload
  | .result value, name => value.field? name
  | .error _, _ => none

namespace Message

def kind : Message → MessageKind
  | .request _ => .request
  | .notification _ => .notification
  | .response _ => .response

def id? : Message → Option RequestId
  | .request r => some r.id
  | .notification _ => none
  | .response r => r.id

def method? : Message → Option String
  | .request r => some r.method
  | .notification n => some n.method
  | .response _ => none

def version : Json := .string "2.0"

def paramsMember (params : Option Payload) : List (String × Json) :=
  params.toList.map fun p => ("params", p.toJson)

-- The envelope of a message. A response without an id carries a null one.
def toJson : Message → Json
  | .request r =>
    .ofMembers ([("jsonrpc", version), ("id", r.id.toJson), ("method", .string r.method)] ++ paramsMember r.params)
  | .notification n =>
    .ofMembers ([("jsonrpc", version), ("method", .string n.method)] ++ paramsMember n.params)
  | .response r =>
    let outcome := match r.reply with
      | .result value => ("result", value.toJson)
      | .error e => ("error", e.toJson.sorted)
    .ofMembers [("jsonrpc", version), ("id", (r.id.map RequestId.toJson).getD .null), outcome]

-- What stands in the frame of a message.
def encode (m : Message) : List UInt8 :=
  m.toJson.octets

end Message
end DuplexRpc
