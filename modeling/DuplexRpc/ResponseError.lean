import DuplexRpc.Codec.Record
import DuplexRpc.Decimal.Shortest

namespace DuplexRpc

-- The reserved codes, and any other code of a server.
inductive ErrorCode where
  | parseError
  | invalidRequest
  | methodNotFound
  | invalidParams
  | internalError
  | serverError (code : Int64)
  deriving DecidableEq, Repr

namespace ErrorCode

def code : ErrorCode → Int64
  | .parseError => -32700
  | .invalidRequest => -32600
  | .methodNotFound => -32601
  | .invalidParams => -32602
  | .internalError => -32603
  | .serverError code => code

def ofCode (code : Int64) : ErrorCode :=
  if code = -32700 then .parseError
  else if code = -32600 then .invalidRequest
  else if code = -32601 then .methodNotFound
  else if code = -32602 then .invalidParams
  else if code = -32603 then .internalError
  else .serverError code

def message : ErrorCode → String
  | .parseError => "Parse error"
  | .invalidRequest => "Invalid Request"
  | .methodNotFound => "Method not found"
  | .invalidParams => "Invalid params"
  | .internalError => "Internal error"
  | .serverError _ => "Server error"

def display (c : ErrorCode) : String :=
  String.ofList (Decimal.ofInt c.code.toInt) ++ ": " ++ c.message

end ErrorCode

-- The error object of a response.
structure ResponseError where
  code : Int64
  message : String
  data : Option Json := none
  deriving DecidableEq

namespace ResponseError

def ofKind (kind : ErrorCode) (message : String) (data : Option Json := none) : ResponseError :=
  ⟨kind.code, message, data⟩

def kind (e : ResponseError) : ErrorCode := .ofCode e.code

def methodNotFound (method : String) : ResponseError :=
  ofKind .methodNotFound ("Unsupported request method: " ++ method)

def display (e : ResponseError) : String :=
  "JSON-RPC Error " ++ String.ofList (Decimal.ofInt e.code.toInt) ++ ": " ++ e.message

structure Draft where
  code : Option Int64 := none
  message : Option String := none
  data : Option Json := none

def record : Record Draft where
  name := "ResponseError"
  empty := {}
  fields := [
    ⟨"code", fun d v => (Codec.int64.read v).map fun n => { d with code := some n }, true, (·.code.isSome)⟩,
    ⟨"message", fun d v => (Codec.string.read v).map fun s => { d with message := some s }, true, (·.message.isSome)⟩,
    ⟨"data", fun d v => ((Codec.option .json).read v).map fun o => { d with data := o }, false, (·.data.isSome)⟩]

def ofJson (v : Json) : Except Misfit ResponseError :=
  match record.read v with
  | .error misfit => .error misfit
  | .ok ⟨some code, some message, data⟩ => .ok ⟨code, message, data⟩
  | .ok ⟨none, _, _⟩ => .error (.missingField "code")
  | .ok ⟨_, none, _⟩ => .error (.missingField "message")

-- Members in the order of declaration; absent data are left out.
def toJson (e : ResponseError) : Json :=
  .object ([("code", .ofInt64 e.code), ("message", .string e.message)] ++
    e.data.toList.map fun v => ("data", v))

end ResponseError
end DuplexRpc
