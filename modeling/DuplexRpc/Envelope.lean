import DuplexRpc.Message
import DuplexRpc.Shape.Matching
import DuplexRpc.Json.Reader
import DuplexRpc.Json.Writer

namespace DuplexRpc

-- Why the members of an object are no message.
inductive Envelope.Fault where
  | version (found : Option Json)
  | noKind
  | methodNotString
  | methodEmpty
  | requestId (found : Json)
  | params (method : String) (cause : Misshape)
  | responseId (found : Json)
  | twoOutcomes
  | noOutcome
  | errorObject (misfit : Misfit)
  | resultWithoutId
  | result (id : RequestId) (cause : Misshape)

namespace Envelope

-- Every issue carries the id of the message wherever it could be read.
def Fault.toIssue (id : Option RequestId) : Fault → Issue
  | .version found =>
    .make .invalidRequest
      ("The \"jsonrpc\" member must be \"2.0\", found " ++ (found.map Json.text).getD "nothing") id
  | .noKind => .make .invalidRequest "Message is neither a request, a notification nor a response" id
  | .methodNotString => .make .invalidRequest "The \"method\" member must be a string" id
  | .methodEmpty => .make .invalidRequest "The \"method\" member must not be empty" id
  | .requestId found =>
    .make .invalidRequest ("Request id must be a string or an integer, found " ++ found.text) id
  | .params method cause =>
    .caused .invalidParams ("Invalid params for method '" ++ method ++ "'") (cause.toIssue "params") id
  | .responseId found =>
    .make .invalidRequest ("Response id must be a string, an integer or null, found " ++ found.text) id
  | .twoOutcomes => .make .invalidRequest "Response must not contain both \"result\" and \"error\"" id
  | .noOutcome => .make .invalidRequest "Response must contain either \"result\" or \"error\"" id
  | .errorObject misfit =>
    .caused .invalidRequest "Malformed response error object" (.make .parseError misfit.message) id
  | .resultWithoutId => .make .invalidRequest "Successful response must carry a request id" id
  | .result request cause =>
    .caused .invalidRequest ("Result of request " ++ request.display ++ " does not match its declared shape")
      (cause.toIssue "result") id

abbrev Members := List (String × Json)

def has (members : Members) (name : String) : Bool :=
  (members.lookup name).isSome

-- The id of a message, where it is a string or an integer of 64 bits.
def id? (members : Members) : Option RequestId :=
  (members.lookup "id").bind RequestId.ofJson?

-- The kind that an object claims by its members alone.
def kind (members : Members) : MessageKind :=
  if has members "method" then
    if has members "id" then .request else .notification
  else .response

-- Routes a frame that did not decode; nothing else about it is judged.
def kindOf? (body : List UInt8) : Option MessageKind :=
  match Json.read body with
  | .ok (.object members) => some (kind members)
  | _ => none

end Envelope
end DuplexRpc
