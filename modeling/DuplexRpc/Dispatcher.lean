import DuplexRpc.Message
import DuplexRpc.Registry

namespace DuplexRpc

-- How the handler of a request ends.
inductive Outcome where
  | result (value : Payload)
  | failure (error : ResponseError)
  -- An unexpected failure, outermost cause first.
  | internal (causes : List String)
  -- A panic, with its message where it has one.
  | panic (text : Option String)
  deriving DecidableEq

namespace Outcome

def internalReply (text : String) : Reply :=
  .error (.ofKind .internalError "Internal error" (some (.string text)))

-- A typed failure goes out unchanged, any other as an internal error with its text.
def reply : Outcome → Reply
  | .result value => .result value
  | .failure error => .error error
  | .internal causes => internalReply (": ".intercalate causes)
  | .panic text => internalReply (text.getD "handler panicked")

end Outcome

-- Which methods have a handler and of which kind. What a handler does is not said here:
-- the answer to a request is a function of what its handler yields when it is run.
structure Dispatcher where
  handlers : List (String × MethodKind) := []
  cancellation : Option CancelSettings := none

namespace Dispatcher

def hasHandler (d : Dispatcher) (method : String) : Bool :=
  (d.handlers.lookup method).isSome

def serves (d : Dispatcher) (kind : MethodKind) (method : String) : Bool :=
  d.handlers.lookup method == some kind

-- A cancelled request is answered without its handler where cancellation is declared.
def preempts (d : Dispatcher) (cancelled : Bool) : Bool :=
  cancelled && d.cancellation.isSome

-- Whether a poll of the request runs its handler.
def runsHandler (d : Dispatcher) (r : Request) (cancelled : Bool) : Bool :=
  d.serves .request r.method && !d.preempts cancelled

def cancelledReply (settings : CancelSettings) (r : Request) : Reply :=
  .error (.ofKind (.ofCode settings.code)
    ("The request (id: " ++ r.id.display ++ ", method: '" ++ r.method ++ "') has been cancelled"))

def notFoundReply (r : Request) : Reply :=
  .error (.methodNotFound r.method)

-- One poll of a request: what the handler yields counts only when it is run.
def poll (d : Dispatcher) (r : Request) (cancelled : Bool) (handler : Option Outcome) : Option Response :=
  if d.serves .request r.method then
    match d.cancellation, cancelled with
    | some settings, true => some ⟨some r.id, cancelledReply settings r⟩
    | _, _ => handler.map fun outcome => ⟨some r.id, outcome.reply⟩
  else some ⟨some r.id, notFoundReply r⟩

-- A handler as a state machine: a poll either leaves it in a further state or ends it.
inductive Progress (σ : Type) where
  | pending (state : σ)
  | ended (outcome : Outcome)

inductive Event where
  | poll
  | cancel
  deriving DecidableEq, Repr

-- A request in the dispatcher's hands: the handler's state, whether its cancellation was
-- signalled, how often the handler was run, and the answers given.
structure Service (σ : Type) where
  state : σ
  cancelled : Bool := false
  runs : Nat := 0
  answers : List Response := []

-- Polls after the answer change nothing.
def serve (d : Dispatcher) (machine : σ → Bool → Progress σ) (r : Request) (s : Service σ) : Event → Service σ
  | .cancel => { s with cancelled := true }
  | .poll =>
    if s.answers ≠ [] then s
    else if d.runsHandler r s.cancelled then
      match machine s.state s.cancelled with
      | .pending state => { s with state := state, runs := s.runs + 1 }
      | .ended outcome =>
        { s with runs := s.runs + 1, answers := (d.poll r s.cancelled (some outcome)).toList }
    else { s with answers := (d.poll r s.cancelled none).toList }

def serveAll (d : Dispatcher) (machine : σ → Bool → Progress σ) (r : Request) (s : Service σ)
    (events : List Event) : Service σ :=
  events.foldl (d.serve machine r) s

end Dispatcher
end DuplexRpc
