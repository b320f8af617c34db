import DuplexRpc.Outbound
import DuplexRpc.Registry
import DuplexRpc.Issue
import DuplexRpc.ResponseError

namespace DuplexRpc

-- What a caller of the peer may meet instead of a result.
inductive CallError where
  | remote (error : ResponseError)
  | connectionClosed
  | cancelled (id : RequestId)
  | unknownMethod (method : String)
  | wrongKind (method : String) (declared : MethodKind)
  | invalidResponse (issue : Issue)
  | serialization (misfit : Misfit)
  deriving DecidableEq

namespace CallError

def message : CallError → String
  | .remote error => "Remote error: " ++ error.display
  | .connectionClosed => "Connection closed"
  | .cancelled id => "Request " ++ id.display ++ " was cancelled"
  | .unknownMethod method => "Method '" ++ method ++ "' is not known to the remote endpoint"
  | .wrongKind method declared => "Method '" ++ method ++ "' must be called as a " ++ declared.name
  | .invalidResponse issue => "Invalid response: " ++ issue.display
  | .serialization misfit => "Serialization error: " ++ misfit.message

-- Only an answer of the peer has a code.
def code? : CallError → Option Int64
  | .remote error => some error.code
  | _ => none

def isClosed : CallError → Bool
  | .connectionClosed => true
  | _ => false

end CallError

-- How a request of ours ended.
inductive CallOutcome where
  | result (value : Payload)
  | error (error : CallError)
  deriving DecidableEq

def CallOutcome.ofReply : Reply → CallOutcome
  | .result value => .result value
  | .error e => .error (.remote e)

-- A call is accepted once its request is queued; until then its sender waits, and the
-- caller may give it up.
inductive Call.Stage where
  | waiting (ticket : Nat)
  | accepted
  | refused
  | abandoned
  deriving DecidableEq, Repr

structure Call where
  id : RequestId
  method : String
  params : Option Payload
  stage : Call.Stage
  outcome : Option CallOutcome := none
  -- The outcome was read, or the caller no longer wants it.
  taken : Bool := false
  deriving DecidableEq

structure PendingEntry where
  method : String
  -- Position of the call among all calls.
  call : Nat
  deriving DecidableEq, Repr

-- Our own requests, from the id each gets to the answer that completes it.
structure Correlator where
  cancellation : Option CancelSettings := none
  outbound : Outbound
  nextId : Int64 := 1
  pending : List (RequestId × PendingEntry) := []
  -- Ids cancelled here whose answer may still come, oldest first.
  cancelled : List RequestId := []
  closed : Bool := false
  calls : List Call := []
  deriving DecidableEq

namespace Correlator

-- Older cancelled ids are forgotten.
def cancelledWindow : Nat := 256

def pendingCount (c : Correlator) : Nat := c.pending.length

def pendingMethod (c : Correlator) (id : RequestId) : Option String :=
  (c.pending.lookup id).map (·.method)

-- The first outcome stays.
def complete (c : Correlator) (call : Nat) (outcome : CallOutcome) : Correlator :=
  { c with calls := c.calls.modify call fun k => { k with outcome := k.outcome <|> some outcome } }

def forgetPending (c : Correlator) (id : RequestId) : Correlator :=
  { c with pending := Table.erase id c.pending }

-- An entry that another one replaces can no longer be answered.
def record (c : Correlator) (id : RequestId) (entry : PendingEntry) : Correlator :=
  let c := match c.pending.lookup id with
    | some old => c.complete old.call (.error .connectionClosed)
    | none => c
  { c with pending := Table.put id entry c.pending }

-- Any other message for the peer goes through the same queue.
def offer (c : Correlator) (m : Message) (standing : Outbound.Standing) : Outbound.Offer × Correlator :=
  let (offer, outbound) := c.outbound.offer m standing
  (offer, { c with outbound := outbound })

inductive Sending where
  | accepted (call : Nat) (id : RequestId)
  | waiting (call ticket : Nat)
  | closed
  deriving DecidableEq, Repr

-- Every attempt uses up an id. The entry is recorded before the request is queued and
-- taken back when the queue refuses it.
def send (c : Correlator) (method : String) (params : Option Payload) : Sending × Correlator :=
  let id := RequestId.number c.nextId
  let call := c.calls.length
  let c := { c with nextId := c.nextId + 1 }
  if c.closed then (.closed, c)
  else
    let c := c.record id ⟨method, call⟩
    match c.offer (.request ⟨id, method, params⟩) .inLine with
    | (.refused, c) => (.closed, c.forgetPending id)
    | (.accepted, c) => (.accepted call id, { c with calls := c.calls ++ [⟨id, method, params, .accepted, none, false⟩] })
    | (.waiting ticket, c) =>
      (.waiting call ticket, { c with calls := c.calls ++ [⟨id, method, params, .waiting ticket, none, false⟩] })

def restage (ticket : Nat) (stage : Call.Stage) (calls : List Call) : List Call :=
  calls.map fun k => if k.stage = .waiting ticket then { k with stage := stage } else k

-- A waiting sender's turn.
def turn (c : Correlator) (ticket : Nat) : Correlator :=
  match c.outbound.turn ticket with
  | (none, outbound) => { c with outbound := outbound }
  | (some _, outbound) => { c with outbound := outbound, calls := restage ticket .accepted c.calls }

-- A waiting sender gives up. A request it had recorded stays pending.
def abandon (c : Correlator) (ticket : Nat) : Correlator :=
  { c with outbound := c.outbound.abandon ticket, calls := restage ticket .abandoned c.calls }

def unmatched (id : RequestId) : Issue :=
  .make .invalidRequest ("Unmatched response message: no pending request with id " ++ id.display) (some id)

-- The peer's answer. One that answers a request cancelled here is dropped and its id
-- forgotten; one that answers nothing is an issue.
def resolve (c : Correlator) (id : RequestId) (reply : Reply) : Option Issue × Correlator :=
  match c.pending.lookup id with
  | some entry => (none, (c.forgetPending id).complete entry.call (.ofReply reply))
  | none =>
    if id ∈ c.cancelled then (none, { c with cancelled := c.cancelled.erase id })
    else (some (unmatched id), c)

-- Whether the request was pending.
def fail (c : Correlator) (id : RequestId) (error : CallError) : Bool × Correlator :=
  match c.pending.lookup id with
  | some entry => (true, (c.forgetPending id).complete entry.call (.error error))
  | none => (false, c)

def remember (cancelled : List RequestId) (id : RequestId) : List RequestId :=
  (if cancelled.length = cancelledWindow then cancelled.drop 1 else cancelled) ++ [id]

def cancelNotification (settings : CancelSettings) (id : RequestId) : Message :=
  .notification ⟨settings.method, some (.json (.object [("id", id.toJson)]))⟩

inductive Cancelling where
  | notPending
  | cancelled
  | waiting (ticket : Nat)
  deriving DecidableEq, Repr

-- The caller learns at once; the peer is told where it has a notification for that.
def cancel (c : Correlator) (id : RequestId) : Cancelling × Correlator :=
  match c.pending.lookup id with
  | none => (.notPending, c)
  | some entry =>
    let c := { c.forgetPending id with cancelled := remember c.cancelled id }
    let c := c.complete entry.call (.error (.cancelled id))
    match c.cancellation with
    | none => (.cancelled, c)
    | some settings =>
      match c.offer (cancelNotification settings id) .inLine with
      | (.waiting ticket, c) => (.waiting ticket, c)
      | (_, c) => (.cancelled, c)

-- Ends all pending requests and refuses later ones. The count is of those ended.
def failAll (c : Correlator) : Nat × Correlator :=
  let done := c.pending.foldl (fun c entry => c.complete entry.2.call (.error .connectionClosed)) c
  (c.pending.length, { done with pending := [], cancelled := [], closed := true })

def take (c : Correlator) : Option (Message × Correlator) :=
  c.outbound.take.map fun (m, outbound) => (m, { c with outbound := outbound })

def waitingIds (waiting : List Outbound.Waiter) : List RequestId :=
  waiting.filterMap fun w => match w.message with
    | .request r => some r.id
    | _ => none

-- The queue's receiver goes away; senders in wait are refused and take back their entries. The
-- program's senders do so one by one, each when its turn comes. Here all these entries go at once:
-- what happens to one of them before the turn of its sender is not spoken of.
def disconnect (c : Correlator) : Correlator :=
  { c with
    outbound := c.outbound.disconnect
    pending := (waitingIds c.outbound.waiting).foldl (fun table id => Table.erase id table) c.pending
    calls := c.calls.map fun k => match k.stage with
      | .waiting _ => { k with stage := .refused }
      | _ => k }

inductive Look where
  | taken
  | pending
  | done (outcome : CallOutcome)
  deriving DecidableEq

-- Reads an outcome, once.
def poll (c : Correlator) (call : Nat) : Look × Correlator :=
  match c.calls[call]? with
  | none => (.taken, c)
  | some k =>
    if k.taken then (.taken, c)
    else match k.outcome with
      | none => (.pending, c)
      | some outcome => (.done outcome, { c with calls := c.calls.modify call fun k => { k with taken := true } })

section Polls
variable {c : Correlator} {n : Nat} {k : Call} {outcome : CallOutcome}

-- A call that has ended gives its outcome to the next look, and is taken then.
theorem poll_done (found : c.calls[n]? = some k) (unread : k.taken = false) (ended : k.outcome = some outcome) :
    (c.poll n).1 = .done outcome ∧ (c.poll n).2.calls[n]? = some { k with taken := true } := by
  simp [poll, found, unread, ended]

theorem poll_open (found : c.calls[n]? = some k) (unread : k.taken = false) (unanswered : k.outcome = none) :
    c.poll n = (.pending, c) := by
  simp [poll, found, unread, unanswered]

theorem poll_taken (found : c.calls[n]? = some k) (read : k.taken = true) : c.poll n = (.taken, c) := by
  simp [poll, found, read]

end Polls

-- The caller no longer wants the outcome; the request stays pending.
def forget (c : Correlator) (call : Nat) : Correlator :=
  { c with calls := c.calls.modify call fun k => { k with taken := true } }

-- One action is a stretch of code between two awaits: a send or a cancellation up to its wait for
-- room, and a `turn` or an `abandon` for the rest of it. An await that need not wait goes on at once.
-- Actions that overlap on several threads are not spoken of.
inductive Action where
  | send (method : String) (params : Option Payload)
  | turn (ticket : Nat)
  | abandon (ticket : Nat)
  | resolve (id : RequestId) (reply : Reply)
  | fail (id : RequestId) (error : CallError)
  | cancel (id : RequestId)
  | failAll
  | take
  | disconnect
  | poll (call : Nat)
  | forget (call : Nat)

def step (c : Correlator) : Action → Correlator
  | .send method params => (c.send method params).2
  | .turn ticket => c.turn ticket
  | .abandon ticket => c.abandon ticket
  | .resolve id reply => (c.resolve id reply).2
  | .fail id error => (c.fail id error).2
  | .cancel id => (c.cancel id).2
  | .failAll => c.failAll.2
  | .take => match c.take with
    | some (_, c) => c
    | none => c
  | .disconnect => c.disconnect
  | .poll call => (c.poll call).2
  | .forget call => c.forget call

def initial (cancellation : Option CancelSettings) (capacity : Nat) : Correlator :=
  { cancellation, outbound := { capacity } }

-- Any order of actions, each whenever it pleases.
def run (c : Correlator) (actions : List Action) : Correlator :=
  actions.foldl step c

end Correlator
end DuplexRpc
