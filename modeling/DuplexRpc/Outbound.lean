import DuplexRpc.Message

namespace DuplexRpc

-- Where a message that found the queue full stands: its sender has not asked for room
-- yet, waits in line for it, or has been given the room and not used it yet.
inductive Outbound.Standing where
  | arriving | inLine | admitted
  deriving DecidableEq, Repr

structure Outbound.Waiter where
  ticket : Nat
  message : Message
  standing : Outbound.Standing
  deriving DecidableEq

-- The bounded queue of messages to write. `accepted` keeps every message that ever
-- entered the queue, in order; nothing is decided by it.
structure Outbound where
  capacity : Nat
  receiving : Bool := true
  queued : List Message := []
  waiting : List Outbound.Waiter := []
  nextTicket : Nat := 0
  accepted : List Message := []
  deriving DecidableEq

namespace Outbound

inductive Offer where
  | accepted
  | waiting (ticket : Nat)
  | refused
  deriving DecidableEq, Repr

def admittedCount (q : Outbound) : Nat :=
  (q.waiting.filter (·.standing = .admitted)).length

-- Room given to a waiting sender is no longer free.
def hasRoom (q : Outbound) : Bool :=
  q.queued.length + q.admittedCount < q.capacity

def enter (q : Outbound) (m : Message) : Outbound :=
  { q with queued := q.queued ++ [m], accepted := q.accepted ++ [m] }

-- Without room the message waits, in line at once or only when its sender's turn comes.
def offer (q : Outbound) (m : Message) (standing : Standing) : Offer × Outbound :=
  if q.receiving = false then (.refused, q)
  else if q.hasRoom then (.accepted, q.enter m)
  else (.waiting q.nextTicket,
    { q with waiting := q.waiting ++ [⟨q.nextTicket, m, standing⟩], nextTicket := q.nextTicket + 1 })

def admitFirst : List Waiter → List Waiter
  | [] => []
  | w :: rest =>
    if w.standing = .inLine then { w with standing := .admitted } :: rest else w :: admitFirst rest

-- Freed room goes to the first in line.
def admitNext (q : Outbound) : Outbound :=
  if q.hasRoom then { q with waiting := admitFirst q.waiting } else q

def remove (q : Outbound) (ticket : Nat) : Outbound :=
  { q with waiting := q.waiting.filter (·.ticket ≠ ticket) }

def waiter? (q : Outbound) (ticket : Nat) : Option Waiter :=
  q.waiting.find? (·.ticket = ticket)

-- A sender stands behind all who came to the line before it, whenever its message was offered.
def standInLine (q : Outbound) (ticket : Nat) : Outbound :=
  let arrived := (q.waiting.filter (·.ticket = ticket)).map fun w => { w with standing := .inLine }
  { q with waiting := (q.remove ticket).waiting ++ arrived }

-- The sender of a waiting message takes its turn. The message that enters is returned.
def turn (q : Outbound) (ticket : Nat) : Option Message × Outbound :=
  match q.waiter? ticket with
  | none => (none, q)
  | some w =>
    match w.standing with
    | .admitted => (some w.message, (q.remove ticket).enter w.message)
    | .inLine => (none, q)
    | .arriving =>
      if q.hasRoom then (some w.message, (q.remove ticket).enter w.message)
      else (none, q.standInLine ticket)

-- The sender gives up; room it had been given goes to the next in line.
def abandon (q : Outbound) (ticket : Nat) : Outbound :=
  (q.remove ticket).admitNext

def take (q : Outbound) : Option (Message × Outbound) :=
  match q.queued with
  | [] => none
  | m :: rest => some (m, { q with queued := rest }.admitNext)

-- The receiver goes away: what is queued is lost and nobody waits any longer.
def disconnect (q : Outbound) : Outbound :=
  { q with receiving := false, queued := [], waiting := [] }

end Outbound
end DuplexRpc
