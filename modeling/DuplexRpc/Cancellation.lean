namespace DuplexRpc.Cancellation

-- Handles on cancellation signals. Copies share their signal; a signal once given stays.
structure Handles where
  signals : List Bool := []
  -- The signal of each handle, and of each wait with whether it has ended.
  handles : List Nat := []
  waits : List (Nat × Bool) := []
  deriving DecidableEq, Repr

namespace Handles

def signal? (h : Handles) (handle : Nat) : Option Nat := h.handles[handle]?

def create (h : Handles) : Nat × Handles :=
  (h.handles.length, { h with signals := h.signals ++ [false], handles := h.handles ++ [h.signals.length] })

def copy (h : Handles) (handle : Nat) : Option (Nat × Handles) :=
  (h.signal? handle).map fun s => (h.handles.length, { h with handles := h.handles ++ [s] })

def cancel (h : Handles) (handle : Nat) : Handles :=
  match h.signal? handle with
  | some s => { h with signals := h.signals.set s true }
  | none => h

def isCancelled (h : Handles) (handle : Nat) : Bool :=
  ((h.signal? handle).bind fun s => h.signals[s]?).getD false

def sameAs (h : Handles) (a b : Nat) : Bool :=
  h.signal? a == h.signal? b

def wait (h : Handles) (handle : Nat) : Option (Nat × Handles) :=
  (h.signal? handle).map fun s => (h.waits.length, { h with waits := h.waits ++ [(s, false)] })

inductive Look where
  | pending | done | taken
  deriving DecidableEq, Repr

-- A wait ends at the first look after its signal was given.
def poll (h : Handles) (wait : Nat) : Look × Handles :=
  match h.waits[wait]? with
  | none => (.taken, h)
  | some (_, true) => (.taken, h)
  | some (s, false) =>
    if (h.signals[s]?).getD false then (.done, { h with waits := h.waits.set wait (s, true) }) else (.pending, h)

end Handles
end DuplexRpc.Cancellation
