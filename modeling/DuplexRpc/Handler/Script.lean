import DuplexRpc.Codec.Menu
import DuplexRpc.Dispatcher

namespace DuplexRpc

-- A fair gate: permits are used up, waiters get them first come first served. `granted`
-- holds the waiters that were given a permit and have not gone through yet.
structure Gate (τ : Type) where
  permits : Nat := 0
  line : List τ := []
  granted : List τ := []
  deriving DecidableEq, Repr

namespace Gate

variable {τ : Type} [DecidableEq τ]

-- New permits go to the line first, the rest are kept.
def release (g : Gate τ) (n : Nat) : Gate τ :=
  { permits := g.permits + (n - g.line.length)
    line := g.line.drop n
    granted := g.granted ++ g.line.take n }

-- Whether the caller goes through now; otherwise it stands in line.
def enter (g : Gate τ) (who : τ) : Bool × Gate τ :=
  if who ∈ g.granted then (true, { g with granted := g.granted.erase who })
  else if who ∈ g.line then (false, g)
  else if 0 < g.permits then (true, { g with permits := g.permits - 1 })
  else (false, { g with line := g.line ++ [who] })

-- A waiter leaves; a permit it was given goes on to the next.
def leave (g : Gate τ) (who : τ) : Gate τ :=
  if who ∈ g.granted then { g with granted := g.granted.erase who }.release 1
  else { g with line := g.line.erase who }

end Gate

-- What a scripted handler has still to do: end at once, or after its request was
-- cancelled, or once it has a permit of the gate.
inductive Plan (α : Type) where
  | finish (result : α)
  | onCancel (result : α)
  | onPermit (result : α)
  deriving DecidableEq

namespace Plan

variable {τ α : Type} [DecidableEq τ]

-- One poll, at a gate where the handler is known as `who`.
def poll (plan : Plan α) (gate : Gate τ) (who : τ) (cancelled : Bool) : Option α × Gate τ :=
  match plan with
  | .finish result => (some result, gate)
  | .onCancel result => (if cancelled then some result else none, gate)
  | .onPermit result =>
    match gate.enter who with
    | (true, gate) => (some result, gate)
    | (false, gate) => (none, gate)

end Plan

-- Parameters of an addition.
def Codec.addends : Codec (Int64 × Int64) :=
  .ofTwo "AddParams" "a" "b" .int64 .int64

-- Absent parameters are read as null.
def Codec.ofParams (c : Codec α) (params : Option Payload) : Except Misfit α :=
  c.ofPayload (params.getD .null)

def Outcome.ofMisfit (misfit : Misfit) : Outcome :=
  .failure (.ofKind .invalidParams misfit.message)

-- Ready-made request handlers.
inductive Script where
  | result (value : Payload)
  | echo
  | field (name : String)
  | fail (error : ResponseError)
  | internal (causes : List String)
  | panic (text : Option String)
  | context
  | wait
  | gate
  | add
  | typed (type : TypeName)

namespace Script

def sum (a b : Int64) : Outcome :=
  let total := a.toInt + b.toInt
  if -0x8000000000000000 ≤ total ∧ total < 0x8000000000000000 then .result (.json (.object [("sum", .ofInt64 (.ofInt total))]))
  else .failure ⟨-1, "overflow", none⟩

def contextValue (r : Request) (cancelled : Bool) : Json :=
  .object [("cancelled", .bool cancelled), ("id", r.id.toJson), ("method", .string r.method)]

-- What the script does with a request, seen at its first poll.
def plan (script : Script) (r : Request) (cancelled : Bool) : Plan Outcome :=
  match script with
  | .result value => .finish (.result value)
  | .echo => .finish (.result (r.params.getD .null))
  | .field name => .finish (.result ((r.param? name).getD .null))
  | .fail error => .finish (.failure error)
  | .internal causes => .finish (.internal causes)
  | .panic text => .finish (.panic text)
  | .context => .finish (.result (.json (contextValue r cancelled)))
  | .wait => .onCancel (.result (.json (.string "woke")))
  | .gate => .onPermit (.result (r.params.getD .null))
  | .add =>
    match Codec.addends.ofParams r.params with
    | .ok (a, b) => .finish (sum a b)
    | .error misfit => .finish (.ofMisfit misfit)
  | .typed type =>
    match type.retype (r.params.getD .null) with
    | .ok value => .finish (.result value)
    | .error misfit => .finish (.ofMisfit misfit)

end Script

-- What a scripted notification handler notes down.
inductive Note where
  | params (value : Option Payload)
  | addends (a b : Int64)
  | failing
  | panicking
  deriving DecidableEq

-- Ready-made notification handlers. None answers, whatever happens to it.
inductive NoteScript where
  | log
  | gate
  | typedLog
  | fail
  | panic
  deriving DecidableEq, Repr

namespace NoteScript

def plan (script : NoteScript) (n : Notification) : Plan (Option Note) :=
  match script with
  | .log => .finish (some (.params n.params))
  | .gate => .onPermit (some (.params n.params))
  | .typedLog =>
    match Codec.addends.ofParams n.params with
    | .ok (a, b) => .finish (some (.addends a b))
    | .error _ => .finish none
  | .fail => .finish (some .failing)
  | .panic => .finish (some .panicking)

end NoteScript

inductive AnyScript where
  | request (script : Script)
  | notification (script : NoteScript)

def AnyScript.kind : AnyScript → MethodKind
  | .request _ => .request
  | .notification _ => .notification

-- Scripts by method; a later registration replaces an earlier one.
abbrev Scripts := List (String × AnyScript)

namespace Scripts

def register (scripts : Scripts) (method : String) (script : AnyScript) : Scripts :=
  Table.put method script scripts

def kinds (scripts : Scripts) : List (String × MethodKind) :=
  scripts.map fun (method, script) => (method, script.kind)

def dispatcher (scripts : Scripts) (cancellation : Option CancelSettings) : Dispatcher :=
  ⟨scripts.kinds, cancellation⟩

def requestPlan? (scripts : Scripts) (r : Request) (cancelled : Bool) : Option (Plan Outcome) :=
  match List.lookup r.method scripts with
  | some (.request script) => some (script.plan r cancelled)
  | _ => none

-- A notification without a handler of its kind is dropped.
def notePlan (scripts : Scripts) (n : Notification) : Plan (Option Note) :=
  match List.lookup n.method scripts with
  | some (.notification script) => script.plan n
  | _ => .finish none

end Scripts
end DuplexRpc
