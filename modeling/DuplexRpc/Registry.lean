import DuplexRpc.Shape

namespace DuplexRpc.Table

-- Tables are lists of keyed entries; a key that is put once is there once.
variable {κ α : Type} [DecidableEq κ]

-- A new entry goes to the end, an entry for a known key takes its place.
def put (key : κ) (value : α) : List (κ × α) → List (κ × α)
  | [] => [(key, value)]
  | (k, old) :: rest => if k = key then (key, value) :: rest else (k, old) :: put key value rest

def erase (key : κ) (table : List (κ × α)) : List (κ × α) :=
  table.filter (·.1 ≠ key)

end DuplexRpc.Table

namespace DuplexRpc

inductive MethodKind where
  | request | notification
  deriving DecidableEq, Repr

def MethodKind.name : MethodKind → String
  | .request => "request"
  | .notification => "notification"

-- A notification has no result; its result shape is `any`.
structure MethodSpec where
  name : String
  kind : MethodKind
  params : Shape
  result : Shape

-- The notification that cancels a request of this side, and the error code that a
-- request cancelled in time is answered with.
structure CancelSettings where
  method : String
  code : Int64
  deriving DecidableEq, Repr

-- The methods one side serves.
structure Registry where
  methods : List (String × MethodSpec) := []
  cancellation : Option CancelSettings := none

namespace Registry

def lookup (r : Registry) (name : String) : Option MethodSpec :=
  r.methods.lookup name

def contains (r : Registry) (name : String) : Bool :=
  (r.lookup name).isSome

def size (r : Registry) : Nat := r.methods.length

def isCancelMethod (r : Registry) (name : String) : Bool :=
  match r.cancellation with
  | some settings => settings.method == name
  | none => false

def register (r : Registry) (spec : MethodSpec) : Registry :=
  { r with methods := Table.put spec.name spec r.methods }

def cancelParams : Shape :=
  .object [⟨"id", .either .integer .string, .required⟩]

def cancelSpec (method : String) : MethodSpec :=
  ⟨method, .notification, cancelParams, .any⟩

-- The cancel notification is registered under its own name.
def declareCancellation (r : Registry) (settings : CancelSettings) : Registry :=
  { r.register (cancelSpec settings.method) with cancellation := some settings }

-- Methods of the other registry replace those here; its cancellation counts only where
-- none is declared yet.
def extend (r other : Registry) : Registry :=
  let merged := other.methods.foldl (fun r entry => r.register entry.2) r
  { merged with cancellation := r.cancellation <|> other.cancellation }

-- How a registry is written down.
inductive Step where
  | request (name : String) (params result : Shape)
  | notification (name : String) (params : Shape)
  | cancellation (settings : CancelSettings)
  | segment (name : String) (steps : List Step)
  | extend (steps : List Step)

mutual

-- `path` stands before the names of requests and notifications. A segment lengthens it
-- for the steps inside; another registry is built under the empty path.
def apply (path : String) (r : Registry) : Step → Registry
  | .request name params result => r.register ⟨path ++ name, .request, params, result⟩
  | .notification name params => r.register ⟨path ++ name, .notification, params, .any⟩
  | .cancellation settings => r.declareCancellation settings
  | .segment name steps => applyAll (path ++ name ++ "/") r steps
  | .extend steps => r.extend (applyAll "" {} steps)

def applyAll (path : String) (r : Registry) : List Step → Registry
  | [] => r
  | step :: rest => applyAll path (apply path r step) rest

end

def ofSteps (steps : List Step) : Registry :=
  applyAll "" {} steps

end Registry
end DuplexRpc
