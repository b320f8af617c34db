import DuplexRpc.ResponseError
import DuplexRpc.Payload
import DuplexRpc.Codec.Record

namespace DuplexRpc

-- A protocol problem and, below it, the problem that caused it.
structure Finding where
  text : String
  code : Int64
  id : Option RequestId := none
  deriving DecidableEq, Repr

inductive Issue where
  | root (finding : Finding)
  | causedBy (finding : Finding) (cause : Issue)
  deriving DecidableEq, Repr

namespace Issue

def make (kind : ErrorCode) (text : String) (id : Option RequestId := none) : Issue :=
  .root ⟨text, kind.code, id⟩

def caused (kind : ErrorCode) (text : String) (cause : Issue) (id : Option RequestId := none) : Issue :=
  .causedBy ⟨text, kind.code, id⟩ cause

def finding : Issue → Finding
  | .root f => f
  | .causedBy f _ => f

def text (i : Issue) : String := i.finding.text

def code (i : Issue) : Int64 := i.finding.code

def id (i : Issue) : Option RequestId := i.finding.id

def kind (i : Issue) : ErrorCode := .ofCode i.code

def cause? : Issue → Option Issue
  | .root _ => none
  | .causedBy _ cause => some cause

-- From the issue itself to the deepest cause.
def chain : Issue → List Finding
  | .root f => [f]
  | .causedBy f cause => f :: cause.chain

def rootCause : Issue → Finding
  | .root f => f
  | .causedBy _ cause => cause.rootCause

def display : Issue → String
  | .root f => f.text
  | .causedBy f cause => f.text ++ ": " ++ cause.display

def ofChain (outer : Finding) : List Finding → Issue
  | [] => .root outer
  | next :: rest => .causedBy outer (ofChain next rest)

def findingMembers (f : Finding) : List (String × Json) :=
  [("text", .string f.text), ("code", .ofInt64 f.code)] ++ f.id.toList.map fun id => ("id", id.toJson)

-- Members in the order of declaration; an absent id or cause is left out.
def toJson : Issue → Json
  | .root f => .object (findingMembers f)
  | .causedBy f cause => .object (findingMembers f ++ [("cause", cause.toJson)])

structure Draft where
  text : Option String := none
  code : Int64 := 0
  id : Option RequestId := none
  cause : Option Issue := none

def Draft.issue (d : Draft) (text : String) : Issue :=
  match d.cause with
  | none => .root ⟨text, d.code, d.id⟩
  | some cause => .causedBy ⟨text, d.code, d.id⟩ cause

def recordName : String := "MessageIssue"

def putText (d : Draft) (v : Json) : Except Misfit Draft :=
  match d.text with
  | some _ => .error (.duplicateField "text")
  | none => (Codec.string.read v).map fun s => { d with text := some s }

def putCode (d : Draft) (v : Json) : Except Misfit Draft :=
  (Codec.int64.read v).map fun n => { d with code := n }

def putId (d : Draft) (v : Json) : Except Misfit Draft :=
  ((Codec.option RequestId.codec).read v).map fun id => { d with id := id }

mutual

-- Only the text is required, under either of two names.
def ofJson : Json → Except Misfit Issue
  | .object members =>
    match putMembers {} members with
    | .error misfit => .error misfit
    | .ok d =>
      match d.text with
      | none => .error (.missingField "text")
      | some text => .ok (d.issue text)
  | .array [] => .error (.wrongLength 0 (Record.titleWithCount recordName 4))
  | .array (first :: rest) =>
    match Codec.string.read first with
    | .error misfit => .error misfit
    | .ok text =>
      match putItems {} (rest.length + 1) rest with
      | .error misfit => .error misfit
      | .ok d => .ok (d.issue text)
  | v => .error (.wrongType v (Record.title recordName))

-- The items after the text, of `length` items in all.
def putItems (d : Draft) (length : Nat) : List Json → Except Misfit Draft
  | [] => .ok d
  | [code] => putCode d code
  | [code, id] => (putCode d code).bind (putId · id)
  | code :: id :: cause :: more =>
    match (putCode d code).bind (putId · id) with
    | .error misfit => .error misfit
    | .ok d =>
      match (if cause = .null then .ok { d with cause := none }
        else (ofJson cause).map fun i => { d with cause := some i }) with
      | .error misfit => .error misfit
      | .ok d => if more.isEmpty then .ok d else .error (Record.tooLong length)

def putMembers (d : Draft) : List (String × Json) → Except Misfit Draft
  | [] => .ok d
  | (name, v) :: rest =>
    let put :=
      if name = "text" ∨ name = "message" then putText d v
      else if name = "code" then putCode d v
      else if name = "id" then putId d v
      else if name = "cause" then
        if v = .null then .ok { d with cause := none }
        else (ofJson v).map fun i => { d with cause := some i }
      else .ok d
    match put with
    | .ok d => putMembers d rest
    | .error misfit => .error misfit

end

end Issue
end DuplexRpc
