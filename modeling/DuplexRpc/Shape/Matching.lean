import DuplexRpc.Shape
import DuplexRpc.Payload
import DuplexRpc.Issue

namespace DuplexRpc

-- A place inside a value.
inductive Location.Step where
  | index (n : Nat)
  | member (name : String)
  deriving DecidableEq, Repr

abbrev Location := List Location.Step

def Location.Step.render : Location.Step → String
  | .index n => "[" ++ toString n ++ "]"
  | .member name => "." ++ name

def Location.render (l : Location) : String :=
  String.join (l.map Step.render)

-- Why a value does not match a shape, and where inside it. At a union that offers
-- neither alternative, the left one's fault is the cause.
inductive Misshape where
  | mismatch (place : Location) (expected : Shape) (found : Json.Kind)
  | missingField (place : Location) (name : String)
  | neither (place : Location) (left right : Shape) (cause : Misshape)

namespace Misshape

def under (step : Location.Step) : Misshape → Misshape
  | .mismatch place expected found => .mismatch (step :: place) expected found
  | .missingField place name => .missingField (step :: place) name
  | .neither place left right cause => .neither (step :: place) left right (cause.under step)

-- Every text starts with the name of what was decoded and the place inside it.
def toIssue (name : String) : Misshape → Issue
  | .mismatch place expected found =>
    .make .invalidParams (name ++ place.render ++ ": expected " ++ expected.display ++ ", found " ++ found.name)
  | .missingField place field =>
    .make .invalidParams (name ++ place.render ++ "." ++ field ++ ": missing required field")
  | .neither place left right cause =>
    .caused .invalidParams
      (name ++ place.render ++ ": value matches neither " ++ left.display ++ " nor " ++ right.display)
      (cause.toIssue name)

end Misshape

namespace Shape

def plainIf (matching : Bool) (shape : Shape) (v : Json) : Except Misshape Payload :=
  if matching then .ok (.json v) else .error (.mismatch [] shape v.kind)

def collectItems (decode : Json → Except Misshape Payload) : Nat → List Json → Except Misshape (List Payload)
  | _, [] => .ok []
  | n, v :: rest =>
    match decode v with
    | .error fault => .error (fault.under (.index n))
    | .ok p =>
      match collectItems decode (n + 1) rest with
      | .error fault => .error fault
      | .ok ps => .ok (p :: ps)

def collectMembers (decode : String → Json → Except Misshape Payload) :
    List (String × Json) → Except Misshape (List (String × Payload))
  | [] => .ok []
  | (name, v) :: rest =>
    match decode name v with
    | .error fault => .error (fault.under (.member name))
    | .ok p =>
      match collectMembers decode rest with
      | .error fault => .error fault
      | .ok ps => .ok ((name, p) :: ps)

-- The first required field, in the order of declaration, that the members lack.
def missingField? (fields : List (Field Shape)) (members : List (String × Json)) : Option String :=
  (requiredNames fields).find? fun name => (members.lookup name).isNone

mutual

-- Decoding keeps a value whole where the shape says nothing more, and at a union takes
-- the left alternative whenever it matches.
def decode : Shape → Json → Except Misshape Payload
  | .any, v => .ok (.json v)
  | .null, v => plainIf (v.kind = .null) .null v
  | .bool, v => plainIf (v.kind = .boolean) .bool v
  | .number, v => plainIf v.isNumber .number v
  | .integer, v => plainIf v.isInteger .integer v
  | .string, v => plainIf (v.kind = .string) .string v
  | .array items, v =>
    match v with
    | .array elements => (collectItems (fun e => decode items e) 0 elements).map .list
    | v => .error (.mismatch [] (.array items) v.kind)
  | .object fields, v =>
    match v with
    | .object members =>
      match missingField? fields members with
      | some name => .error (.missingField [] name)
      | none => (collectMembers (fun name e => decodeMember fields name e) members).map .record
    | v => .error (.mismatch [] (.object fields) v.kind)
  | .either left right, v =>
    match decode left v with
    | .ok p => .ok (.left p)
    | .error fault =>
      match decode right v with
      | .ok p => .ok (.right p)
      | .error _ => .error (.neither [] left right fault)

-- An undeclared member is kept whole, and so is a null where the field is optional.
def decodeMember : List (Field Shape) → String → Json → Except Misshape Payload
  | [], _, v => .ok (.json v)
  | ⟨declared, shape, presence⟩ :: rest, name, v =>
    if declared = name then
      if v = .null ∧ presence = .optional then .ok (.json v) else decode shape v
    else decodeMember rest name v

end

mutual

-- What it means to match, said without decoding.
def Matches : Shape → Json → Prop
  | .any, _ => True
  | .null, v => v = .null
  | .bool, v => ∃ b, v = .bool b
  | .number, v => ∃ n, v = .number n
  | .integer, v => ∃ n h, v = .number (.integer n h)
  | .string, v => ∃ s, v = .string s
  | .array items, v => ∃ elements, v = .array elements ∧ ∀ e ∈ elements, Matches items e
  | .object fields, v => ∃ members, v = .object members ∧
      (∀ name ∈ requiredNames fields, (members.lookup name).isSome) ∧
      ∀ m ∈ members, MemberMatches fields m.1 m.2
  | .either left right, v => Matches left v ∨ Matches right v

-- Only the first declaration of a name binds its member.
def MemberMatches : List (Field Shape) → String → Json → Prop
  | [], _, _ => True
  | ⟨declared, shape, presence⟩ :: rest, name, v =>
    if declared = name then (v = .null ∧ presence = .optional) ∨ Matches shape v
    else MemberMatches rest name v

end

end Shape

-- Decodes a value that its surroundings call `name`.
def Shape.decodeNamed (shape : Shape) (name : String) (v : Json) : Except Issue Payload :=
  match shape.decode v with
  | .ok p => .ok p
  | .error fault => .error (fault.toIssue name)

end DuplexRpc
