import DuplexRpc.Codec.Basic

namespace DuplexRpc

-- The string that prints like a number is another id than the number.
inductive RequestId where
  | text (value : String)
  | number (value : Int64)
  deriving DecidableEq, Repr

namespace RequestId

def ofJson? : Json → Option RequestId
  | .string s => some (.text s)
  | .number n => n.toInt64?.map .number
  | _ => none

def toJson : RequestId → Json
  | .text s => .string s
  | .number n => .ofInt64 n

def display : RequestId → String
  | .text s => s
  | .number n => String.ofList (Decimal.ofInt n.toInt)

def codec : Codec RequestId where
  read v :=
    match ofJson? v with
    | some id => .ok id
    | none => .error (.noVariant "RequestId")
  write := toJson

end RequestId

-- What a message carries: plain JSON, or the structure a shape gave it, with the
-- alternative taken at every union.
inductive Payload where
  | json (value : Json)
  | list (items : List Payload)
  | record (fields : List (String × Payload))
  | left (inner : Payload)
  | right (inner : Payload)

namespace Payload

instance : Inhabited Payload := ⟨.json .null⟩

mutual

def same : Payload → Payload → Bool
  | .json a, .json b => a = b
  | .list as, .list bs => sameItems as bs
  | .record as, .record bs => sameFields as bs
  | .left a, .left b => same a b
  | .right a, .right b => same a b
  | _, _ => false

def sameItems : List Payload → List Payload → Bool
  | [], [] => true
  | a :: as, b :: bs => same a b && sameItems as bs
  | _, _ => false

def sameFields : List (String × Payload) → List (String × Payload) → Bool
  | [], [] => true
  | (k, a) :: as, (l, b) :: bs => k == l && same a b && sameFields as bs
  | _, _ => false

end

mutual

theorem same_iff : ∀ a b : Payload, same a b = true ↔ a = b
  | .json _, b => by cases b <;> simp [same]
  | .list as, b => by cases b <;> simp [same, sameItems_iff as]
  | .record as, b => by cases b <;> simp [same, sameFields_iff as]
  | .left a, b => by cases b <;> simp [same, same_iff a]
  | .right a, b => by cases b <;> simp [same, same_iff a]

theorem sameItems_iff : ∀ as bs : List Payload, sameItems as bs = true ↔ as = bs
  | [], bs => by cases bs <;> simp [sameItems]
  | a :: as, bs => by cases bs <;> simp [sameItems, same_iff a, sameItems_iff as]

theorem sameFields_iff : ∀ as bs : List (String × Payload), sameFields as bs = true ↔ as = bs
  | [], bs => by cases bs <;> simp [sameFields]
  | (k, a) :: as, bs => by
    cases bs with
    | nil => simp [sameFields]
    | cons b bs => cases b; simp [sameFields, same_iff a, sameFields_iff as, and_assoc]

end

instance : DecidableEq Payload := fun a b => decidable_of_iff _ (same_iff a b)

mutual

-- The JSON form; the unions leave no mark in it.
def toJson : Payload → Json
  | .json v => v
  | .list items => .array (itemsToJson items)
  | .record fields => .object (fieldsToJson fields)
  | .left inner => inner.toJson
  | .right inner => inner.toJson

def itemsToJson : List Payload → List Json
  | [] => []
  | item :: rest => item.toJson :: itemsToJson rest

def fieldsToJson : List (String × Payload) → List (String × Json)
  | [] => []
  | (name, value) :: rest => (name, value.toJson) :: fieldsToJson rest

end

mutual

-- The JSON form of a payload that is used up by it: its parts are moved, not copied.
def intoJson : Payload → Json
  | .json v => v
  | .list items => .array (itemsIntoJson items)
  | .record fields => .object (fieldsIntoJson fields)
  | .left inner => inner.intoJson
  | .right inner => inner.intoJson

def itemsIntoJson : List Payload → List Json
  | [] => []
  | item :: rest => item.intoJson :: itemsIntoJson rest

def fieldsIntoJson : List (String × Payload) → List (String × Json)
  | [] => []
  | (name, value) :: rest => (name, value.intoJson) :: fieldsIntoJson rest

end

def null : Payload := .json .null

-- A field of an object, looked for through unions.
def field? : Payload → String → Option Payload
  | .json v, name => (v.member? name).map .json
  | .list _, _ => none
  | .record fields, name => fields.lookup name
  | .left inner, name => inner.field? name
  | .right inner, name => inner.field? name

-- A scalar as a request id, looked for through unions.
def requestId? : Payload → Option RequestId
  | .json v => RequestId.ofJson? v
  | .list _ => none
  | .record _ => none
  | .left inner => inner.requestId?
  | .right inner => inner.requestId?

-- The alternative at the outermost union, if the payload is one.
def side? : Payload → Option Side
  | .left _ => some .left
  | .right _ => some .right
  | _ => none

-- The alternatives at the unions met before anything else.
def sides : Payload → List Side
  | .left inner => .left :: inner.sides
  | .right inner => .right :: inner.sides
  | _ => []

end Payload

-- Reading a payload as a typed value goes through its JSON form.
def Codec.ofPayload (c : Codec α) (p : Payload) : Except Misfit α :=
  c.read p.intoJson

-- A written value keeps its members in the order of their names.
def Codec.toPayload (c : Codec α) (a : α) : Payload :=
  .json (c.write a).sorted

end DuplexRpc
