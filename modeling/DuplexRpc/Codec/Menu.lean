import DuplexRpc.Payload
import DuplexRpc.Json.Writer
import DuplexRpc.Codec.Record

namespace DuplexRpc

-- A piece of code in a named language.
structure MarkedString where
  language : String
  value : String
  deriving DecidableEq, Repr

-- A place in a text.
structure Position where
  line : UInt32
  character : UInt32
  deriving DecidableEq, Repr

-- Two required fields, read into a pair of options.
def Record.ofTwo (name first second : String) (c : Codec α) (d : Codec β) : Record (Option α × Option β) where
  name := name
  empty := (none, none)
  fields := [
    ⟨first, fun p v => (c.read v).map fun a => (some a, p.2), true, (·.1.isSome)⟩,
    ⟨second, fun p v => (d.read v).map fun b => (p.1, some b), true, (·.2.isSome)⟩]

def Codec.ofTwo (name first second : String) (c : Codec α) (d : Codec β) : Codec (α × β) where
  read v :=
    match (Record.ofTwo name first second c d).read v with
    | .error misfit => .error misfit
    | .ok (some a, some b) => .ok (a, b)
    | .ok (none, _) => .error (.missingField first)
    | .ok (_, none) => .error (.missingField second)
  write p := .object [(first, c.write p.1), (second, d.write p.2)]

def MarkedString.codec : Codec MarkedString where
  read v := ((Codec.ofTwo "MarkedString" "language" "value" .string .string).read v).map fun p => ⟨p.1, p.2⟩
  write m := (Codec.ofTwo "MarkedString" "language" "value" .string .string).write (m.language, m.value)

def Position.codec : Codec Position where
  read v := ((Codec.ofTwo "Position" "line" "character" .uint32 .uint32).read v).map fun p => ⟨p.1, p.2⟩
  write p := (Codec.ofTwo "Position" "line" "character" .uint32 .uint32).write (p.line, p.character)

-- Types that a payload may be read as by name.
inductive TypeName where
  | string | int64 | uint8 | bool | int64s | markedString | position | optionalInt64
  | stringOrMarked | requestId | json
  deriving DecidableEq, Repr

def Codec.stringOrMarked : Codec (String ⊕ MarkedString) :=
  .either .string MarkedString.codec

-- Reading as a type and writing again.
def Codec.retype (c : Codec α) (p : Payload) : Except Misfit Payload :=
  (c.ofPayload p).map c.toPayload

def TypeName.retype : TypeName → Payload → Except Misfit Payload
  | .string => Codec.string.retype
  | .int64 => Codec.int64.retype
  | .uint8 => Codec.uint8.retype
  | .bool => Codec.bool.retype
  | .int64s => (Codec.list .int64).retype
  | .markedString => MarkedString.codec.retype
  | .position => Position.codec.retype
  | .optionalInt64 => (Codec.option .int64).retype
  | .stringOrMarked => Codec.stringOrMarked.retype
  | .requestId => RequestId.codec.retype
  | .json => Codec.json.retype

def versionText : String := "2.0"

-- The protocol version, of which there is one.
def Codec.version : Codec Unit where
  read
    | .string s => if s = versionText then .ok () else .error (.wrongValue (.string s) "\"2.0\"")
    | v => .error (.wrongType v "a string")
  write _ := .string versionText

-- What can be asked of a value of a union type.
structure UnionView where
  text : String
  sides : List Side
  left : Option String
  right : Option String
  leftMapped : String
  rightMapped : String
  folded : String

namespace UnionView

-- The sides are mapped to texts marked by their letters.
def of (c : Codec α) (d : Codec β) (u : α ⊕ β) : UnionView :=
  let ofLeft (a : α) : String := "L" ++ (c.write a).text
  let ofRight (b : β) : String := "R" ++ (d.write b).text
  { text := ((Codec.either c d).write u).text
    sides := (Codec.either c d).sides u
    left := u.getLeft?.map fun a => (c.write a).text
    right := u.getRight?.map fun b => (d.write b).text
    leftMapped := ((Codec.either .string d).write (u.map ofLeft id)).text
    rightMapped := ((Codec.either c .string).write (u.map id ofRight)).text
    folded := u.elim ofLeft ofRight }

def isLeft (v : UnionView) : Bool := v.left.isSome

def isRight (v : UnionView) : Bool := v.right.isSome

def read (c : Codec α) (d : Codec β) (v : Json) : Except Misfit UnionView :=
  ((Codec.either c d).read v).map (of c d)

end UnionView

-- Unions by name.
inductive UnionName where
  | stringMarked | markedString | int64Ints | uint8Int64 | boolOrInt64String | positionMarked
  deriving DecidableEq, Repr

def UnionName.view : UnionName → Json → Except Misfit UnionView
  | .stringMarked => UnionView.read .string MarkedString.codec
  | .markedString => UnionView.read MarkedString.codec .string
  | .int64Ints => UnionView.read .int64 (.list .int64)
  | .uint8Int64 => UnionView.read .uint8 .int64
  | .boolOrInt64String => UnionView.read .bool (.either .int64 .string)
  | .positionMarked => UnionView.read Position.codec MarkedString.codec

end DuplexRpc
