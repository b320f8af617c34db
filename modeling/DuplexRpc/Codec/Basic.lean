import DuplexRpc.Json.Value
import DuplexRpc.Text.Quoted

namespace DuplexRpc

-- Why a JSON value is no value of a type.
inductive Misfit where
  | wrongType (found : Json) (expected : String)
  | wrongValue (found : Json) (expected : String)
  | wrongLength (length : Nat) (expected : String)
  | missingField (name : String)
  | duplicateField (name : String)
  | noVariant (type : String)
  | neither (left right : Misfit)
  deriving DecidableEq

namespace Misfit

-- A found value is named by its kind, a scalar with its content.
def describe : Json → String
  | .null => "null"
  | .bool true => "boolean `true`"
  | .bool false => "boolean `false`"
  | .number n =>
    let kind := if n.isInteger then "integer" else "floating point"
    kind ++ " `" ++ String.ofList n.render ++ "`"
  | .string s => "string " ++ Quoted.quote s
  | .array _ => "sequence"
  | .object _ => "map"

def message : Misfit → String
  | .wrongType found expected => "invalid type: " ++ describe found ++ ", expected " ++ expected
  | .wrongValue found expected => "invalid value: " ++ describe found ++ ", expected " ++ expected
  | .wrongLength length expected => "invalid length " ++ toString length ++ ", expected " ++ expected
  | .missingField name => "missing field `" ++ name ++ "`"
  | .duplicateField name => "duplicate field `" ++ name ++ "`"
  | .noVariant type => "data did not match any variant of untagged enum " ++ type
  | .neither left right =>
    "value matches neither alternative (left: " ++ left.message ++ "; right: " ++ right.message ++ ")"

end Misfit

-- How the values of a type are read from JSON and written to it. `sides` lists the
-- alternatives taken at the unions that a value goes through, outermost first.
inductive Side where
  | left | right
  deriving DecidableEq, Repr

structure Codec (α : Type) where
  read : Json → Except Misfit α
  write : α → Json
  sides : α → List Side := fun _ => []

namespace Codec

def json : Codec Json where
  read := .ok
  write := id

def string : Codec String where
  read
    | .string s => .ok s
    | v => .error (.wrongType v "a string")
  write := .string

def bool : Codec Bool where
  read
    | .bool b => .ok b
    | v => .error (.wrongType v "a boolean")
  write := .bool

-- An integer of a named type; one outside its range has the wrong value, not the
-- wrong type, and a real is never an integer.
def readInteger (name : String) (convert : Int → Option α) : Json → Except Misfit α
  | .number (.integer n bound) =>
    match convert n with
    | some a => .ok a
    | none => .error (.wrongValue (.number (.integer n bound)) name)
  | v => .error (.wrongType v name)

def int64 : Codec Int64 where
  read := readInteger "i64" fun n => if n < 0x8000000000000000 then some (Int64.ofInt n) else none
  write n := .number (.ofInt64 n)

def ofUnsigned (n : Nat) (h : n < 0x10000000000000000) : Json :=
  .number (.integer n ⟨by omega, by omega⟩)

def uint8 : Codec UInt8 where
  read := readInteger "u8" fun n => if 0 ≤ n ∧ n < 0x100 then some (UInt8.ofNat n.toNat) else none
  write n := ofUnsigned n.toNat (Nat.lt_trans n.toNat_lt (by decide))

def uint32 : Codec UInt32 where
  read := readInteger "u32" fun n => if 0 ≤ n ∧ n < 0x100000000 then some (UInt32.ofNat n.toNat) else none
  write n := ofUnsigned n.toNat (Nat.lt_trans n.toNat_lt (by decide))

def uint64 : Codec UInt64 where
  read := readInteger "usize" fun n => if 0 ≤ n then some (UInt64.ofNat n.toNat) else none
  write n := ofUnsigned n.toNat n.toNat_lt

def list (item : Codec α) : Codec (List α) where
  read
    | .array items => items.mapM item.read
    | v => .error (.wrongType v "a sequence")
  write items := .array (items.map item.write)

-- Null is the absent value.
def option (some : Codec α) : Codec (Option α) where
  read
    | .null => .ok none
    | v => (some.read v).map Option.some
  write
    | none => .null
    | .some a => some.write a
  sides
    | none => []
    | .some a => some.sides a

-- The left alternative is tried first; nothing in the written form tells which was taken.
def either (left : Codec α) (right : Codec β) : Codec (α ⊕ β) where
  read v :=
    match left.read v with
    | .ok a => .ok (.inl a)
    | .error misfitLeft =>
      match right.read v with
      | .ok b => .ok (.inr b)
      | .error misfitRight => .error (.neither misfitLeft misfitRight)
  write
    | .inl a => left.write a
    | .inr b => right.write b
  sides
    | .inl a => .left :: left.sides a
    | .inr b => .right :: right.sides b

end Codec
end DuplexRpc
