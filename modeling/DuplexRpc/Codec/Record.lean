import DuplexRpc.Codec.Basic

namespace DuplexRpc

-- A declared field of a structure that is read into drafts of type `δ`.
structure Record.Field (δ : Type) where
  name : String
  put : δ → Json → Except Misfit δ
  required : Bool
  isSet : δ → Bool

structure Record (δ : Type) where
  name : String
  fields : List (Record.Field δ)
  empty : δ

namespace Record

def title (name : String) : String := "struct " ++ name

def titleWithCount (name : String) (count : Nat) : String :=
  title name ++ " with " ++ toString count ++ " elements"

def tooLong (length : Nat) : Misfit := .wrongLength length "fewer elements in array"

-- Members are visited in the order of the object; unknown ones are passed over.
def putMembers (fields : List (Field δ)) (draft : δ) : List (String × Json) → Except Misfit δ
  | [] => .ok draft
  | (name, value) :: rest =>
    match fields.find? (·.name = name) with
    | none => putMembers fields draft rest
    | some field =>
      match field.put draft value with
      | .ok draft => putMembers fields draft rest
      | .error misfit => .error misfit

-- Items belong to the fields in the order of declaration; required ones must be there.
def putItems (s : Record δ) (length : Nat) (draft : δ) : List (Field δ) → List Json → Except Misfit δ
  | [], [] => .ok draft
  | [], _ :: _ => .error (tooLong length)
  | field :: fields, [] =>
    if field.required then .error (.wrongLength length (titleWithCount s.name s.fields.length))
    else putItems s length draft fields []
  | field :: fields, value :: rest =>
    match field.put draft value with
    | .ok draft => putItems s length draft fields rest
    | .error misfit => .error misfit

-- A faulty member is reported before a missing one.
def read (s : Record δ) : Json → Except Misfit δ
  | .object members =>
    match putMembers s.fields s.empty members with
    | .error misfit => .error misfit
    | .ok draft =>
      match s.fields.find? fun field => field.required && !field.isSet draft with
      | some field => .error (.missingField field.name)
      | none => .ok draft
  | .array items => putItems s items.length s.empty s.fields items
  | v => .error (.wrongType v (title s.name))

end Record
end DuplexRpc
