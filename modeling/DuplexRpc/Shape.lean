import DuplexRpc.Json.Value

namespace DuplexRpc

inductive Presence where
  | required | optional
  deriving DecidableEq, Repr

-- A declared field of an object shape; `σ` is the type of shapes.
structure Shape.Field (σ : Type) where
  name : String
  shape : σ
  presence : Presence

-- What a parameter or a result is expected to be. Names may be declared more than once.
inductive Shape where
  | any
  | null
  | bool
  | number
  | integer
  | string
  | array (items : Shape)
  | object (fields : List (Shape.Field Shape))
  | either (left right : Shape)

namespace Shape

instance : Inhabited Shape := ⟨.any⟩

def requiredNames (fields : List (Field Shape)) : List String :=
  (fields.filter (·.presence = .required)).map (·.name)

-- An object shape shows its required fields only.
def display : Shape → String
  | .any => "any"
  | .null => "null"
  | .bool => "boolean"
  | .number => "number"
  | .integer => "integer"
  | .string => "string"
  | .array items => "array of " ++ items.display
  | .object fields =>
    match requiredNames fields with
    | [] => "object"
    | names => "object with " ++ ", ".intercalate names
  | .either left right => left.display ++ " or " ++ right.display

-- The first declaration of a name counts.
def field? : Shape → String → Option (Field Shape)
  | .object fields, name => fields.find? (·.name = name)
  | _, _ => none

end Shape
end DuplexRpc
