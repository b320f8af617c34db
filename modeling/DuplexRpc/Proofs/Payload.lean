import DuplexRpc.Payload
import DuplexRpc.Proofs.Json.Members

namespace DuplexRpc.Payload

mutual

theorem intoJson_eq : ∀ p : Payload, p.intoJson = p.toJson
  | .json _ => rfl
  | .list items => by rw [intoJson, toJson, itemsIntoJson_eq items]
  | .record fields => by rw [intoJson, toJson, fieldsIntoJson_eq fields]
  | .left inner => intoJson_eq inner
  | .right inner => intoJson_eq inner

theorem itemsIntoJson_eq : ∀ items : List Payload, itemsIntoJson items = itemsToJson items
  | [] => rfl
  | item :: rest => by rw [itemsIntoJson, itemsToJson, intoJson_eq item, itemsIntoJson_eq rest]

theorem fieldsIntoJson_eq : ∀ fields : List (String × Payload), fieldsIntoJson fields = fieldsToJson fields
  | [] => rfl
  | (name, value) :: rest => by rw [fieldsIntoJson, fieldsToJson, intoJson_eq value, fieldsIntoJson_eq rest]

end

theorem lookup_fieldsToJson (fields : List (String × Payload)) (name : String) :
    (fieldsToJson fields).lookup name = (fields.lookup name).map toJson := by
  have same : fieldsToJson fields = fields.map fun field => (field.1, field.2.toJson) := by
    induction fields with
    | nil => rfl
    | cons field rest ih => rw [fieldsToJson, ih]; rfl
  rw [same, Json.lookup_map]

-- A field of a payload is the member of its JSON form, whatever structure the payload has.
theorem field?_toJson (name : String) : ∀ p : Payload, (p.field? name).map toJson = p.toJson.member? name
  | .json v => by
    rw [field?, toJson, Option.map_map]
    exact Option.map_id_apply
  | .list _ => rfl
  | .record fields => (lookup_fieldsToJson fields name).symm
  | .left inner => field?_toJson name inner
  | .right inner => field?_toJson name inner

theorem requestId?_toJson : ∀ p : Payload, p.requestId? = RequestId.ofJson? p.toJson
  | .json _ => rfl
  | .list _ => rfl
  | .record _ => rfl
  | .left inner => requestId?_toJson inner
  | .right inner => requestId?_toJson inner

-- An id that is read off a field stands in the member.
theorem named_toJson (p : Payload) (name : String) :
    (p.field? name).bind requestId? = (p.toJson.member? name).bind RequestId.ofJson? := by
  rw [← field?_toJson, Option.bind_map]
  exact congrArg _ (funext requestId?_toJson)

end DuplexRpc.Payload
