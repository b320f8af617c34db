import DuplexRpc.Proofs.Messages

namespace DuplexRpc

namespace Contract
variable {k : Contract} {pending : RequestId → Option String} {body : List UInt8} {n : Notification}

-- A notification carries what stands in its frame, whatever shape it was read by.
theorem decode_notification_params (decoded : k.decode pending body = .ok (.notification n)) :
    ∃ members, Json.read body = .ok (.object members) ∧ n.params.map Payload.toJson = members.lookup "params" := by
  obtain ⟨members, parses, read⟩ := decode_ok decoded
  refine ⟨members, parses, ?_⟩
  cases calls : Envelope.has members "method" with
  | true =>
    obtain ⟨_, params, _, found, ⟨_, _, other⟩ | ⟨_, same⟩⟩ := decodeCall_ok (decodeMembers_call calls read)
    · cases other
    · cases same
      exact decodeParams_toJson found
  | false =>
    obtain ⟨_, _, other⟩ := decodeResponse_ok (decodeMembers_response calls read)
    cases other

end Contract

namespace Connection
variable {n other : Notification}

theorem cancelledId?_eq (n : Notification) :
    cancelledId? n = ((n.params.map Payload.toJson).bind (·.member? "id")).bind RequestId.ofJson? := by
  obtain ⟨_, _ | p⟩ := n
  · rfl
  · exact p.named_toJson "id"

-- What a cancel notification does is up to the JSON form of its parameters.
theorem takeCancel_congr (same : n.params.map Payload.toJson = other.params.map Payload.toJson) (c : Connection) :
    c.takeCancel n = c.takeCancel other := by
  have id : cancelledId? n = cancelledId? other := by rw [cancelledId?_eq, cancelledId?_eq, same]
  have issue : badCancel n = badCancel other := by rw [badCancel, badCancel, same]
  rw [takeCancel, takeCancel, id, issue]

end Connection

namespace Payload
open Connection (cancelledId?)

-- Whoever reads a payload reads its JSON form: taken as a whole, by its fields or as an id. So
-- the structure that a shape has given a value cannot be told from the value, and the request
-- that a cancel notification names, with all that comes of it, is up to its frame alone.
theorem structure_is_invisible :
    (∀ p : Payload, p.intoJson = p.toJson ∧ (∀ name, (p.field? name).map toJson = p.toJson.member? name) ∧
      p.requestId? = RequestId.ofJson? p.toJson) ∧
    (∀ (s : Shape) (v : Json), s.Matches v → ∃ p, s.decode v = .ok p ∧ p.toJson = v ∧
      (∀ name, (p.field? name).map toJson = v.member? name) ∧ p.requestId? = RequestId.ofJson? v) ∧
    ∀ (k : Contract) (pending : RequestId → Option String) (body : List UInt8) (n : Notification),
      k.decode pending body = .ok (.notification n) → ∃ members, Json.read body = .ok (.object members) ∧
        cancelledId? n = ((members.lookup "params").bind (·.member? "id")).bind RequestId.ofJson? ∧
        ∀ c : Connection, c.takeCancel n = c.takeCancel ⟨n.method, (members.lookup "params").map .json⟩ := by
  refine ⟨fun p => ⟨p.intoJson_eq, fun name => p.field?_toJson name, p.requestId?_toJson⟩, ?_, ?_⟩
  · intro s v matching
    obtain ⟨p, read⟩ := (Shape.decode_ok_iff s v).mpr matching
    obtain rfl : p.toJson = v := Shape.decode_toJson s v p read
    exact ⟨p, read, rfl, fun name => p.field?_toJson name, p.requestId?_toJson⟩
  · intro k pending body n decoded
    obtain ⟨members, parses, same⟩ := Contract.decode_notification_params decoded
    refine ⟨members, parses, by rw [Connection.cancelledId?_eq, same], fun c => Connection.takeCancel_congr ?_ c⟩
    rw [same, Option.map_map]
    exact Option.map_id_apply.symm

-- An id inside a union inside a record inside a union, in a cancel notification of that shape
-- and, as it stands in the frame, of no shape.
theorem structure_is_invisible_nested :
    ∃ (s : Shape) (v : Json) (p : Payload) (body : List UInt8) (k : Contract) (n : Notification),
      s.decode v = .ok p ∧ p = .right (.record [("id", .right (.json (.ofInt64 7)))]) ∧
      (p.field? "id").map toJson = v.member? "id" ∧ v.member? "id" = some (.ofInt64 7) ∧
      k.decode (fun _ => none) body = .ok (.notification n) ∧ n.params = some p ∧
      cancelledId? n = some (.number 7) := by
  let s : Shape := .either .string (.object [⟨"id", .either .string .integer, .required⟩])
  let v : Json := .object [("id", .ofInt64 7)]
  let p : Payload := .right (.record [("id", .right (.json (.ofInt64 7)))])
  let body := Utf8.encode "\x7b\"method\":\"cancel\",\"params\":\x7b\"id\":7\x7d\x7d".toList
  let k : Contract := { served := { methods := [("cancel", ⟨"cancel", .notification, s, .any⟩)] } }
  have read : s.decode v = .ok p := rfl
  have matching : s.Matches v := (Shape.decode_ok_iff s v).mp ⟨p, read⟩
  have decoded : k.decode (fun _ => none) body = .ok (.notification ⟨"cancel", some p⟩) := by decide +kernel
  have parses : Json.read body = .ok (.object [("method", .string "cancel"), ("params", v)]) := by decide +kernel
  obtain ⟨q, same, _, fields, _⟩ := structure_is_invisible.2.1 s v matching
  obtain ⟨members, parses', named, _⟩ := structure_is_invisible.2.2 k _ body _ decoded
  obtain rfl := Json.object.inj (Except.ok.inj (parses'.symm.trans parses))
  obtain rfl := Except.ok.inj (read.symm.trans same)
  exact ⟨s, v, p, body, k, _, read, rfl, fields "id", by decide +kernel, decoded, rfl, by rw [named]; decide +kernel⟩

end Payload
end DuplexRpc
