import DuplexRpc.Proofs.Reencoding

namespace DuplexRpc
open Envelope Json
variable {k : Contract} {pending : RequestId → Option String} {m : Message}

-- A message as it is read where nothing is known of its method: what it carries is plain JSON,
-- and the data of an error are those it is written with, unless they are null.
def Message.plain : Message → Message
  | .request r => .request { r with params := r.params.map fun p => .json p.toJson }
  | .notification n => .notification { n with params := n.params.map fun p => .json p.toJson }
  | .response ⟨id, .result p⟩ => .response ⟨id, .result (.json p.toJson)⟩
  | .response ⟨id, .error e⟩ =>
    .response ⟨id, .error { e with data := (e.data.map Json.sorted).filter (· ≠ .null) }⟩

-- A successful response says which request it answers.
def Message.Numbered : Message → Prop
  | .response ⟨id, .result _⟩ => id.isSome
  | _ => True

theorem Message.plain_head (m : Message) : m.plain.kind = m.kind ∧ m.plain.id? = m.id? ∧ m.plain.method? = m.method? := by
  rcases m with r | n | ⟨id, p | e⟩ <;> exact ⟨rfl, rfl, rfl⟩

namespace Contract

theorem decodeParams_unknown {method : String} (unknown : k.served.lookup method = none) (params : Option Json) :
    k.decodeParams method params = .ok (params.map .json) := by
  cases params with
  | none => rfl
  | some v => cases v <;> simp [decodeParams, paramsShape, unknown, Shape.decode, Payload.null]

theorem resultShape_unasked {id : RequestId} (unasked : pending id = none) : k.resultShape pending id = .any := by
  simp [resultShape, unasked]

theorem decodeCall_plain {method : String} (called : m.method? = some method)
    (unknown : k.served.lookup method = none) (valid : ¬ (k.validate = true ∧ method = ""))
    (reads : Json.read m.encode = .ok m.toJson) : k.decodeCall m.wire = .ok m.plain := by
  have named : m.wire.lookup "method" = some (.string method) := by rw [Message.lookup_wire_method, called]; rfl
  have numbered := m.id?_wire
  have id := Message.lookup_wire_read reads "id"
  have params := Message.lookup_wire_read reads "params"
  rw [decodeCall, named]
  simp only [if_neg valid, numbered, id, params, decodeParams_unknown unknown]
  cases m with
  | request r =>
    obtain rfl : r.method = method := Option.some.inj called
    obtain ⟨id, method, _ | p⟩ := r <;> rfl
  | notification n =>
    obtain rfl : n.method = method := Option.some.inj called
    obtain ⟨method, _ | p⟩ := n <;> rfl
  | response r => cases called

theorem decodeReply_plain {r : Response} (numbered : (Message.response r).Numbered)
    (unasked : ∀ id, r.id = some id → pending id = none)
    (reads : Json.read (Message.response r).encode = .ok (Message.response r).toJson) :
    (k.decodeReply pending (Message.response r).wire).map (fun reply => .response ⟨r.id, reply⟩) =
      .ok (Message.response r).plain := by
  have result := Message.lookup_wire_read reads "result"
  have error := Message.lookup_wire_read reads "error"
  have error' := Message.lookup_wire_error r
  have named := (Message.response r).id?_wire
  rw [decodeReply, named]
  obtain ⟨id, p | e⟩ := r
  · obtain ⟨id, rfl⟩ := Option.isSome_iff_exists.mp numbered
    have found : (Message.response ⟨some id, .result p⟩).wire.lookup "result" = some p.toJson := result
    have noError : (Message.response ⟨some id, .result p⟩).wire.lookup "error" = none := error
    have asked := resultShape_unasked (k := k) (unasked id rfl)
    simp only [found, noError, Message.id?, asked, Shape.decode, Except.map, Message.plain]
  · have noResult : (Message.response ⟨id, .error e⟩).wire.lookup "result" = none := result
    have whole : e.toJson.reread = e.toJson.sorted := Option.some.inj (error'.symm.trans error)
    have data := ResponseError.data_reread whole
    simp only [noResult, error', ResponseError.ofJson_reread, ResponseError.received, data, Except.map, Message.plain]

-- Every message that can be written is read where its method is unknown and its answer not
-- awaited, as long as its text reads as the value that was written.
theorem written_messages_are_read_plain (k : Contract) (pending : RequestId → Option String) (m : Message)
    (numbered : m.Numbered)
    (unknown : ∀ method, m.method? = some method → k.served.lookup method = none)
    (unasked : m.method? = none → ∀ id, m.id? = some id → pending id = none)
    (valid : k.validate = true → m.method? ≠ some "")
    (reads : Json.read m.encode = .ok m.toJson) :
    k.decode pending m.encode = .ok m.plain ∧
      m.plain.kind = m.kind ∧ m.plain.id? = m.id? ∧ m.plain.method? = m.method? := by
  refine ⟨?_, m.plain_head⟩
  rw [decode_encode reads]
  cases called : m.method? with
  | some method =>
    have accepted : ¬ (k.validate = true ∧ method = "") := by
      rintro ⟨validates, rfl⟩
      exact valid validates called
    rw [decodeMembers_wire (by rw [called]; rfl), decodeCall_plain called (unknown method called) accepted reads]
  | none =>
    cases m with
    | request r => cases called
    | notification n => cases called
    | response r => rw [decodeMembers_answer, decodeReply_plain numbered (unasked called) reads]

-- A call with a union inside, a result and a refusal that names no request and has null data,
-- where validation is on and another method is known.
theorem written_messages_are_read_plain_each :
    ∃ (k : Contract) (pending : RequestId → Option String) (call result refusal : Message),
      k.validate = true ∧ k.served.methods ≠ [] ∧
      k.decode pending call.encode = .ok call.plain ∧ call.plain ≠ call ∧
      k.decode pending result.encode = .ok result.plain ∧ result.plain ≠ result ∧
      k.decode pending refusal.encode = .ok refusal.plain ∧ refusal.plain ≠ refusal := by
  let k : Contract := { served := { methods := [("ping", ⟨"ping", .request, .null, .any⟩)] }, validate := true }
  let pending : RequestId → Option String := fun id => if id = .number 1 then some "ping" else none
  let items : Payload := .list [.left (.json (.string "x")), .right (.record [("deep", .json (.array [.null]))])]
  let call : Message := .request ⟨.number 1, "find", some (.record [("at", items), ("of", .json .null)])⟩
  let result : Message := .response ⟨some (.text "1"), .result items⟩
  let refusal : Message := .response ⟨none, .error ⟨-32600, "no", some .null⟩⟩
  have one := written_messages_are_read_plain k pending call trivial (by rintro _ ⟨⟩; rfl) (by rintro ⟨⟩)
    (by decide +kernel) (by decide +kernel)
  have two := written_messages_are_read_plain k pending result rfl (by rintro _ ⟨⟩) (by rintro _ _ ⟨⟩; rfl)
    (by decide +kernel) (by decide +kernel)
  have three := written_messages_are_read_plain k pending refusal trivial (by rintro _ ⟨⟩) (by rintro _ _ ⟨⟩)
    (by decide +kernel) (by decide +kernel)
  exact ⟨k, pending, call, result, refusal, rfl, by decide, one.1, by decide +kernel, two.1, by decide +kernel,
    three.1, by decide +kernel⟩

end Contract
end DuplexRpc
