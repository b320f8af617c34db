import DuplexRpc.Contract
import DuplexRpc.Proofs.Shape

namespace DuplexRpc

namespace Envelope

@[simp] theorem Fault.toIssue_id (id : Option RequestId) (fault : Fault) : (fault.toIssue id).id = id := by
  cases fault <;> rfl

theorem kindOf?_of_object {body : List UInt8} {members : Members} (parses : Json.read body = .ok (.object members)) :
    kindOf? body = some (kind members) := by
  simp [kindOf?, parses]

theorem has_of_id {members : Members} {id : RequestId} (named : id? members = some id) : has members "id" = true := by
  cases found : members.lookup "id" with
  | none => simp [id?, found] at named
  | some v => simp [has, found]

-- The id of a frame that is a call by its members and says which.
def claim? (body : List UInt8) : Option RequestId :=
  match Json.read body with
  | .ok (.object members) => if has members "method" then id? members else none
  | _ => none

theorem claim?_some {body : List UInt8} {id : RequestId} (claims : claim? body = some id) :
    ∃ members, Json.read body = .ok (.object members) ∧ has members "method" = true ∧ id? members = some id := by
  unfold claim? at claims
  split at claims
  · rename_i members parses
    split at claims
    · exact ⟨members, parses, by assumption, claims⟩
    · cases claims
  · cases claims

end Envelope

namespace Contract
open Envelope
variable {k : Contract} {pending : RequestId → Option String} {body : List UInt8} {members : Members} {m : Message}

theorem decode_of_object (parses : Json.read body = .ok (.object members)) :
    k.decode pending body = match k.decodeMembers pending members with
      | .ok m => .ok m
      | .error fault => .error (fault.toIssue (id? members)) := by
  cases decoded : k.decodeMembers pending members <;> simp only [decode, parses, decoded]

-- Only an object decodes, and an issue with one has the object's id.
theorem decode_ok (decoded : k.decode pending body = .ok m) :
    ∃ members, Json.read body = .ok (.object members) ∧ k.decodeMembers pending members = .ok m := by
  cases parses : Json.read body with
  | error fault => simp [decode, parses] at decoded
  | ok v =>
    cases v with
    | object members =>
      rw [decode_of_object parses] at decoded
      split at decoded
      · rename_i read
        exact ⟨members, rfl, (Except.ok.inj decoded) ▸ read⟩
      · cases decoded
    | _ => simp [decode, parses] at decoded

theorem decode_error_id {issue : Issue} (parses : Json.read body = .ok (.object members))
    (failed : k.decode pending body = .error issue) : issue.id = id? members := by
  rw [decode_of_object parses] at failed
  split at failed
  · cases failed
  · rw [← Except.error.inj failed]
    exact Fault.toIssue_id ..

theorem decodeCall_ok (decoded : k.decodeCall members = .ok m) :
    ∃ method params, members.lookup "method" = some (.string method) ∧
      k.decodeParams method (members.lookup "params") = .ok params ∧
      ((∃ id, id? members = some id ∧ m = .request ⟨id, method, params⟩) ∨
        (members.lookup "id" = none ∧ m = .notification ⟨method, params⟩)) := by
  unfold decodeCall at decoded
  split at decoded
  · rename_i method named
    split at decoded
    · cases decoded
    · split at decoded
      · cases decoded
      · rename_i id found
        obtain ⟨params, read, rfl⟩ := Shape.map_ok decoded
        exact ⟨method, params, named, read, .inl ⟨id, found, rfl⟩⟩
      · rename_i absent _
        obtain ⟨params, read, rfl⟩ := Shape.map_ok decoded
        exact ⟨method, params, named, read, .inr ⟨absent, rfl⟩⟩
  · cases decoded

theorem decodeResponse_ok (decoded : k.decodeResponse pending members = .ok m) :
    ∃ reply, k.decodeReply pending members = .ok reply ∧ m = .response ⟨id? members, reply⟩ := by
  unfold decodeResponse at decoded
  split at decoded
  · obtain ⟨reply, read, rfl⟩ := Shape.map_ok decoded
    exact ⟨reply, read, rfl⟩
  · obtain ⟨reply, read, rfl⟩ := Shape.map_ok decoded
    exact ⟨reply, read, rfl⟩
  · obtain ⟨reply, read, rfl⟩ := Shape.map_ok decoded
    exact ⟨reply, read, rfl⟩
  · cases decoded

theorem decodeMembers_call (calls : has members "method" = true) (decoded : k.decodeMembers pending members = .ok m) :
    k.decodeCall members = .ok m := by
  unfold decodeMembers at decoded
  split at decoded
  · cases decoded
  · simpa only [calls, if_true] using decoded

theorem decodeMembers_response (answers : has members "method" = false)
    (decoded : k.decodeMembers pending members = .ok m) : k.decodeResponse pending members = .ok m := by
  unfold decodeMembers at decoded
  split at decoded
  · cases decoded
  · rw [if_neg (by simp [answers])] at decoded
    split at decoded
    · exact decoded
    · cases decoded

-- What an answer carries is the member it was read from, in the shape of the call it answers.
inductive ReadAs (k : Contract) (pending : RequestId → Option String) (members : Members) : Reply → Prop where
  | result {id p v} : id? members = some id → members.lookup "result" = some v → members.lookup "error" = none →
      (k.resultShape pending id).decode v = .ok p → p.toJson = v → ReadAs k pending members (.result p)
  | error {e v} : members.lookup "error" = some v → members.lookup "result" = none →
      ResponseError.ofJson v = .ok e → ReadAs k pending members (.error e)

theorem decodeReply_ok {reply : Reply} (decoded : k.decodeReply pending members = .ok reply) :
    ReadAs k pending members reply := by
  unfold decodeReply at decoded
  split at decoded
  · cases decoded
  · cases decoded
  · rename_i v noResult found
    split at decoded <;> cases decoded
    rename_i e read
    exact .error found noResult read
  · rename_i v found noError
    split at decoded
    · cases decoded
    · rename_i id named
      split at decoded <;> cases decoded
      rename_i p read
      exact .result named found noError read (Shape.decode_toJson _ _ _ read)

end Contract
end DuplexRpc
