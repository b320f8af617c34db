import DuplexRpc.Proofs.Connection.Moves
import DuplexRpc.Proofs.Reencoding

namespace DuplexRpc
open Envelope (Members has id? kindOf?)
variable {k : Contract} {pending : RequestId → Option String} {body : List UInt8} {members : Members} {m : Message}
  {issue : Issue} {id : RequestId}

theorem RequestId.ofJson?_eq_some {v : Json} : ofJson? v = some id ↔ v = id.toJson :=
  ⟨toJson_of_ofJson?, fun same => same ▸ Json.ofJson?_toJson id⟩

-- The id of an object is its member of that name, where this is written as an id is.
theorem Envelope.id?_eq_some : id? members = some id ↔ members.lookup "id" = some id.toJson := by
  simp [id?, Option.bind_eq_some_iff, RequestId.ofJson?_eq_some]

namespace Contract

theorem decodeMembers_kind (decoded : k.decodeMembers pending members = .ok m) : Envelope.kind members = m.kind := by
  cases calls : has members "method" with
  | true =>
    obtain ⟨method, params, _, _, ⟨id, named, rfl⟩ | ⟨absent, rfl⟩⟩ := decodeCall_ok (decodeMembers_call calls decoded)
    · simp [Envelope.kind, calls, Envelope.has_of_id named, Message.kind]
    · have unnamed : has members "id" = false := by simp [has, absent]
      simp [Envelope.kind, calls, unnamed, Message.kind]
  | false =>
    obtain ⟨reply, _, rfl⟩ := decodeResponse_ok (decodeMembers_response calls decoded)
    simp [Envelope.kind, calls, Message.kind]

theorem decode_kind (decoded : k.decode pending body = .ok m) : kindOf? body = some m.kind := by
  obtain ⟨members, parses, read⟩ := decode_ok decoded
  rw [Envelope.kindOf?_of_object parses, decodeMembers_kind read]

-- What is no object has no id, and no issue about it carries one.
theorem decode_error_object (failed : k.decode pending body = .error issue) (carried : issue.id = some id) :
    ∃ members, Json.read body = .ok (.object members) := by
  cases parses : Json.read body with
  | error fault =>
    simp only [decode, parses, Except.error.injEq] at failed
    cases failed
    cases carried
  | ok v =>
    cases v with
    | object members => exact ⟨members, rfl⟩
    | _ =>
      simp only [decode, parses, Except.error.injEq] at failed
      cases failed
      cases carried

theorem decode_error_names (failed : k.decode pending body = .error issue) :
    issue.id = some id ↔ ∃ members, Json.read body = .ok (.object members) ∧ members.lookup "id" = some id.toJson := by
  constructor
  · intro carried
    obtain ⟨members, parses⟩ := decode_error_object failed carried
    exact ⟨members, parses, Envelope.id?_eq_some.mp ((decode_error_id parses failed).symm.trans carried)⟩
  · rintro ⟨members, parses, named⟩
    exact (decode_error_id parses failed).trans (Envelope.id?_eq_some.mpr named)

end Contract

theorem Envelope.kind_of_named (named : id? members = some id) :
    kind members = if has members "method" then .request else .response := by
  simp [kind, has_of_id named]

namespace Connection

-- Under an id there are two ways to go and no third.
theorem takeFault_named (c : Connection) (parses : Json.read body = .ok (.object members))
    (named : id? members = some id) (carried : issue.id = some id) :
    c.takeFault body issue = if has members "method" then (c.report issue).handOver (rejection id issue)
      else { c.report issue with correlator := (c.correlator.fail id (.invalidResponse issue)).2 } := by
  have claimed := (Envelope.kindOf?_of_object parses).trans (congrArg some (Envelope.kind_of_named named))
  cases calls : has members "method" <;> simp only [calls, if_true, Bool.false_eq_true, if_false] at claimed ⊢ <;>
    simp [takeFault, carried, claimed, report, record]

-- The kind that a frame claims is that of the message it decodes to. A frame that does not
-- decode is known by its id wherever it has one, and what is known by its id is routed as
-- a request or as a response.
theorem frames_are_routed_as_they_claim (k : Contract) (pending : RequestId → Option String) (body : List UInt8) :
    (∀ m, k.decode pending body = .ok m → kindOf? body = some m.kind) ∧
    ∀ issue, k.decode pending body = .error issue →
      (∀ id, issue.id = some id ↔
        ∃ members, Json.read body = .ok (.object members) ∧ members.lookup "id" = some id.toJson) ∧
      ∀ id, issue.id = some id → ∃ members, Json.read body = .ok (.object members) ∧
        kindOf? body = some (if has members "method" then .request else .response) ∧
        ∀ c : Connection, c.takeFault body issue =
          if has members "method" then (c.report issue).handOver (rejection id issue)
          else { c.report issue with correlator := (c.correlator.fail id (.invalidResponse issue)).2 } := by
  refine ⟨fun m decoded => Contract.decode_kind decoded, fun issue failed => ⟨?_, fun id carried => ?_⟩⟩
  · exact fun id => Contract.decode_error_names failed
  · obtain ⟨members, parses⟩ := Contract.decode_error_object failed carried
    have named : id? members = some id := (Contract.decode_error_id parses failed).symm.trans carried
    refine ⟨members, parses, ?_, fun c => takeFault_named c parses named carried⟩
    rw [Envelope.kindOf?_of_object parses, Envelope.kind_of_named named]

-- The method of the first is no string, the second has neither a result nor an error: both
-- have an id, and each goes its way.
theorem frames_are_routed_as_they_claim_malformed :
    ∃ (call answer : List UInt8) (refused unread : Issue),
      Contract.decode {} (fun _ => none) call = .error refused ∧ refused.id = some (.number 1) ∧
      kindOf? call = some .request ∧
      Contract.decode {} (fun _ => none) answer = .error unread ∧ unread.id = some (.number 1) ∧
      kindOf? answer = some .response := by
  let call := Utf8.encode "\x7b\"id\":1,\"method\":2\x7d".toList
  let answer := Utf8.encode "\x7b\"id\":1\x7d".toList
  let refused : Issue := .make .invalidRequest "The \"method\" member must be a string" (some (.number 1))
  let unread : Issue :=
    .make .invalidRequest "Response must contain either \"result\" or \"error\"" (some (.number 1))
  have one : Contract.decode {} (fun _ => none) call = .error refused := by decide +kernel
  have two : Contract.decode {} (fun _ => none) answer = .error unread := by decide +kernel
  obtain ⟨asking, parses, asked, _⟩ := ((frames_are_routed_as_they_claim {} (fun _ => none) call).2 refused one).2 _ rfl
  obtain ⟨telling, parses', told, _⟩ :=
    ((frames_are_routed_as_they_claim {} (fun _ => none) answer).2 unread two).2 _ rfl
  have calls : Json.read call = .ok (.object [("id", .ofInt64 1), ("method", .ofInt64 2)]) := by decide +kernel
  have tells : Json.read answer = .ok (.object [("id", .ofInt64 1)]) := by decide +kernel
  obtain rfl := Json.object.inj (Except.ok.inj (parses.symm.trans calls))
  obtain rfl := Json.object.inj (Except.ok.inj (parses'.symm.trans tells))
  exact ⟨call, answer, refused, unread, one, rfl, asked, two, rfl, told⟩

end Connection
end DuplexRpc
