import DuplexRpc.Proofs.Routing

namespace DuplexRpc.Contract
open Envelope
variable {k : Contract} {pending : RequestId → Option String} {body : List UInt8} {members : Members} {m : Message}
  {issue : Issue} {fault : Fault}

-- Two ways to read the same frames, by the same shapes.
def strict (k : Contract) : Contract := { k with validate := true }

def lenient (k : Contract) : Contract := { k with validate := false }

-- What validation objects to, and in which order: the version of any object, then the method
-- of a call.
def breach? (members : Members) : Option Fault :=
  if members.lookup "jsonrpc" ≠ some Message.version then some (.version (members.lookup "jsonrpc"))
  else if members.lookup "method" = some (.string "") then some .methodEmpty
  else none

theorem breach?_eq_none : breach? members = none ↔
    members.lookup "jsonrpc" = some Message.version ∧ members.lookup "method" ≠ some (.string "") := by
  unfold breach?
  split
  · simp [*]
  · split <;> simp_all

theorem breach_code (objected : breach? members = some fault) (id : Option RequestId) :
    (fault.toIssue id).code = ErrorCode.invalidRequest.code := by
  unfold breach? at objected
  split at objected
  · cases objected
    rfl
  · split at objected
    · cases objected
      rfl
    · cases objected

-- The empty method is looked for before the id and the parameters are, all of which may be at
-- fault as well.
theorem strict_decodeCall : k.strict.decodeCall members =
    if members.lookup "method" = some (.string "") then .error .methodEmpty else k.lenient.decodeCall members := by
  cases named : members.lookup "method" with
  | none => simp [decodeCall, named]
  | some v =>
    cases v with
    | string method =>
      by_cases empty : method = ""
      · simp [decodeCall, named, strict, empty]
      · simp only [decodeCall, named, strict, lenient, empty, Option.some.injEq, Json.string.injEq]
        rfl
    | _ => simp [decodeCall, named]

theorem strict_decodeResponse : k.strict.decodeResponse pending members = k.lenient.decodeResponse pending members :=
  rfl

theorem decodeMembers_current (current : members.lookup "jsonrpc" = some Message.version) :
    k.decodeMembers pending members =
      if has members "method" then k.decodeCall members
      else if has members "result" || has members "error" || has members "id" then k.decodeResponse pending members
      else .error .noKind :=
  if_neg fun stale => stale.2 current

-- Validation comes before everything else that is read, and changes nothing of it.
theorem strict_decodeMembers : k.strict.decodeMembers pending members =
    match breach? members with
    | some fault => .error fault
    | none => k.lenient.decodeMembers pending members := by
  by_cases current : members.lookup "jsonrpc" = some Message.version
  · by_cases empty : members.lookup "method" = some (.string "")
    · have calls : has members "method" = true := by simp [has, empty]
      simp [decodeMembers_current current, breach?, current, calls, strict_decodeCall, empty]
    · have call : k.strict.decodeCall members = k.lenient.decodeCall members := strict_decodeCall.trans (if_neg empty)
      simp only [breach?_eq_none.mpr ⟨current, empty⟩]
      rw [decodeMembers_current current, decodeMembers_current current, call, strict_decodeResponse]
  · simp [decodeMembers, breach?, current, strict]

theorem strict_decode_ok : k.strict.decode pending body = .ok m ↔
    ∃ members, Json.read body = .ok (.object members) ∧ breach? members = none ∧
      k.lenient.decodeMembers pending members = .ok m := by
  constructor
  · intro decoded
    obtain ⟨members, parses, read⟩ := decode_ok decoded
    rw [strict_decodeMembers] at read
    split at read
    · cases read
    · rename_i clean
      exact ⟨members, parses, clean, read⟩
  · rintro ⟨members, parses, clean, read⟩
    rw [decode_of_object parses, strict_decodeMembers, clean]
    simp only [read]

-- The method of a message that is one is the member of its object.
theorem decodeMembers_method (decoded : k.decodeMembers pending members = .ok m) (method : String) :
    m.method? = some method ↔ members.lookup "method" = some (.string method) := by
  cases calls : has members "method" with
  | true =>
    obtain ⟨own, params, named, _, form⟩ := decodeCall_ok (decodeMembers_call calls decoded)
    obtain ⟨id, _, rfl⟩ | ⟨_, rfl⟩ := form <;> simp [Message.method?, named]
  | false =>
    obtain ⟨reply, _, rfl⟩ := decodeResponse_ok (decodeMembers_response calls decoded)
    have absent : members.lookup "method" = none := by simpa [has] using calls
    simp [Message.method?, absent]

-- Validation takes away some of the messages, those of another version or with an empty method,
-- and gives nothing new: what it lets through is what would be read without it. Where it refuses
-- a frame that would have been read, the issue says that the request is invalid and has the id
-- of the frame, if this is written as an id is.
theorem validation_only_refuses (k : Contract) (pending : RequestId → Option String) (body : List UInt8) :
    (∀ m, k.strict.decode pending body = .ok m ↔
      k.lenient.decode pending body = .ok m ∧
      (∃ members, Json.read body = .ok (.object members) ∧ members.lookup "jsonrpc" = some (.string "2.0")) ∧
      ∀ method, m.method? = some method → method ≠ "") ∧
    ∀ m issue, k.lenient.decode pending body = .ok m → k.strict.decode pending body = .error issue →
      issue.code = ErrorCode.invalidRequest.code ∧
      ∃ members, Json.read body = .ok (.object members) ∧
        ∀ id, issue.id = some id ↔ members.lookup "id" = some id.toJson := by
  refine ⟨fun m => ?_, fun m issue accepted refused => ?_⟩
  · rw [strict_decode_ok]
    constructor
    · rintro ⟨members, parses, clean, read⟩
      obtain ⟨current, named⟩ := breach?_eq_none.mp clean
      refine ⟨by rw [decode_of_object parses, read], ⟨members, parses, current⟩, fun method own empty => ?_⟩
      exact named (empty ▸ (decodeMembers_method read method).mp own)
    · rintro ⟨accepted, ⟨members, parses, current⟩, named⟩
      obtain ⟨_, same, read⟩ := decode_ok accepted
      obtain rfl := Json.object.inj (Except.ok.inj (same.symm.trans parses))
      refine ⟨_, parses, breach?_eq_none.mpr ⟨current, fun empty => ?_⟩, read⟩
      exact named "" ((decodeMembers_method read "").mpr empty) rfl
  · obtain ⟨members, parses, read⟩ := decode_ok accepted
    refine ⟨?_, members, parses, fun id => ?_⟩
    · rw [decode_of_object parses, strict_decodeMembers] at refused
      cases objected : breach? members with
      | none => simp [objected, read] at refused
      | some fault =>
        obtain rfl : fault.toIssue (id? members) = issue := by simpa [objected] using refused
        exact breach_code objected _
    · rw [decode_error_id parses refused, Envelope.id?_eq_some]

-- A request without a version is read without validation, and refused under its id with it.
theorem validation_only_refuses_unversioned :
    ∃ (body : List UInt8) (issue : Issue),
      (lenient {}).decode (fun _ => none) body = .ok (.request ⟨.number 1, "m", none⟩) ∧
      (strict {}).decode (fun _ => none) body = .error issue ∧
      issue.code = ErrorCode.invalidRequest.code ∧ issue.id = some (.number 1) := by
  let body := Utf8.encode "\x7b\"id\":1,\"method\":\"m\"\x7d".toList
  let issue : Issue :=
    .make .invalidRequest "The \"jsonrpc\" member must be \"2.0\", found nothing" (some (.number 1))
  have accepted : (lenient {}).decode (fun _ => none) body = .ok (.request ⟨.number 1, "m", none⟩) := by
    decide +kernel
  have refused : (strict {}).decode (fun _ => none) body = .error issue := by decide +kernel
  obtain ⟨code, members, parses, named⟩ :=
    (validation_only_refuses {} (fun _ => none) body).2 _ issue accepted refused
  have read : Json.read body = .ok (.object [("id", .ofInt64 1), ("method", .string "m")]) := by decide +kernel
  obtain rfl := Json.object.inj (Except.ok.inj (parses.symm.trans read))
  exact ⟨body, issue, accepted, refused, code, (named (.number 1)).mpr rfl⟩

end DuplexRpc.Contract
