import DuplexRpc.Connection.Inbound
import DuplexRpc.Proofs.Contract
import DuplexRpc.Proofs.Json.Exact
import DuplexRpc.Proofs.Payload

namespace DuplexRpc
open Envelope Json
variable {k : Contract} {pending : RequestId → Option String} {v : Json} {m : Message} {r : Request}

namespace Message

-- The members of an envelope, before they are put in order.
def members : Message → Members
  | .request r => [("jsonrpc", version), ("id", r.id.toJson), ("method", .string r.method)] ++ paramsMember r.params
  | .notification n => [("jsonrpc", version), ("method", .string n.method)] ++ paramsMember n.params
  | .response r => [("jsonrpc", version), ("id", (r.id.map RequestId.toJson).getD .null), match r.reply with
      | .result value => ("result", value.toJson)
      | .error e => ("error", e.toJson.sorted)]

theorem toJson_eq (m : Message) : m.toJson = .ofMembers m.members := by
  cases m <;> rfl

theorem members_distinct (m : Message) : (Table.keys m.members).Nodup := by
  rcases m with ⟨id, method, _ | p⟩ | ⟨method, _ | p⟩ | ⟨id, _ | _⟩ <;> simp [members, paramsMember, Table.keys]

-- The members of an envelope as they are read at the other end.
def wire (m : Message) : Members := sortMembers (rereadMembers m.members)

theorem lookup_wire (m : Message) (name : String) : m.wire.lookup name = (m.members.lookup name).map reread :=
  lookup_reread m.members_distinct name

theorem read_encode (parses : Json.read m.encode = .ok v) : v = .object m.wire := by
  have object : m.toJson = .object (sortMembers m.members) := m.toJson_eq
  rw [encode, object] at parses
  rw [read_octets parses]
  exact reread_ofMembers m.members

theorem id?_wire (m : Message) : Envelope.id? m.wire = m.id? := by
  rw [Envelope.id?, lookup_wire]
  rcases m with ⟨id, method, params⟩ | ⟨method, _ | p⟩ | ⟨_ | id, reply⟩
  · simp [members, Table.lookup_cons, toJson_reread, ofJson?_toJson, Message.id?]
  · simp [members, Table.lookup_cons, paramsMember, Message.id?]
  · simp [members, Table.lookup_cons, paramsMember, Message.id?]
  · simp [members, Table.lookup_cons, Message.id?, reread, RequestId.ofJson?]
  · simp [members, Table.lookup_cons, toJson_reread, ofJson?_toJson, Message.id?]

theorem lookup_wire_method (m : Message) : m.wire.lookup "method" = m.method?.map .string := by
  rw [lookup_wire]
  rcases m with r | n | ⟨id, _ | _⟩ <;> simp [members, Message.method?, reread, Table.lookup_cons]

theorem has_method_wire (m : Message) : has m.wire "method" = m.method?.isSome := by
  rw [has, lookup_wire_method, Option.isSome_map]

theorem lookup_wire_version (m : Message) : m.wire.lookup "jsonrpc" = some version := by
  rw [lookup_wire]
  rcases m with r | n | ⟨id, _ | _⟩ <;> rfl

theorem lookup_wire_params (r : Request) :
    (Message.request r).wire.lookup "params" = r.params.map fun p => p.toJson.reread := by
  rw [lookup_wire]
  obtain ⟨id, method, _ | p⟩ := r <;> rfl

theorem lookup_wire_params' (n : Notification) :
    (Message.notification n).wire.lookup "params" = n.params.map fun p => p.toJson.reread := by
  rw [lookup_wire]
  obtain ⟨method, _ | p⟩ := n <;> rfl

theorem lookup_wire_result (r : Response) : (Message.response r).wire.lookup "result" = match r.reply with
    | .result p => some p.toJson.reread
    | .error _ => none := by
  rw [lookup_wire]
  obtain ⟨id, _ | _⟩ := r <;> rfl

theorem lookup_wire_error (r : Response) : (Message.response r).wire.lookup "error" = match r.reply with
    | .result _ => none
    | .error e => some e.toJson.reread := by
  rw [lookup_wire]
  obtain ⟨id, p | e⟩ := r
  · rfl
  · exact congrArg some (reread_sorted e.toJson)

-- Only a request's text claims an answer, and it does so under the request's id.
theorem claim?_encode {id : RequestId} (claims : claim? m.encode = some id) : ∃ r, m = .request r ∧ r.id = id := by
  obtain ⟨members, parses, calls, named⟩ := claim?_some claims
  obtain rfl : members = m.wire := Json.object.inj (read_encode parses)
  rw [has_method_wire] at calls
  rw [id?_wire] at named
  cases m with
  | request r => exact ⟨r, rfl, Option.some.inj named⟩
  | notification n => cases named
  | response r => cases calls

end Message

namespace Contract

-- A text that parses is judged by what the envelope says.
theorem decode_encode (parses : Json.read m.encode = .ok v) :
    k.decode pending m.encode = match k.decodeMembers pending m.wire with
      | .ok m' => .ok m'
      | .error fault => .error (fault.toIssue m.id?) := by
  have object : Json.read m.encode = .ok (.object m.wire) := Message.read_encode parses ▸ parses
  cases decoded : k.decodeMembers pending m.wire <;>
    simp only [decode_of_object object, Message.id?_wire, decoded]

theorem decodeMembers_wire (called : m.method?.isSome) :
    k.decodeMembers pending m.wire = k.decodeCall m.wire := by
  have calls : has m.wire "method" = true := m.has_method_wire.trans called
  rw [decodeMembers, Message.lookup_wire_version]
  simp [calls]

-- A request arrives as it was sent, its parameters in the shape declared here.
theorem decodeMembers_request (named : r.method ≠ "") :
    k.decodeMembers pending (Message.request r).wire =
      (k.decodeParams r.method (r.params.map fun p => p.toJson.reread)).map fun params =>
        .request ⟨r.id, r.method, params⟩ := by
  have id := (Message.request r).id?_wire
  rw [decodeMembers_wire rfl, decodeCall, Message.lookup_wire_method, Message.lookup_wire_params, id]
  simp [Message.method?, Message.id?, named]

theorem decodeParams_toJson {method : String} {params : Option Json} {found : Option Payload}
    (decoded : k.decodeParams method params = .ok found) : found.map Payload.toJson = params := by
  unfold decodeParams at decoded
  split at decoded
  · cases decoded
    rfl
  · cases decoded
    rfl
  · split at decoded <;> cases decoded
    rename_i p read
    exact congrArg some (Shape.decode_toJson _ _ _ read)

-- A notification is never mistaken for another message, nor another message for one.
theorem decode_notification {n : Notification} (decoded : k.decode pending m.encode = .ok (.notification n)) :
    ∃ sent, m = .notification sent ∧ n.method = sent.method ∧
      n.params.map Payload.toJson = sent.params.map fun p => p.toJson.reread := by
  obtain ⟨members, parses, read⟩ := decode_ok decoded
  obtain rfl : members = m.wire := Json.object.inj (Message.read_encode parses)
  cases calls : has m.wire "method" with
  | false =>
    obtain ⟨reply, _, same⟩ := decodeResponse_ok (decodeMembers_response calls read)
    cases same
  | true =>
    obtain ⟨method, params, named, read', ⟨id, _, same⟩ | ⟨absent, same⟩⟩ :=
      decodeCall_ok (decodeMembers_call calls read)
    · cases same
    · cases same
      rw [Message.lookup_wire_method] at named
      rw [Message.lookup_wire] at absent
      rcases m with ⟨id, method', params'⟩ | sent | ⟨id, reply⟩
      · simp [Message.members, Table.lookup_cons] at absent
      · refine ⟨sent, rfl, ?_, ?_⟩
        · simpa [Message.method?] using named.symm
        · rw [Message.lookup_wire_params'] at read'
          exact decodeParams_toJson read'
      · cases named

end Contract

-- An error as it is read at the other end: null data are absent data.
def ResponseError.received (e : ResponseError) : ResponseError :=
  { e with data := (e.data.map reread).filter (· ≠ .null) }

theorem ResponseError.ofJson_reread (e : ResponseError) : ofJson e.toJson.reread = .ok e.received := by
  obtain ⟨code, message, data⟩ := e
  have whole : (Json.ofInt64 code).reread = .ofInt64 code := by
    rw [ofInt64, reread, Number.ofInt64, Number.reread?_integer]
    rfl
  have read : Codec.int64.read (.ofInt64 code) = .ok code := read_ofInt64 code
  have one : ¬ "message" < "code" := by decide
  have two : ¬ "data" < "code" := by decide
  have three : "data" < "message" := by decide
  cases data with
  | none =>
    have form : (ResponseError.toJson ⟨code, message, none⟩).reread =
        .object [("code", .ofInt64 code), ("message", .string message)] := by
      simp [toJson, reread, rereadMembers, ofMembers, sortMembers, insertMember, whole, one]
    rw [form]
    simp [ofJson, record, Record.read, Record.putMembers, read, Codec.string, Except.map, received]
  | some v =>
    have form : (ResponseError.toJson ⟨code, message, some v⟩).reread =
        .object [("code", .ofInt64 code), ("data", v.reread), ("message", .string message)] := by
      simp [toJson, reread, rereadMembers, ofMembers, sortMembers, insertMember, whole, one, two, three]
    rw [form]
    have data : ((Codec.option .json).read v.reread) = .ok (some v.reread |>.filter (· ≠ .null)) := by
      cases v.reread <;> rfl
    simp [ofJson, record, Record.read, Record.putMembers, read, data, Codec.string, Except.map, received]

namespace Contract

-- A reply as the caller's side reads it: a result in the shape of the call it answers.
def received (k : Contract) (pending : RequestId → Option String) (id : RequestId) : Reply → Except Envelope.Fault Reply
  | .result p => match (k.resultShape pending id).decode p.toJson.reread with
    | .ok p => .ok (.result p)
    | .error cause => .error (.result id cause)
  | .error e => .ok (.error e.received)

-- A response is read by its reply, whether or not it carries an id.
theorem decodeMembers_answer (k : Contract) (pending : RequestId → Option String) (r : Response) :
    k.decodeMembers pending (Message.response r).wire =
      (k.decodeReply pending (Message.response r).wire).map fun reply => .response ⟨r.id, reply⟩ := by
  have calls : has (Message.response r).wire "method" = false := (Message.response r).has_method_wire
  have named : id? (Message.response r).wire = r.id := (Message.response r).id?_wire
  have numbered : (Message.response r).wire.lookup "id" = some ((r.id.map RequestId.toJson).getD .null).reread := by
    rw [Message.lookup_wire]
    rfl
  have answers : has (Message.response r).wire "id" = true := by simp [has, numbered]
  rw [decodeMembers, Message.lookup_wire_version]
  simp only [ne_eq, not_true_eq_false, and_false, if_false, calls, Bool.false_eq_true, answers, Bool.or_true, if_true]
  rw [decodeResponse, numbered, named]
  obtain ⟨_ | id, reply⟩ := r
  · rfl
  · simp only [Option.map_some, Option.getD_some, toJson_reread]
    cases id <;> rfl

theorem decodeMembers_reply (k : Contract) (pending : RequestId → Option String) (id : RequestId) (reply : Reply) :
    k.decodeMembers pending (Message.response ⟨some id, reply⟩).wire =
      (k.received pending id reply).map fun reply => .response ⟨some id, reply⟩ := by
  let sent : Response := ⟨some id, reply⟩
  have named : id? (Message.response sent).wire = some id := (Message.response sent).id?_wire
  have result := Message.lookup_wire_result sent
  have error := Message.lookup_wire_error sent
  refine (k.decodeMembers_answer pending sent).trans (congrArg (Except.map _) ?_)
  rw [decodeReply, result, error]
  cases reply with
  | result p =>
    cases decoded : (k.resultShape pending id).decode p.toJson.reread <;> simp only [sent, named, received, decoded]
  | error e => simp only [sent, ResponseError.ofJson_reread, received]

theorem decodeParams_error {method : String} {params : Option Json} {fault : Envelope.Fault}
    (failed : k.decodeParams method params = .error fault) :
    ∃ v cause, params = some v ∧ v ≠ .null ∧ (k.paramsShape method).decode v = .error cause ∧
      fault = .params method cause := by
  unfold decodeParams at failed
  split at failed
  · cases failed
  · cases failed
  · rename_i v present
    split at failed <;> cases failed
    rename_i cause read
    exact ⟨v, cause, rfl, fun null => present null, read, rfl⟩

-- Parameters that get through are absent, null, or of the declared shape.
theorem decodeParams_ok {method : String} {params : Option Json} {found : Option Payload}
    (decoded : k.decodeParams method params = .ok found) :
    ∀ v, params = some v → v = .null ∨ (k.paramsShape method).Matches v := by
  rintro v rfl
  unfold decodeParams at decoded
  split at decoded
  · rename_i none'
    cases none'
  · rename_i null
    cases null
    exact .inl rfl
  · rename_i v' _ same
    cases same
    split at decoded <;> cases decoded
    rename_i p read
    exact .inr ((Shape.decode_ok_iff _ _).mp ⟨p, read⟩)

theorem decode_request {r' : Request} (named : r.method ≠ "")
    (decoded : k.decode pending (Message.request r).encode = .ok (.request r')) :
    r'.id = r.id ∧ r'.method = r.method ∧
      k.decodeParams r.method (r.params.map fun p => p.toJson.reread) = .ok r'.params := by
  obtain ⟨members, parses, read⟩ := decode_ok decoded
  obtain rfl : members = (Message.request r).wire := Json.object.inj (Message.read_encode parses)
  rw [decodeMembers_request named] at read
  obtain ⟨params, decoded', same⟩ := Shape.map_ok read
  cases same
  exact ⟨rfl, rfl, decoded'⟩

-- What is wrong with a request that was sent well is its parameters.
theorem decode_refused {issue : Issue} {id : RequestId} (named : r.method ≠ "")
    (claims : claim? (Message.request r).encode = some id)
    (failed : k.decode pending (Message.request r).encode = .error issue) :
    ∃ v cause, r.params.map (fun p => p.toJson.reread) = some v ∧ v ≠ .null ∧
      (k.paramsShape r.method).decode v = .error cause ∧
      issue = (Envelope.Fault.params r.method cause).toIssue (some r.id) := by
  obtain ⟨members, parses, _, _⟩ := claim?_some claims
  rw [decode_encode parses, decodeMembers_request named] at failed
  cases read : k.decodeParams r.method (r.params.map fun p => p.toJson.reread) with
  | ok params => simp [read, Except.map] at failed
  | error fault =>
    obtain ⟨v, cause, present, some', refused, rfl⟩ := decodeParams_error read
    refine ⟨v, cause, present, some', refused, ?_⟩
    simpa [read, Except.map, Message.id?] using failed.symm

theorem response_of_wire {id : RequestId} (answers : has m.wire "method" = false) (named : id? m.wire = some id) :
    ∃ reply, m = .response ⟨some id, reply⟩ := by
  rw [Message.has_method_wire] at answers
  rw [Message.id?_wire] at named
  cases m with
  | request r => cases answers
  | notification n => cases answers
  | response r =>
    obtain ⟨id', reply⟩ := r
    cases named
    exact ⟨reply, rfl⟩

-- An answer is read only from an answer.
theorem decode_answer {id : RequestId} {reply : Reply}
    (decoded : k.decode pending m.encode = .ok (.response ⟨some id, reply⟩)) :
    ∃ sent, m = .response ⟨some id, sent⟩ ∧ k.received pending id sent = .ok reply := by
  obtain ⟨members, parses, read⟩ := decode_ok decoded
  obtain rfl : members = m.wire := Json.object.inj (Message.read_encode parses)
  cases calls : has m.wire "method" with
  | true =>
    obtain ⟨_, _, _, _, ⟨_, _, other⟩ | ⟨_, other⟩⟩ := decodeCall_ok (decodeMembers_call calls read) <;> cases other
  | false =>
    obtain ⟨_, _, same⟩ := decodeResponse_ok (decodeMembers_response calls read)
    obtain ⟨named, _⟩ := Response.mk.inj (Message.response.inj same)
    obtain ⟨sent, rfl⟩ := response_of_wire calls named.symm
    rw [decodeMembers_reply] at read
    obtain ⟨_, received, same'⟩ := Shape.map_ok read
    cases same'
    exact ⟨sent, rfl, received⟩

theorem decode_misread {id : RequestId} {issue : Issue} (failed : k.decode pending m.encode = .error issue)
    (carried : issue.id = some id) (routed : kindOf? m.encode = some .response) :
    ∃ sent fault, m = .response ⟨some id, sent⟩ ∧ k.received pending id sent = .error fault ∧
      issue = fault.toIssue (some id) := by
  unfold kindOf? at routed
  split at routed
  · rename_i members parses
    obtain rfl : members = m.wire := Json.object.inj (Message.read_encode parses)
    have answers : has m.wire "method" = false := by
      cases calls : has m.wire "method" with
      | false => rfl
      | true =>
        simp only [Envelope.kind, calls, if_true] at routed
        split at routed <;> cases routed
    obtain ⟨sent, rfl⟩ := response_of_wire answers ((decode_error_id parses failed).symm.trans carried)
    rw [decode_encode parses, decodeMembers_reply] at failed
    cases received : k.received pending id sent with
    | ok reply => simp [received, Except.map] at failed
    | error fault =>
      refine ⟨sent, fault, rfl, received, ?_⟩
      simpa [received, Except.map, Message.id?] using failed.symm
  · cases routed

end Contract

namespace Payload

-- The value a payload stands for, and what its text reads as at the other end.
def value (p : Payload) : Json := p.toJson.sorted
def received (p : Payload) : Json := p.toJson.reread

-- Only reals that their own text does not give back arrive as others.
structure Arrives (sent got : Payload) : Prop where
  received : got.toJson = sent.received
  value : sent.toJson.Exact → got.value = sent.value

theorem arrives_of {sent got : Payload} (same : got.toJson = sent.received) : Arrives sent got := by
  refine ⟨same, fun exact' => ?_⟩
  rw [Payload.value, same, Payload.received, exact'.reread, sorted_sorted]
  rfl

end Payload

-- The request that a notification names by its parameters.
def Notification.named? (n : Notification) : Option RequestId :=
  (n.params.bind fun p => p.value.member? "id").bind RequestId.ofJson?

-- The cancellation that is understood is the one that was sent.
theorem Connection.cancelledId?_sent {sent n : Notification} {id : RequestId}
    (params : n.params.map Payload.toJson = sent.params.map fun p => p.toJson.reread)
    (named : Connection.cancelledId? n = some id) : sent.named? = some id := by
  obtain ⟨method, arrived⟩ := n
  obtain ⟨method', params'⟩ := sent
  cases arrived with
  | none => cases named
  | some q =>
    cases params' with
    | none => cases params
    | some p =>
      have same : q.toJson = p.toJson.reread := by simpa using params
      have stands : (q.field? "id").bind Payload.requestId? = some id := named
      rw [Payload.named_toJson, same, named_reread] at stands
      exact stands

end DuplexRpc
