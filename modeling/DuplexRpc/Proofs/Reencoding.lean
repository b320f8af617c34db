import DuplexRpc.Proofs.Json.Ordered
import DuplexRpc.Proofs.Messages

namespace DuplexRpc
open Envelope Json
variable {k : Contract} {pending : RequestId → Option String} {body : List UInt8} {members : Members} {m : Message}

namespace Record
variable {δ : Type} {Good : Json → Prop} {Kept : δ → Prop} {fields : List (Field δ)} {draft whole : δ}

theorem putMembers_keeps
    (puts : ∀ field ∈ fields, ∀ d v d', Kept d → Good v → field.put d v = .ok d' → Kept d')
    (kept : Kept draft) {members : List (String × Json)} (each : ∀ m ∈ members, Good m.2)
    (read : putMembers fields draft members = .ok whole) : Kept whole := by
  induction members generalizing draft with
  | nil =>
    cases read
    exact kept
  | cons member rest ih =>
    obtain ⟨name, v⟩ := member
    obtain ⟨first, others⟩ := List.forall_mem_cons.mp each
    unfold putMembers at read
    split at read
    · exact ih kept others read
    · rename_i field found
      split at read
      · rename_i next put
        exact ih (puts field (List.mem_of_find?_eq_some found) draft v next kept first put) others read
      · cases read

theorem putItems_keeps {s : Record δ} {length : Nat}
    (puts : ∀ field ∈ fields, ∀ d v d', Kept d → Good v → field.put d v = .ok d' → Kept d')
    (kept : Kept draft) {items : List Json} (each : ∀ v ∈ items, Good v)
    (read : putItems s length draft fields items = .ok whole) : Kept whole := by
  induction fields generalizing draft items with
  | nil =>
    cases items with
    | nil =>
      cases read
      exact kept
    | cons v rest => cases read
  | cons field fields ih =>
    obtain ⟨here, later⟩ := List.forall_mem_cons.mp puts
    cases items with
    | nil =>
      unfold putItems at read
      split at read
      · cases read
      · exact ih later kept each read
    | cons v rest =>
      obtain ⟨first, others⟩ := List.forall_mem_cons.mp each
      unfold putItems at read
      split at read
      · rename_i next put
        exact ih later (here draft v next kept first put) others read
      · cases read

-- What every field keeps of the draft holds of whatever is read, from members or from items.
theorem read_keeps (Good : Json → Prop) (Kept : δ → Prop) {s : Record δ}
    (puts : ∀ field ∈ s.fields, ∀ d v d', Kept d → Good v → field.put d v = .ok d' → Kept d')
    (kept : Kept s.empty) {v : Json} (members : ∀ ms, v = .object ms → ∀ m ∈ ms, Good m.2)
    (items : ∀ vs, v = .array vs → ∀ w ∈ vs, Good w) (read : s.read v = .ok whole) : Kept whole := by
  cases v with
  | object ms =>
    simp only [Record.read] at read
    split at read
    · cases read
    · rename_i draft put
      have all := putMembers_keeps puts kept (members ms rfl) put
      split at read <;> cases read
      exact all
  | array vs => exact putItems_keeps puts kept (items vs rfl) read
  | _ => cases read

end Record

-- The data of an error that was read are in order, and never null.
def ResponseError.Draft.Sound (d : ResponseError.Draft) : Prop :=
  ∀ data, d.data = some data → data.Ordered ∧ data ≠ .null

theorem ResponseError.put_sound {field : Record.Field Draft} (listed : field ∈ record.fields) {d d' : Draft} {v : Json}
    (sound : d.Sound) (ordered : v.Ordered) (put : field.put d v = .ok d') : d'.Sound := by
  simp only [record, List.mem_cons, List.not_mem_nil, or_false] at listed
  rcases listed with rfl | rfl | rfl
  · obtain ⟨_, _, rfl⟩ := Shape.map_ok put
    exact sound
  · obtain ⟨_, _, rfl⟩ := Shape.map_ok put
    exact sound
  · obtain ⟨found, taken, rfl⟩ := Shape.map_ok put
    intro data present
    obtain rfl : found = some data := present
    cases v with
    | null => cases taken
    | _ =>
      cases taken
      exact ⟨ordered, by simp⟩

theorem ResponseError.ofJson_data {v : Json} {e : ResponseError} (ordered : v.Ordered) (read : ofJson v = .ok e) :
    ∀ data, e.data = some data → data.Ordered ∧ data ≠ .null := by
  have members : ∀ ms, v = .object ms → ∀ m ∈ ms, m.2.Ordered := by
    rintro ms rfl
    exact ordered.member
  have items : ∀ vs, v = .array vs → ∀ w ∈ vs, w.Ordered := by
    rintro vs rfl
    exact ordered.item
  have empty : record.empty.Sound := by nofun
  unfold ofJson at read
  split at read
  · cases read
  · rename_i code message data drafted
    cases read
    exact Record.read_keeps Json.Ordered Draft.Sound (fun _ listed _ _ _ => put_sound listed) empty members items drafted
  · cases read
  · cases read

-- Data whose text gives back what was written are read in the order of their members.
theorem ResponseError.data_reread {e : ResponseError} (same : e.toJson.reread = e.toJson.sorted) :
    e.data.map Json.reread = e.data.map Json.sorted := by
  obtain ⟨code, message, data⟩ := e
  cases data with
  | none => rfl
  | some data =>
    let members : Members := [("code", .ofInt64 code), ("message", .string message), ("data", data)]
    have distinct : (Table.keys members).Nodup := by simp [members, Table.keys]
    have found : (Json.object members).reread.member? "data" = (Json.object members).sorted.member? "data" :=
      congrArg (fun v => v.member? "data") same
    exact (lookup_reread distinct "data").symm.trans (found.trans (lookup_sorted distinct "data"))

-- An error whose text gives back what was written is read as it was.
theorem ResponseError.received_of_read {v : Json} {e : ResponseError} (ordered : v.Ordered) (read : ofJson v = .ok e)
    (same : e.toJson.reread = e.toJson.sorted) : e.received = e := by
  have sound := ofJson_data ordered read
  have arrived := data_reread same
  obtain ⟨code, message, data⟩ := e
  cases data with
  | none => rfl
  | some data =>
    obtain ⟨inOrder, present⟩ := sound data rfl
    have whole : data.reread = data := (Option.some.inj arrived).trans inOrder
    simp [received, whole, present]

namespace RequestId

theorem toJson_of_ofJson? {v : Json} {id : RequestId} (named : ofJson? v = some id) : v = id.toJson := by
  cases v with
  | string s =>
    cases named
    rfl
  | number x =>
    obtain ⟨n, read, rfl⟩ := Option.map_eq_some_iff.mp named
    cases x with
    | integer z range =>
      simp only [Number.toInt64?] at read
      split at read <;> cases read
      rename_i small
      simp only [toJson, ofInt64, Number.ofInt64, Int64.toInt_ofInt_of_le range.1 small]
    | real _ => cases read
  | _ => cases named

end RequestId

namespace Message

theorem wire_eq (reads : Json.read m.encode = .ok m.toJson) : m.wire = sortMembers m.members := by
  have same := read_encode reads
  rw [toJson_eq] at same
  exact (Json.object.inj same).symm

theorem lookup_wire_read (reads : Json.read m.encode = .ok m.toJson) (name : String) :
    m.wire.lookup name = m.members.lookup name := by
  rw [wire_eq reads, lookup_sortMembers, lookup_reverse m.members_distinct]

-- The member that holds what a message carries, unless that is an error.
def payloadName : Message → String
  | .request _ | .notification _ => "params"
  | .response _ => "result"

theorem member?_toJson (m : Message) (name : String) : m.toJson.member? name = m.members.lookup name := by
  rw [toJson_eq, ofMembers, member?, lookup_sortMembers, lookup_reverse m.members_distinct]

end Message

namespace Contract

-- A call is read from three members.
theorem decodeCall_congr {one two : Members} (method : one.lookup "method" = two.lookup "method")
    (id : one.lookup "id" = two.lookup "id") (params : one.lookup "params" = two.lookup "params") :
    k.decodeCall one = k.decodeCall two := by
  simp only [decodeCall, id?, method, id, params]

-- The members that a call is read from are those it is written with.
theorem lookup_call (decoded : k.decodeCall members = .ok m) :
    ∀ name ∈ ["method", "id", "params"], m.members.lookup name = members.lookup name := by
  obtain ⟨method, params, named, read, outcome⟩ := decodeCall_ok decoded
  have carried := decodeParams_toJson read
  rcases outcome with ⟨id, numbered, rfl⟩ | ⟨absent, rfl⟩
  · obtain ⟨v, found, isId⟩ := Option.bind_eq_some_iff.mp numbered
    obtain rfl := RequestId.toJson_of_ofJson? isId
    intro name listed
    simp only [List.mem_cons, List.not_mem_nil, or_false] at listed
    rcases listed with rfl | rfl | rfl
    · rw [named]
      rfl
    · rw [found]
      rfl
    · rw [← carried]
      cases params <;> rfl
  · intro name listed
    simp only [List.mem_cons, List.not_mem_nil, or_false] at listed
    rcases listed with rfl | rfl | rfl
    · rw [named]
      rfl
    · rw [absent]
      cases params <;> rfl
    · rw [← carried]
      cases params <;> rfl

theorem call_comes_back (called : m.method?.isSome) (decoded : k.decodeCall members = .ok m)
    (reads : Json.read m.encode = .ok m.toJson) : k.decodeMembers pending m.wire = .ok m := by
  have same : ∀ name ∈ ["method", "id", "params"], m.wire.lookup name = members.lookup name := by
    intro name listed
    rw [Message.lookup_wire_read reads]
    exact lookup_call decoded name listed
  rw [decodeMembers_wire called, ← decoded]
  apply decodeCall_congr
  · exact same "method" (by simp)
  · exact same "id" (by simp)
  · exact same "params" (by simp)

theorem reply_comes_back {r : Response} (ordered : (Json.object members).Ordered) (named : id? members = r.id)
    (readAs : ReadAs k pending members r.reply)
    (reads : Json.read (Message.response r).encode = .ok (Message.response r).toJson) :
    k.decodeReply pending (Message.response r).wire = .ok r.reply := by
  have result := Message.lookup_wire_result r
  have error := Message.lookup_wire_error r
  have named' := (Message.response r).id?_wire
  rw [decodeReply, result, error, named']
  have written := Message.lookup_wire_read reads
  obtain ⟨id, reply⟩ := r
  cases readAs with
  | @result id' p v numbered found noError read same =>
    have whole : p.toJson.reread = v := (Option.some.inj (result.symm.trans (written "result"))).trans same
    have mine : (Message.response ⟨id, .result p⟩).id? = some id' := named.symm.trans numbered
    simp only [mine, whole, read]
  | @error e v found noResult read =>
    have whole : e.toJson.reread = e.toJson.sorted := Option.some.inj (error.symm.trans (written "error"))
    have inOrder : v.Ordered := ordered.member _ (Table.mem_of_lookup found)
    simp only [ResponseError.ofJson_reread, ResponseError.received_of_read inOrder read whole]

-- What a message carries is written as it stood in the members it was read from.
theorem payload_kept (decoded : k.decodeMembers pending members = .ok m) :
    ∀ name ∈ ["params", "result"],
      m.members.lookup name = if name = m.payloadName then members.lookup name else none := by
  intro name listed
  simp only [List.mem_cons, List.not_mem_nil, or_false] at listed
  cases calls : has members "method" with
  | true =>
    have read := decodeMembers_call calls decoded
    have params := lookup_call read "params" (by simp)
    obtain ⟨method, found, _, _, ⟨id, _, rfl⟩ | ⟨_, rfl⟩⟩ := decodeCall_ok read
    · rcases listed with rfl | rfl
      · exact params
      · cases found <;> rfl
    · rcases listed with rfl | rfl
      · exact params
      · cases found <;> rfl
  | false =>
    obtain ⟨reply, read, rfl⟩ := decodeResponse_ok (decodeMembers_response calls decoded)
    cases decodeReply_ok read with
    | result _ found _ _ same =>
      rcases listed with rfl | rfl
      · rfl
      · exact (congrArg some same).trans found.symm
    | error _ absent _ =>
      rcases listed with rfl | rfl
      · rfl
      · exact absent.symm

theorem members_come_back (ordered : (Json.object members).Ordered) (decoded : k.decodeMembers pending members = .ok m)
    (reads : Json.read m.encode = .ok m.toJson) : k.decodeMembers pending m.wire = .ok m := by
  cases calls : has members "method" with
  | true =>
    have read := decodeMembers_call calls decoded
    refine call_comes_back ?_ read reads
    obtain ⟨_, _, _, _, ⟨_, _, rfl⟩ | ⟨_, rfl⟩⟩ := decodeCall_ok read <;> rfl
  | false =>
    obtain ⟨reply, read, rfl⟩ := decodeResponse_ok (decodeMembers_response calls decoded)
    rw [decodeMembers_answer, reply_comes_back ordered rfl (decodeReply_ok read) reads]
    rfl

-- What was read as a message and is written again is read as the same message, as long as
-- its text reads as the value that was written; and it carries what it was read from.
theorem accepted_message_comes_back (k : Contract) (pending : RequestId → Option String) (body : List UInt8) (m : Message)
    (decoded : k.decode pending body = .ok m) (reads : Json.read m.encode = .ok m.toJson) :
    k.decode pending m.encode = .ok m ∧
    ∃ members, Json.read body = .ok (.object members) ∧
      ∀ name ∈ ["params", "result"],
        m.toJson.member? name = if name = m.payloadName then members.lookup name else none := by
  obtain ⟨members, parses, read⟩ := decode_ok decoded
  refine ⟨?_, members, parses, fun name listed => ?_⟩
  · rw [decode_encode reads, members_come_back (read_ordered parses) read reads]
  · rw [Message.member?_toJson]
    exact payload_kept read name listed

-- A result whose shape offers two alternatives, in a text with blanks and out of order.
theorem accepted_message_comes_back_union :
    ∃ (k : Contract) (pending : RequestId → Option String) (body : List UInt8) (m : Message),
      k.decode pending body = .ok m ∧ Json.read m.encode = .ok m.toJson ∧ body ≠ m.encode ∧
      k.decode pending m.encode = .ok m := by
  let shape : Shape := .object [⟨"at", .either .integer .string, .required⟩, ⟨"of", .null, .optional⟩]
  let called : Registry := { methods := [("find", ⟨"find", .request, .any, shape⟩)] }
  let k : Contract := { called := called, validate := true }
  let pending : RequestId → Option String := fun _ => some "find"
  let text := " \x7b\"result\": \x7b\"of\": null, \"at\": \"x\"\x7d, \"id\": 7, \"jsonrpc\": \"2.0\"\x7d"
  let body := Utf8.encode text.toList
  let value : Payload := .record [("at", .right (.json (.string "x"))), ("of", .json .null)]
  let m : Message := .response ⟨some (.number 7), .result value⟩
  have decoded : k.decode pending body = .ok m := by decide +kernel
  have reads : Json.read m.encode = .ok m.toJson := by decide +kernel
  have other : body ≠ m.encode := by decide +kernel
  exact ⟨k, pending, body, m, decoded, reads, other, (accepted_message_comes_back k pending body m decoded reads).1⟩

end Contract

end DuplexRpc
