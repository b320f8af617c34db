import DuplexRpc.Proofs.Correlator.Overtaking
import DuplexRpc.Proofs.Json.Exact

namespace DuplexRpc

theorem RequestId.toJson_inj {one two : RequestId} (same : one.toJson = two.toJson) : one = two := by
  have read := congrArg RequestId.ofJson? same
  rw [Json.ofJson?_toJson, Json.ofJson?_toJson] at read
  exact Option.some.inj read

theorem Message.mem_requests {messages : List Message} {r : Request} :
    r ∈ messages.filterMap Message.request? ↔ .request r ∈ messages := by
  rw [List.mem_filterMap]
  constructor
  · rintro ⟨m, present, asks⟩
    cases m with
    | request _ => exact Option.some.inj asks ▸ present
    | _ => cases asks
  · exact fun present => ⟨_, present, rfl⟩

namespace Outbound
variable {q : Outbound} {m new : Message} {standing : Standing}

theorem offer_entered (entered : m ∈ (q.offer new standing).2.accepted) : m ∈ q.accepted ∨ m ∈ [new] := by
  rcases q.offer_cases new standing with ⟨_, same⟩ | ⟨_, _, same⟩ | ⟨_, _, same⟩ <;> rw [same] at entered
  · exact .inl entered
  · exact List.mem_append.mp entered
  · exact .inl entered

end Outbound

namespace Correlator
variable {c : Correlator} {action : Action} {actions : List Action} {offers : List Message} {settings : CancelSettings} {m : Message}
  {n sent : Nat} {k : Call} {id : RequestId} {r : Request}

theorem cancelNotification_inj {one two : RequestId}
    (same : cancelNotification settings one = cancelNotification settings two) : one = two := by
  simp only [cancelNotification, Message.notification.injEq, Notification.mk.injEq, Option.some.injEq,
    Payload.json.injEq, Json.object.injEq, List.cons.injEq, Prod.mk.injEq, true_and, and_true] at same
  exact RequestId.toJson_inj same

-- A send offers its request, and a cancellation of a pending call the notification of it.
theorem mem_offered (asked : m ∈ c.offered (.act action)) :
    (∃ method params, action = .send method params ∧ m = .request ⟨c.fresh, method, params⟩) ∨
    ∃ id entry settings, action = .cancel id ∧ c.pending.lookup id = some entry ∧ c.cancellation = some settings ∧
      m = cancelNotification settings id := by
  cases action with
  | send method params =>
    simp only [offered] at asked
    split at asked
    · cases asked
    · exact .inl ⟨method, params, rfl, List.mem_singleton.mp asked⟩
  | cancel id =>
    simp only [offered] at asked
    split at asked
    · rename_i entry settings pending told
      exact .inr ⟨id, entry, settings, rfl, pending, told, List.mem_singleton.mp asked⟩
    · cases asked
  | _ => cases asked

theorem mem_offered_request (asks : .request r ∈ c.offered (.act action)) :
    r.id = c.fresh ∧ ∃ method params, action = .send method params := by
  rcases mem_offered asks with ⟨method, params, rfl, same⟩ | ⟨_, _, _, _, _, _, same⟩
  · obtain rfl := Message.request.inj same
    exact ⟨rfl, method, params, rfl⟩
  · cases same

theorem mem_offered_note (tells : cancelNotification settings id ∈ c.offered (.act action))
    (told : c.cancellation = some settings) : action = .cancel id ∧ ∃ entry, c.pending.lookup id = some entry := by
  rcases mem_offered tells with ⟨_, _, _, same⟩ | ⟨other, entry, settled, rfl, pending, told', same⟩
  · cases same
  · obtain rfl : settled = settings := Option.some.inj (told'.symm.trans told)
    obtain rfl := cancelNotification_inj same
    exact ⟨rfl, entry, pending⟩

-- A send makes a call of the request it offers, and nothing else makes one.
theorem Ledger.step_requests (ledger : Ledger c sent) (few : action.isSend → sent < 0x10000000000000000) :
    (c.step action).calls.map Call.request =
      c.calls.map Call.request ++ (c.offered (.act action)).filterMap Message.request? := by
  by_cases asks : ∃ method params, action = .send method params
  · obtain ⟨method, params, rfl⟩ := asks
    exact ledger.send_requests (few rfl) method params
  have silent : (c.offered (.act action)).filterMap Message.request? = [] := by
    refine List.filterMap_eq_nil_iff.mpr fun m present => ?_
    cases m with
    | request r => exact absurd (mem_offered_request present).2 asks
    | _ => rfl
  rw [silent, List.append_nil]
  refine List.ext_getElem? fun n => ?_
  rw [List.getElem?_map, List.getElem?_map]
  cases there : c.calls[n]? with
  | some k =>
    obtain ⟨k', found, same, _⟩ := step_stage ledger.linked action there
    rw [found, Option.map_some, Option.map_some, same.request]
  | none =>
    cases found : (c.step action).calls[n]? with
    | none => rfl
    | some k =>
      obtain ⟨method, params, same, _⟩ := step_new found there
      exact absurd ⟨method, params, same⟩ asks

-- The first outcome of a call is its last.
theorem Ledger.step_ended (ledger : Ledger c sent) (few : action.isSend → sent < 0x10000000000000000)
    (found : c.calls[n]? = some k) {outcome : CallOutcome} (ended : k.outcome = some outcome) :
    ∃ k', (c.step action).calls[n]? = some k' ∧ Call.Same k k' ∧ k'.outcome = some outcome := by
  have effect : Effect c (.act action) (c.step action) := move_effect c (.act action)
  generalize (c.step action) = after, asks : Move.act action = move at effect ⊢
  cases effect with
  | still still _ _ =>
    obtain ⟨k', found', same, outcome'⟩ := still.quiet n k found
    exact ⟨k', found', same, outcome'.trans ended⟩
  | sent method params =>
    cases asks
    exact ⟨k, ledger.send_calls (few rfl) method params found, .refl k, ended⟩
  | settled other given _ _ =>
    refine ⟨k, ?_, .refl k, ended⟩
    change (c.settle other given).calls[n]? = some k
    rw [settle_call ledger.linked other given found, if_neg]
    intro mine
    cases ended.symm.trans (ledger.linked.entry_call mine found).2
  | failed =>
    refine ⟨_, by rw [failAll_calls, found, Option.map_some], ?_⟩
    split
    · exact ⟨⟨rfl, rfl, rfl⟩, by simp [Call.finish, ended]⟩
    · exact ⟨.refl k, ended⟩
  | disconnected =>
    obtain ⟨k', found', same, outcome'⟩ := disconnect_quiet c n k found
    exact ⟨k', found', same, outcome'.trans ended⟩

theorem cancel_ends (linked : Linked c) {entry : PendingEntry} (pending : c.pending.lookup id = some entry) :
    ∃ k, (c.cancel id).2.calls[entry.call]? = some k ∧ k.id = id ∧ k.outcome = some (.error (.cancelled id)) := by
  obtain ⟨k, found, named, _⟩ := linked.awaits pending
  rw [cancel_fields]
  refine ⟨_, settle_call linked id _ found, ?_⟩
  rw [if_pos (by rw [pending, Option.map_some])]
  exact ⟨named, rfl⟩

theorem step_cancellation (c : Correlator) (action : Action) : (c.step action).cancellation = c.cancellation := by
  have settled : ∀ id outcome, (c.settle id outcome).cancellation = c.cancellation := by
    intro id outcome
    unfold settle
    split <;> rfl
  cases action with
  | send method params =>
    change (c.send method params).2.cancellation = _
    have kept : (c.recorded method).cancellation = c.cancellation := record_cancellation ..
    rcases c.send_cases method params with ⟨_, same⟩ | ⟨_, _, same⟩ | ⟨_, _, _, same⟩ | ⟨_, _, _, same⟩ <;> rw [same]
    · exact kept
    · exact kept
    · exact kept
  | turn ticket =>
    change (c.turn ticket).cancellation = _
    unfold turn
    split <;> rfl
  | abandon ticket => rfl
  | resolve id reply =>
    change (c.resolve id reply).2.cancellation = _
    rw [resolve_fields]
    exact settled ..
  | fail id error =>
    change (c.fail id error).2.cancellation = _
    rw [fail_eq]
    exact settled ..
  | cancel id =>
    change (c.cancel id).2.cancellation = _
    rw [cancel_fields]
    exact settled ..
  | failAll =>
    change c.failAll.2.cancellation = _
    rw [failAll_eq]
  | take =>
    rcases c.step_take with ⟨_, same⟩ | ⟨_, _, taken, same⟩ <;> rw [same]
    rw [take_fields taken]
  | disconnect => rfl
  | poll call =>
    change (c.poll call).2.cancellation = _
    rw [poll_fields]
  | forget call => rfl

theorem move_cancellation (c : Correlator) (move : Move) : (c.move move).cancellation = c.cancellation := by
  cases move with
  | act action => exact step_cancellation c action
  | offer message standing => rfl

-- What enters the queue is offered now, or has waited for its turn.
theorem entered_cases (entered : m ∈ (c.step action).outbound.accepted) :
    m ∈ c.outbound.accepted ∨ m ∈ c.offered (.act action) ∨ ∃ ticket, action = .turn ticket := by
  have queues : Queues c (.act action) (c.step action).outbound := move_queues c (.act action)
  generalize (c.step action).outbound = after at queues entered
  generalize asks : Move.act action = move at queues ⊢
  cases queues with
  | keeps => exact .inl entered
  | offers offered =>
    rw [offered]
    exact (Outbound.offer_entered entered).imp_right .inl
  | passes => exact (Outbound.offer_entered entered).imp_right .inl
  | @turns ticket =>
    cases asks
    exact .inr (.inr ⟨ticket, rfl⟩)
  | abandons => exact .inl (by simpa [Outbound.abandon, Outbound.remove] using entered)
  | takes taken => exact .inl (Outbound.take_accepted taken ▸ entered)
  | ends => exact .inl entered

-- Every request that entered the queue is that of an accepted call.
def Filed (c : Correlator) : Prop :=
  ∀ r, .request r ∈ c.outbound.accepted →
    ∃ (n : Nat) (k : Call), c.calls[n]? = some k ∧ k.stage = .accepted ∧ k.request = r

theorem send_entered {method : String} {params : Option Payload}
    (entered : .request r ∈ (c.send method params).2.outbound.accepted) :
    .request r ∈ c.outbound.accepted ∨
      ∃ (n : Nat) (k : Call), (c.send method params).2.calls[n]? = some k ∧ k.stage = .accepted ∧ k.request = r := by
  have same : (c.recorded method).outbound = c.outbound := record_outbound ..
  rcases c.send_cases method params with ⟨_, sent⟩ | ⟨_, _, sent⟩ | ⟨_, _, _, sent⟩ | ⟨_, _, _, sent⟩ <;>
    rw [sent] at entered ⊢
  · exact .inl entered
  · exact .inl (same ▸ entered)
  · rcases List.mem_append.mp entered with old | new
    · exact .inl old
    · obtain rfl := Message.request.inj (List.mem_singleton.mp new)
      exact .inr ⟨_, _, List.getElem?_concat_length, rfl, rfl⟩
  · exact .inl entered

-- The sender whose turn it is enters with the request of its call.
theorem turn_entered {ticket : Nat} (ledger : Ledger c sent) (placed : Placed c)
    (entered : .request r ∈ (c.turn ticket).outbound.accepted) :
    .request r ∈ c.outbound.accepted ∨
      ∃ (n : Nat) (k : Call), (c.turn ticket).calls[n]? = some k ∧ k.stage = .accepted ∧ k.request = r := by
  rw [turn_outbound] at entered
  rcases c.outbound.turn_cases ticket with ⟨w, waits, rfl, same⟩ | same | same <;> rw [same] at entered
  · rcases List.mem_append.mp entered with old | new
    · exact .inl old
    have asks : w.message = .request r := (List.mem_singleton.mp new).symm
    obtain ⟨n, k, found, _, stage⟩ := ledger.lines w waits r asks
    have there := placed.stands n k found
    rw [stage] at there
    obtain ⟨first, _⟩ := Outbound.turn_message (m := w.message) (by rw [same])
    have mine : Message.request k.request = .request r := asks ▸ Option.some.inj (there.symm.trans first)
    obtain ⟨k', found', alike, _, stage'⟩ := restage_call w.ticket .accepted found
    refine .inr ⟨n, k', ?_, by simpa [stage] using stage', alike.request.trans (Message.request.inj mine)⟩
    rw [turn, same]
    exact found'
  · exact .inl entered
  · exact .inl entered

theorem step_filed (ledger : Ledger c sent) (placed : Placed c) (filed : Filed c) (action : Action) :
    Filed (c.step action) := by
  intro r entered
  have kept : .request r ∈ c.outbound.accepted → ∃ (n : Nat) (k : Call), (c.step action).calls[n]? = some k ∧
      k.stage = .accepted ∧ k.request = r := by
    intro old
    obtain ⟨n, k, found, accepted, rfl⟩ := filed r old
    obtain ⟨k', found', same, stage⟩ := step_stage ledger.linked action found
    refine ⟨n, k', found', stage.trans ?_, same.request⟩
    rw [accepted]
    cases action <;> simp [stageAfter]
  rcases entered_cases entered with old | offered | ⟨ticket, rfl⟩
  · exact kept old
  · obtain ⟨_, method, params, rfl⟩ := mem_offered_request offered
    exact (send_entered entered).elim kept id
  · exact (turn_entered ledger placed entered).elim kept id

-- No request is offered behind the cancellation of its id.
def Behind (settings : CancelSettings) (one two : Message) : Prop :=
  ∀ r, two = .request r → one ≠ cancelNotification settings r.id

-- All that was offered, traced to the calls: each once, the requests those of the calls, and every
-- cancellation behind its request and with its call ended.
structure Traced (c : Correlator) (sent : Nat) (offers : List Message) : Prop where
  ledger : Ledger c sent
  placed : Placed c
  filed : Filed c
  requests : c.calls.map Call.request = offers.filterMap Message.request?
  distinct : offers.Nodup
  told : ∀ settings, c.cancellation = some settings → ∀ id, cancelNotification settings id ∈ offers →
    ∃ (n : Nat) (k : Call), c.calls[n]? = some k ∧ k.id = id ∧ k.outcome = some (.error (.cancelled id))
  behind : ∀ settings, c.cancellation = some settings → offers.Pairwise (Behind settings)

theorem Traced.fresh (traced : Traced c sent offers) (few : sent < 0x10000000000000000) (asks : .request r ∈ offers) :
    r.id ≠ c.fresh := by
  have present := Message.mem_requests.mpr asks
  rw [← traced.requests] at present
  obtain ⟨k, here, rfl⟩ := List.mem_map.mp present
  obtain ⟨n, found⟩ := List.getElem?_of_mem here
  exact traced.ledger.fresh_apart few found

theorem Traced.step_distinct (traced : Traced c sent offers) (few : action.isSend → sent < 0x10000000000000000) :
    (offers ++ c.offered (.act action)).Nodup := by
  refine List.nodup_append.mpr ⟨traced.distinct, ?_, ?_⟩
  · exact offered_pairwise c action _
  · rintro m old _ new rfl
    rcases mem_offered new with ⟨method, params, rfl, rfl⟩ | ⟨id, entry, settings, _, pending, told, rfl⟩
    · exact traced.fresh (few rfl) old rfl
    · obtain ⟨n, k, found, rfl, ended⟩ := traced.told settings told id old
      cases ended.symm.trans (traced.ledger.entry found pending).2

theorem Traced.step_told (traced : Traced c sent offers) (few : action.isSend → sent < 0x10000000000000000)
    (settled : c.cancellation = some settings) (tells : cancelNotification settings id ∈ offers ++ c.offered (.act action)) :
    ∃ (n : Nat) (k : Call), (c.step action).calls[n]? = some k ∧ k.id = id ∧
      k.outcome = some (.error (.cancelled id)) := by
  rcases List.mem_append.mp tells with old | new
  · obtain ⟨n, k, found, named, ended⟩ := traced.told settings settled id old
    obtain ⟨k', found', same, ended'⟩ := traced.ledger.step_ended few found ended
    exact ⟨n, k', found', same.id.trans named, ended'⟩
  · obtain ⟨rfl, entry, pending⟩ := mem_offered_note new settled
    obtain ⟨k, found, named, ended⟩ := cancel_ends traced.ledger.linked pending
    exact ⟨_, k, found, named, ended⟩

theorem Traced.step_behind (traced : Traced c sent offers) (few : action.isSend → sent < 0x10000000000000000)
    (settled : c.cancellation = some settings) : (offers ++ c.offered (.act action)).Pairwise (Behind settings) := by
  refine List.pairwise_append.mpr ⟨traced.behind settings settled, ?_, ?_⟩
  · exact offered_pairwise c action _
  · rintro _ old _ new r rfl rfl
    obtain ⟨named, method, params, rfl⟩ := mem_offered_request new
    obtain ⟨n, k, found, same, _⟩ := traced.told settings settled r.id old
    exact traced.ledger.fresh_apart (few rfl) found (same.trans named)

theorem Traced.step (traced : Traced c sent offers) (few : action.isSend → sent < 0x10000000000000000) :
    Traced (c.step action) (sent + if action.isSend then 1 else 0) (offers ++ c.offered (.act action)) := by
  refine ⟨traced.ledger.step few, step_placed traced.ledger.linked traced.placed action,
    step_filed traced.ledger traced.placed traced.filed action, ?_, traced.step_distinct few, ?_, ?_⟩
  · rw [traced.ledger.step_requests few, List.filterMap_append, traced.requests]
  · intro settings settled id tells
    exact traced.step_told few ((step_cancellation c action).symm.trans settled) tells
  · intro settings settled
    exact traced.step_behind few ((step_cancellation c action).symm.trans settled)

section Runs
variable (cancellation : Option CancelSettings) (capacity : Nat)

end Runs

end Correlator
end DuplexRpc
