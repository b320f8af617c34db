import DuplexRpc.Proofs.Correlator.Effects

namespace DuplexRpc

-- What a later state still knows of a call: all but its stage, its outcome and whether it
-- was looked at.
structure Call.Same (k k' : Call) : Prop where
  id : k'.id = k.id
  method : k'.method = k.method
  params : k'.params = k.params

theorem Call.Same.refl (k : Call) : Call.Same k k := ⟨rfl, rfl, rfl⟩

theorem Call.Same.trans {k k' k'' : Call} (one : Call.Same k k') (two : Call.Same k' k'') : Call.Same k k'' :=
  ⟨two.id.trans one.id, two.method.trans one.method, two.params.trans one.params⟩

namespace Correlator
variable {c before after : Correlator} {n : Nat} {k : Call}

-- Every pending entry stands for one call that has no outcome yet. This holds whatever
-- ids are used, also where an id comes round again.
structure Linked (c : Correlator) : Prop where
  distinct : (Table.keys c.pending).Nodup
  awaits : ∀ {id entry}, c.pending.lookup id = some entry →
    ∃ k, c.calls[entry.call]? = some k ∧ k.id = id ∧ k.method = entry.method ∧ k.outcome = none

-- The call that an entry stands for is the one with its id, and is open.
theorem Linked.entry_call (linked : Linked c) {id : RequestId}
    (stands : (c.pending.lookup id).map PendingEntry.call = some n) (found : c.calls[n]? = some k) :
    k.id = id ∧ k.outcome = none := by
  obtain ⟨entry, pending, rfl⟩ := Option.map_eq_some_iff.mp stands
  obtain ⟨k', found', named, _, unanswered⟩ := linked.awaits pending
  obtain rfl : k' = k := Option.some.inj (found'.symm.trans found)
  exact ⟨named, unanswered⟩

-- No call is lost and none gets an outcome.
def Quiet (before after : Correlator) : Prop :=
  ∀ (n : Nat) (k : Call), before.calls[n]? = some k →
    ∃ k', after.calls[n]? = some k' ∧ Call.Same k k' ∧ k'.outcome = k.outcome

theorem Quiet.of_eq (same : after.calls = before.calls) : Quiet before after :=
  fun _ _ found => ⟨_, same ▸ found, .refl _, rfl⟩

theorem Quiet.of_map (change : Nat → Call → Call)
    (same : ∀ n, after.calls[n]? = (before.calls[n]?).map (change n))
    (kept : ∀ n k, Call.Same k (change n k) ∧ (change n k).outcome = k.outcome) : Quiet before after := by
  intro n k found
  exact ⟨change n k, by rw [same, found]; rfl, kept n k⟩

theorem Linked.quiet (linked : Linked before) (quiet : Quiet before after)
    (distinct : (Table.keys after.pending).Nodup)
    (fewer : ∀ {id entry}, after.pending.lookup id = some entry → before.pending.lookup id = some entry) :
    Linked after := by
  refine ⟨distinct, fun pending => ?_⟩
  obtain ⟨k, found, named, method, unanswered⟩ := linked.awaits (fewer pending)
  obtain ⟨k', found', same, outcome⟩ := quiet _ _ found
  exact ⟨k', found', same.id.trans named, same.method.trans method, outcome.trans unanswered⟩

theorem initial_linked (cancellation : Option CancelSettings) (capacity : Nat) :
    Linked (initial cancellation capacity) :=
  ⟨List.nodup_nil, fun pending => by simp [initial] at pending⟩

theorem offer_quiet (c : Correlator) (m : Message) (standing : Outbound.Standing) :
    Quiet c (c.offer m standing).2 :=
  .of_eq rfl

theorem offer_linked (linked : Linked c) (m : Message) (standing : Outbound.Standing) :
    Linked (c.offer m standing).2 :=
  linked.quiet (offer_quiet c m standing) linked.distinct id

theorem restage_quiet (c : Correlator) (outbound : Outbound) (ticket : Nat) (stage : Call.Stage) :
    Quiet c { c with outbound := outbound, calls := restage ticket stage c.calls } := by
  refine .of_map (fun _ k => if k.stage = .waiting ticket then { k with stage := stage } else k)
    (fun n => restage_get ticket stage c.calls n) fun n k => ?_
  split <;> exact ⟨⟨rfl, rfl, rfl⟩, rfl⟩

theorem turn_quiet (c : Correlator) (ticket : Nat) : Quiet c (c.turn ticket) := by
  unfold turn
  split
  · exact .of_eq rfl
  · exact restage_quiet c _ ticket .accepted

theorem turn_pending (c : Correlator) (ticket : Nat) : (c.turn ticket).pending = c.pending := by
  unfold turn
  split <;> rfl

theorem take_fields {m : Message} (taken : c.take = some (m, after)) : after = { c with outbound := after.outbound } := by
  obtain ⟨⟨message, outbound⟩, _, same⟩ := Option.map_eq_some_iff.mp taken
  obtain ⟨rfl, rfl⟩ := Prod.mk.inj same
  rfl

theorem step_take (c : Correlator) :
    (c.take = none ∧ c.step .take = c) ∨ ∃ m after, c.take = some (m, after) ∧ c.step .take = after := by
  cases taken : c.take with
  | none => exact .inl ⟨rfl, by simp [step, taken]⟩
  | some pair => exact .inr ⟨_, _, rfl, by simp [step, taken]⟩

theorem take_outbound {m : Message} (taken : c.take = some (m, after)) :
    c.outbound.take = some (m, after.outbound) := by
  obtain ⟨⟨message, outbound⟩, out, same⟩ := Option.map_eq_some_iff.mp taken
  obtain ⟨rfl, rfl⟩ := Prod.mk.inj same
  exact out

theorem queued_of_take {m : Message} (taken : c.take = some (m, after)) :
    ∃ rest, c.outbound.queued = m :: rest ∧ after.outbound.queued = rest ∧ after.outbound.accepted = c.outbound.accepted ∧
      after.outbound.receiving = c.outbound.receiving := by
  obtain ⟨rest, queued, left⟩ := Outbound.take_cases (take_outbound taken)
  exact ⟨rest, queued, by simp [left], by simp [left], by simp [left]⟩

theorem modify_quiet (c : Correlator) (call : Nat) :
    Quiet c { c with calls := c.calls.modify call fun k => { k with taken := true } } := by
  refine .of_map (fun n k => if call = n then { k with taken := true } else k)
    (fun n => List.getElem?_modify ..) fun n k => ?_
  split <;> exact ⟨⟨rfl, rfl, rfl⟩, rfl⟩

theorem poll_quiet (c : Correlator) (call : Nat) : Quiet c (c.poll call).2 := by
  unfold poll
  split
  · exact .of_eq rfl
  · split
    · exact .of_eq rfl
    · split
      · exact .of_eq rfl
      · exact modify_quiet c call

theorem poll_pending (c : Correlator) (call : Nat) : (c.poll call).2.pending = c.pending := by
  rw [poll_fields]

theorem disconnect_quiet (c : Correlator) : Quiet c c.disconnect := by
  refine .of_map (fun _ => _) (fun n => List.getElem?_map) fun n k => ?_
  split <;> exact ⟨⟨rfl, rfl, rfl⟩, rfl⟩

theorem disconnect_lookup (c : Correlator) (id : RequestId) :
    c.disconnect.pending.lookup id =
      if id ∈ waitingIds c.outbound.waiting then none else c.pending.lookup id :=
  lookup_eraseAll ..

theorem distinct_eraseAll (ids : List RequestId) {table : List (RequestId × PendingEntry)}
    (distinct : (Table.keys table).Nodup) :
    (Table.keys (ids.foldl (fun table id => Table.erase id table) table)).Nodup := by
  induction ids generalizing table with
  | nil => exact distinct
  | cons id rest ih => exact ih (Table.distinct_erase id distinct)

theorem disconnect_linked (linked : Linked c) : Linked c.disconnect := by
  refine linked.quiet (disconnect_quiet c) (distinct_eraseAll _ linked.distinct) fun pending => ?_
  rw [disconnect_lookup] at pending
  split at pending
  · cases pending
  · exact pending

-- Ends the call pending under an id, if there is one, and takes its entry out.
def settle (c : Correlator) (id : RequestId) (outcome : CallOutcome) : Correlator :=
  match c.pending.lookup id with
  | some entry => (c.forgetPending id).complete entry.call outcome
  | none => c

theorem settle_of_absent {id : RequestId} (outcome : CallOutcome) (absent : c.pending.lookup id = none) :
    c.settle id outcome = c := by
  simp [settle, absent]

@[simp] theorem settle_outbound (c : Correlator) (id : RequestId) (outcome : CallOutcome) :
    (c.settle id outcome).outbound = c.outbound := by
  unfold settle; split <;> rfl

@[simp] theorem settle_cancelled (c : Correlator) (id : RequestId) (outcome : CallOutcome) :
    (c.settle id outcome).cancelled = c.cancelled := by
  unfold settle; split <;> rfl

@[simp] theorem settle_nextId (c : Correlator) (id : RequestId) (outcome : CallOutcome) :
    (c.settle id outcome).nextId = c.nextId := by
  unfold settle; split <;> rfl

@[simp] theorem settle_length (c : Correlator) (id : RequestId) (outcome : CallOutcome) :
    (c.settle id outcome).calls.length = c.calls.length := by
  unfold settle
  split
  · exact complete_length ..
  · rfl

theorem settle_lookup (c : Correlator) (id other : RequestId) (outcome : CallOutcome) :
    (c.settle id outcome).pending.lookup other = if other = id then none else c.pending.lookup other := by
  unfold settle
  split
  · exact Table.lookup_erase ..
  · split
    · rename_i absent same
      exact same ▸ absent
    · rfl

-- A call is ended by its own id and by no other.
theorem settle_call (linked : Linked c) (id : RequestId) (outcome : CallOutcome) (found : c.calls[n]? = some k) :
    (c.settle id outcome).calls[n]? = some
      (if (c.pending.lookup id).map PendingEntry.call = some n then { k with outcome := some outcome } else k) := by
  unfold settle
  cases pending : c.pending.lookup id with
  | none => simpa using found
  | some entry =>
    have calls := complete_calls (c.forgetPending id) entry.call n outcome
    simp only [forgetPending, found, Option.map_some] at calls
    simp only [forgetPending, calls, Option.map_some, Option.some.injEq]
    split
    · rename_i here
      have stands : (c.pending.lookup id).map PendingEntry.call = some n := by rw [pending, Option.map_some, here]
      exact Call.finish_of_open outcome (linked.entry_call stands found).2
    · rfl

theorem settle_linked (linked : Linked c) (id : RequestId) (outcome : CallOutcome) :
    Linked (c.settle id outcome) := by
  constructor
  · unfold settle
    split
    · exact Table.distinct_erase id linked.distinct
    · exact linked.distinct
  · intro other entry pending
    rw [settle_lookup] at pending
    split at pending
    · cases pending
    · rename_i different
      obtain ⟨k, found, named, rest⟩ := linked.awaits pending
      refine ⟨k, ?_, named, rest⟩
      rw [settle_call linked id outcome found, if_neg]
      intro same
      exact different (named.symm.trans (linked.entry_call same found).1)

theorem resolve_fields (c : Correlator) (id : RequestId) (reply : Reply) :
    (c.resolve id reply).2 =
      { c.settle id (.ofReply reply) with cancelled := (c.resolve id reply).2.cancelled } := by
  cases pending : c.pending.lookup id with
  | some entry => simp [resolve, settle, pending]
  | none =>
    by_cases late : id ∈ c.cancelled <;> simp [resolve, settle, pending, late]

theorem fail_eq (c : Correlator) (id : RequestId) (error : CallError) :
    (c.fail id error).2 = c.settle id (.error error) := by
  cases pending : c.pending.lookup id <;> simp [fail, settle, pending]

theorem cancel_fields (c : Correlator) (id : RequestId) :
    (c.cancel id).2 = { c.settle id (.error (.cancelled id)) with
      cancelled := (c.cancel id).2.cancelled, outbound := (c.cancel id).2.outbound } := by
  cases pending : c.pending.lookup id with
  | none => simp [cancel, settle, pending]
  | some entry =>
    cases told : c.cancellation with
    | none => simp [cancel, settle, pending, told, complete, forgetPending]
    | some settings =>
      simp only [cancel, settle, pending, complete, forgetPending, told]
      split <;> rename_i answer <;> simp only [offer, Prod.mk.injEq] at answer <;> rw [← answer.2]

-- A cancellation says at most one thing to the peer.
theorem cancel_outbound (c : Correlator) (id : RequestId) :
    (c.cancel id).2.outbound = c.outbound ∨ ∃ entry settings, c.pending.lookup id = some entry ∧
      c.cancellation = some settings ∧
      (c.cancel id).2.outbound = (c.outbound.offer (cancelNotification settings id) .inLine).2 := by
  cases pending : c.pending.lookup id with
  | none => exact .inl (by simp [cancel, pending])
  | some entry =>
    cases told : c.cancellation with
    | none => exact .inl (by simp [cancel, pending, told, complete, forgetPending])
    | some settings =>
      refine .inr ⟨entry, settings, rfl, rfl, ?_⟩
      simp only [cancel, pending, complete, forgetPending, told]
      split <;> rename_i answer <;> simp only [offer, Prod.mk.injEq] at answer <;> rw [← answer.2]

theorem failAll_linked (c : Correlator) : Linked c.failAll.2 := by
  constructor
  · rw [failAll_eq]
    exact List.nodup_nil
  · intro id entry pending
    rw [failAll_eq] at pending
    simp at pending

theorem Linked.with_fields (linked : Linked c) (cancelled : List RequestId) (outbound : Outbound) :
    Linked { c with cancelled := cancelled, outbound := outbound } :=
  ⟨linked.distinct, linked.awaits⟩

-- The entry of a new call takes the place of any under the same id, whose call has ended.
theorem recorded_linked (linked : Linked c) (fresh : Call) {method' : String}
    (named : fresh.id = c.fresh) (method : fresh.method = method') (unanswered : fresh.outcome = none)
    (outbound : Outbound) :
    Linked { c.recorded method' with outbound := outbound, calls := (c.recorded method').calls ++ [fresh] } := by
  have length : (c.recorded method').calls.length = c.calls.length := record_length ..
  constructor
  · rw [show (c.recorded method').pending = _ from record_pending ..]
    exact Table.distinct_put _ _ linked.distinct
  · intro id entry pending
    rw [show (c.recorded method').pending = _ from record_pending .., Table.lookup_put] at pending
    split at pending
    · cases pending
      rename_i same
      exact ⟨fresh, by simp [← length], named.trans same.symm, method, unanswered⟩
    · rename_i different
      obtain ⟨k, found, named', method, unanswered⟩ := linked.awaits pending
      refine ⟨k, ?_, named', method, unanswered⟩
      have bound : entry.call < c.calls.length := (List.getElem?_eq_some_iff.mp found).1
      rw [List.getElem?_append_left (length ▸ bound), recorded, record_calls]
      have apart : ¬ (c.pending.lookup (.number c.nextId)).map PendingEntry.call = some entry.call := by
        intro clash
        exact different (named'.symm.trans (linked.entry_call clash found).1)
      simp [found, apart]

theorem grown_cases {calls : List Call} {new : Call} (found : (calls ++ [new])[n]? = some k) :
    calls[n]? = some k ∨ (n = calls.length ∧ k = new) := by
  rw [List.getElem?_append] at found
  split at found
  · exact .inl found
  · obtain ⟨bound, same⟩ := List.getElem?_eq_some_iff.mp found
    simp only [List.length_singleton] at bound
    exact .inr ⟨by omega, by simpa using same.symm⟩

theorem withdrawn_linked (linked : Linked c) (method : String) :
    Linked ((c.recorded method).forgetPending c.fresh) := by
  have full := recorded_linked linked ⟨c.fresh, method, none, .refused, none, false⟩ rfl rfl rfl c.outbound
  refine ⟨Table.distinct_erase _ full.distinct, fun {id entry} pending => ?_⟩
  simp only [forgetPending, Table.lookup_erase] at pending
  split at pending
  · cases pending
  · rename_i different
    obtain ⟨k, found, rest⟩ := full.awaits pending
    rcases grown_cases found with old | ⟨_, rfl⟩
    · exact ⟨k, old, rest⟩
    · exact absurd rest.1.symm different

theorem send_linked (linked : Linked c) (method : String) (params : Option Payload) :
    Linked (c.send method params).2 := by
  rcases c.send_cases method params with ⟨_, sent⟩ | ⟨_, _, sent⟩ | ⟨_, _, _, sent⟩ | ⟨_, _, _, sent⟩ <;> rw [sent]
  · exact ⟨linked.distinct, linked.awaits⟩
  · exact withdrawn_linked linked method
  · exact recorded_linked linked ⟨_, _, _, _, none, _⟩ rfl rfl rfl _
  · exact recorded_linked linked ⟨_, _, _, _, none, _⟩ rfl rfl rfl _

theorem step_linked (linked : Linked c) (action : Action) : Linked (c.step action) := by
  cases action with
  | send method params => exact send_linked linked method params
  | turn ticket =>
    exact linked.quiet (turn_quiet c ticket) (turn_pending c ticket ▸ linked.distinct)
      fun pending => turn_pending c ticket ▸ pending
  | abandon ticket => exact linked.quiet (restage_quiet c _ ticket .abandoned) linked.distinct id
  | resolve id reply =>
    change Linked (c.resolve id reply).2
    rw [resolve_fields]
    exact (settle_linked linked id _).with_fields _ _
  | fail id error =>
    change Linked (c.fail id error).2
    rw [fail_eq]
    exact settle_linked linked id _
  | cancel id =>
    change Linked (c.cancel id).2
    rw [cancel_fields]
    exact (settle_linked linked id _).with_fields _ _
  | failAll => exact failAll_linked c
  | take =>
    rcases c.step_take with ⟨_, same⟩ | ⟨_, _, taken, same⟩ <;> rw [same]
    · exact linked
    · rw [take_fields taken]
      exact linked.with_fields _ _
  | disconnect => exact disconnect_linked linked
  | poll call =>
    exact linked.quiet (poll_quiet c call) (poll_pending c call ▸ linked.distinct)
      fun pending => poll_pending c call ▸ pending
  | forget call => exact linked.quiet (modify_quiet c call) linked.distinct id

end Correlator
end DuplexRpc
