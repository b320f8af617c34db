import Mathlib.Data.List.Induction
import DuplexRpc.Proofs.Correlator.Linked

namespace DuplexRpc.Correlator
variable {c before after : Correlator} {n sent : Nat} {k : Call} {action : Action}
  {id : RequestId}

-- The outcome an action gives to the call with an id, if it ends that call.
def settled (id : RequestId) : Action → Option CallOutcome
  | .resolve other reply => if other = id then some (.ofReply reply) else none
  | .fail other error => if other = id then some (.error error) else none
  | .cancel other => if other = id then some (.error (.cancelled id)) else none
  | .failAll => some (.error .connectionClosed)
  | _ => none

-- The id that an action names.
def Action.named? : Action → Option RequestId
  | .resolve id _ => some id
  | .fail id _ => some id
  | .cancel id => some id
  | _ => none

def Action.isSend : Action → Bool
  | .send .. => true
  | _ => false

def sends (actions : List Action) : Nat := actions.countP (·.isSend)

theorem settled_of_other (different : action.named? ≠ some id) (single : action ≠ .failAll) :
    settled id action = none := by
  cases action <;> simp_all [settled, Action.named?]

-- The id of the send that comes after `sent` others.
def idAfter (sent : Nat) : RequestId := .number (Int64.ofNat (sent + 1))

theorem idAfter_inj {one two : Nat} (small : one < 0x10000000000000000) (other : two < 0x10000000000000000)
    (same : idAfter one = idAfter two) : one = two := by
  have bits := congrArg Int64.toBitVec (RequestId.number.inj same)
  simp only [Int64.toBitVec_ofNat'] at bits
  have value := congrArg BitVec.toNat bits
  simp only [BitVec.toNat_ofNat] at value
  omega

-- The table, the calls and the line of waiting senders seen together, as long as no id has
-- come round again.
structure Ledger (c : Correlator) (sent : Nat) : Prop where
  linked : Linked c
  counted : c.fresh = idAfter sent
  ids : ∀ (n : Nat) (k : Call), c.calls[n]? = some k → ∃ earlier < sent, k.id = idAfter earlier
  apart : (c.calls.map Call.id).Nodup
  lines : ∀ w ∈ c.outbound.waiting, ∀ r, w.message = .request r →
    ∃ (n : Nat) (k : Call), c.calls[n]? = some k ∧ k.id = r.id ∧ k.stage = .waiting w.ticket
  awaited : ∀ (n : Nat) (k : Call), c.calls[n]? = some k → k.stage ≠ .refused → k.outcome = none →
    c.pending.lookup k.id = some ⟨k.method, n⟩

theorem initial_ledger (cancellation : Option CancelSettings) (capacity : Nat) :
    Ledger (initial cancellation capacity) 0 :=
  ⟨initial_linked .., rfl, by simp [initial], by simp [initial], by simp [initial], by simp [initial]⟩

theorem Ledger.same_call (ledger : Ledger c sent) {m : Nat} {k' : Call} (one : c.calls[n]? = some k)
    (two : c.calls[m]? = some k') (same : k.id = k'.id) : n = m := by
  obtain ⟨boundOne, atOne⟩ := List.getElem?_eq_some_iff.mp one
  obtain ⟨boundTwo, atTwo⟩ := List.getElem?_eq_some_iff.mp two
  have first : n < (c.calls.map Call.id).length := by simpa using boundOne
  have second : m < (c.calls.map Call.id).length := by simpa using boundTwo
  have equal : (c.calls.map Call.id)[n] = (c.calls.map Call.id)[m] := by simpa [atOne, atTwo] using same
  exact (List.Nodup.getElem_inj_iff ledger.apart).mp equal

-- A new id is no id of an earlier call, and so nothing is recorded over.
theorem Ledger.fresh_apart (ledger : Ledger c sent) (few : sent < 0x10000000000000000)
    (found : c.calls[n]? = some k) : k.id ≠ c.fresh := by
  obtain ⟨earlier, before, named⟩ := ledger.ids n k found
  intro same
  have := idAfter_inj (by omega) few (named.symm.trans (same.trans ledger.counted))
  omega

theorem Ledger.fresh_absent (ledger : Ledger c sent) (few : sent < 0x10000000000000000) :
    c.pending.lookup c.fresh = none := by
  cases pending : c.pending.lookup c.fresh with
  | none => rfl
  | some entry =>
    obtain ⟨k, found, named, _⟩ := ledger.linked.awaits pending
    exact absurd named (ledger.fresh_apart few found)

theorem Ledger.entry {entry : PendingEntry} (ledger : Ledger c sent) (found : c.calls[n]? = some k)
    (pending : c.pending.lookup k.id = some entry) : entry.call = n ∧ k.outcome = none := by
  obtain ⟨k', found', named, _, unanswered⟩ := ledger.linked.awaits pending
  have same := ledger.same_call found' found named
  subst same
  rw [found] at found'
  cases found'
  exact ⟨rfl, unanswered⟩

-- A call is open exactly as long as its id is in the table.
theorem Ledger.open_iff (ledger : Ledger c sent) (found : c.calls[n]? = some k) (sentOut : k.stage ≠ .refused) :
    k.outcome = none ↔ (c.pending.lookup k.id).isSome := by
  constructor
  · intro unanswered
    simp [ledger.awaited n k found sentOut unanswered]
  · intro present
    obtain ⟨entry, pending⟩ := Option.isSome_iff_exists.mp present
    exact (ledger.entry found pending).2

theorem recorded_calls (absent : c.pending.lookup c.fresh = none) (method : String) :
    (c.recorded method).calls = c.calls := by
  refine List.ext_getElem? fun n => ?_
  rw [recorded, record_calls]
  simp only [fresh] at absent
  simp [absent]

theorem Ledger.send_calls (ledger : Ledger c sent) (few : sent < 0x10000000000000000) (method : String)
    (params : Option Payload) (found : c.calls[n]? = some k) : (c.send method params).2.calls[n]? = some k := by
  have bound : n < c.calls.length := (List.getElem?_eq_some_iff.mp found).1
  have kept := recorded_calls (ledger.fresh_absent few) method
  rcases c.send_cases method params with ⟨_, same⟩ | ⟨_, _, same⟩ | ⟨_, _, _, same⟩ | ⟨_, _, _, same⟩ <;> rw [same]
  · exact found
  · simpa [forgetPending, kept] using found
  · simpa [kept, List.getElem?_append_left bound] using found
  · simpa [kept, List.getElem?_append_left bound] using found

-- Ending the call of an id ends it the first time and not again.
theorem Ledger.settle_outcome (ledger : Ledger c sent) (id : RequestId) (outcome : CallOutcome)
    (found : c.calls[n]? = some k) (sentOut : k.stage ≠ .refused) :
    ∃ k', (c.settle id outcome).calls[n]? = some k' ∧ Call.Same k k' ∧ k'.stage = k.stage ∧
      k'.outcome = (k.outcome <|> if id = k.id then some outcome else none) := by
  refine ⟨_, settle_call ledger.linked id outcome found, ?_⟩
  by_cases here : (c.pending.lookup id).map PendingEntry.call = some n
  · obtain ⟨named, unanswered⟩ := ledger.linked.entry_call here found
    rw [if_pos here]
    exact ⟨⟨rfl, rfl, rfl⟩, rfl, by simp [unanswered, named]⟩
  · rw [if_neg here]
    refine ⟨.refl k, rfl, ?_⟩
    by_cases named : id = k.id
    · cases answer : k.outcome with
      | some _ => simp
      | none =>
        have pending := ledger.awaited n k found sentOut answer
        exact absurd (by simp [named, pending]) here
    · simp [named]

theorem settle_stage (linked : Linked c) (id : RequestId) (outcome : CallOutcome) (found : c.calls[n]? = some k) :
    ∃ k', (c.settle id outcome).calls[n]? = some k' ∧ Call.Same k k' ∧ k'.stage = k.stage := by
  refine ⟨_, settle_call linked id outcome found, ?_⟩
  split <;> exact ⟨⟨rfl, rfl, rfl⟩, rfl⟩

theorem restage_call (ticket : Nat) (stage : Call.Stage) {calls : List Call} (found : calls[n]? = some k) :
    ∃ k', (restage ticket stage calls)[n]? = some k' ∧ Call.Same k k' ∧ k'.outcome = k.outcome ∧
      k'.stage = if k.stage = .waiting ticket then stage else k.stage := by
  refine ⟨_, by simp only [restage_get, found, Option.map_some]; rfl, ?_⟩
  split <;> exact ⟨⟨rfl, rfl, rfl⟩, rfl, rfl⟩

theorem taken_call (call : Nat) {calls : List Call} (found : calls[n]? = some k) :
    ∃ k', (calls.modify call fun k => { k with taken := true })[n]? = some k' ∧ Call.Same k k' ∧
      k'.outcome = k.outcome ∧ k'.stage = k.stage := by
  refine ⟨_, by simp only [List.getElem?_modify, found, Option.map_eq_map, Option.map_some]; rfl, ?_⟩
  split <;> exact ⟨⟨rfl, rfl, rfl⟩, rfl, rfl⟩

theorem poll_call (call : Nat) (found : c.calls[n]? = some k) :
    ∃ k', (c.poll call).2.calls[n]? = some k' ∧ Call.Same k k' ∧ k'.outcome = k.outcome ∧ k'.stage = k.stage := by
  have untouched : ∃ k', c.calls[n]? = some k' ∧ Call.Same k k' ∧ k'.outcome = k.outcome ∧ k'.stage = k.stage :=
    ⟨k, found, .refl k, rfl, rfl⟩
  unfold poll
  split
  · exact untouched
  · split
    · exact untouched
    · split
      · exact untouched
      · exact taken_call call found

-- What an action leaves of a call: its acceptance and, unless its send is refused, the outcome
-- it had, else the outcome that the action gives it.
structure Carried (action : Action) (k k' : Call) : Prop where
  accepted : k.stage = .accepted → k'.stage = .accepted
  outcome : k'.stage ≠ .refused → k.stage ≠ .refused ∧ k'.outcome = (k.outcome <|> settled k.id action)

theorem Carried.of_quiet {k' : Call} (idle : settled k.id action = none) (stage : k'.stage = k.stage)
    (outcome : k'.outcome = k.outcome) : Carried action k k' :=
  ⟨stage.trans, fun sentOut => ⟨stage ▸ sentOut, by simp [idle, outcome]⟩⟩

theorem Carried.of_restaged {k' : Call} {ticket : Nat} {stage : Call.Stage} (idle : settled k.id action = none)
    (restaged : k'.stage = if k.stage = .waiting ticket then stage else k.stage)
    (outcome : k'.outcome = k.outcome) : Carried action k k' := by
  constructor
  · intro accepted
    simp [restaged, accepted]
  · intro sentOut
    refine ⟨fun refused => sentOut ?_, by simp [idle, outcome]⟩
    simp [restaged, refused]

theorem Ledger.settle_carried (ledger : Ledger c sent) (id : RequestId) (outcome : CallOutcome)
    (ends : settled k.id action = if id = k.id then some outcome else none) (found : c.calls[n]? = some k) :
    ∃ k', (c.settle id outcome).calls[n]? = some k' ∧ Call.Same k k' ∧ Carried action k k' := by
  by_cases sentOut : k.stage = .refused
  · refine ⟨_, settle_call ledger.linked id outcome found, ?_⟩
    split <;> exact ⟨⟨rfl, rfl, rfl⟩, ⟨(·), fun other => absurd sentOut other⟩⟩
  · obtain ⟨k', found', same, stage, answer⟩ := ledger.settle_outcome id outcome found sentOut
    exact ⟨k', found', same, ⟨stage.trans, fun _ => ⟨sentOut, by rw [answer, ends]⟩⟩⟩

theorem Ledger.failAll_carried (ledger : Ledger c sent) (found : c.calls[n]? = some k) :
    ∃ k', c.failAll.2.calls[n]? = some k' ∧ Call.Same k k' ∧ Carried .failAll k k' := by
  refine ⟨_, by simp only [failAll_calls, found, Option.map_some]; rfl, ?_⟩
  by_cases listed : n ∈ c.pending.map (·.2.call)
  · rw [if_pos listed]
    exact ⟨⟨rfl, rfl, rfl⟩, ⟨(·), fun sentOut => ⟨sentOut, rfl⟩⟩⟩
  · rw [if_neg listed]
    refine ⟨.refl k, ⟨(·), fun sentOut => ⟨sentOut, ?_⟩⟩⟩
    cases answer : k.outcome with
    | some _ => rfl
    | none =>
      have pending := Table.mem_of_lookup (ledger.awaited n k found sentOut answer)
      exact absurd (List.mem_map.mpr ⟨_, pending, rfl⟩) listed

theorem Ledger.step_carried (ledger : Ledger c sent) (action : Action) (few : action.isSend → sent < 0x10000000000000000)
    (found : c.calls[n]? = some k) :
    ∃ k', (c.step action).calls[n]? = some k' ∧ Call.Same k k' ∧ Carried action k k' := by
  cases action with
  | send method params =>
    exact ⟨k, ledger.send_calls (few rfl) method params found, .refl k, .of_quiet rfl rfl rfl⟩
  | turn ticket =>
    change ∃ k', (c.turn ticket).calls[n]? = some k' ∧ _
    unfold turn
    split
    · exact ⟨k, found, .refl k, .of_quiet rfl rfl rfl⟩
    · obtain ⟨k', found', same, outcome, stage⟩ := restage_call ticket .accepted found
      exact ⟨k', found', same, .of_restaged rfl stage outcome⟩
  | abandon ticket =>
    obtain ⟨k', found', same, outcome, stage⟩ := restage_call ticket .abandoned found
    exact ⟨k', found', same, .of_restaged rfl stage outcome⟩
  | resolve id reply =>
    change ∃ k', (c.resolve id reply).2.calls[n]? = some k' ∧ _
    rw [resolve_fields]
    exact ledger.settle_carried id _ rfl found
  | fail id error =>
    change ∃ k', (c.fail id error).2.calls[n]? = some k' ∧ _
    rw [fail_eq]
    exact ledger.settle_carried id _ rfl found
  | cancel id =>
    change ∃ k', (c.cancel id).2.calls[n]? = some k' ∧ _
    rw [cancel_fields]
    refine ledger.settle_carried id _ ?_ found
    by_cases named : id = k.id <;> simp [settled, named]
  | failAll => exact ledger.failAll_carried found
  | take =>
    refine ⟨k, ?_, .refl k, .of_quiet rfl rfl rfl⟩
    rcases c.step_take with ⟨_, same⟩ | ⟨_, _, taken, same⟩ <;> rw [same]
    · exact found
    · rw [take_fields taken]
      exact found
  | disconnect =>
    refine ⟨_, by simp only [step, disconnect, List.getElem?_map, found, Option.map_some]; rfl, ?_⟩
    split
    · rename_i waits
      exact ⟨⟨rfl, rfl, rfl⟩, ⟨fun accepted => (by simp [waits] at accepted), fun sentOut => absurd rfl sentOut⟩⟩
    · exact ⟨.refl k, .of_quiet rfl rfl rfl⟩
  | poll call =>
    obtain ⟨k', found', same, outcome, stage⟩ := poll_call call found
    exact ⟨k', found', same, .of_quiet rfl stage outcome⟩
  | forget call =>
    obtain ⟨k', found', same, outcome, stage⟩ := taken_call call found
    exact ⟨k', found', same, .of_quiet rfl stage outcome⟩

-- The ledger after an action that makes no new call.
theorem Ledger.of_carried (ledger : Ledger c sent) (action : Action) (linked : Linked after)
    (nextId : after.nextId = c.nextId) (length : after.calls.length = c.calls.length)
    (carried : ∀ (n : Nat) (k : Call), c.calls[n]? = some k →
      ∃ k', after.calls[n]? = some k' ∧ Call.Same k k' ∧ Carried action k k')
    (lines : ∀ w ∈ after.outbound.waiting, ∀ r, w.message = .request r →
      ∃ (n : Nat) (k : Call), after.calls[n]? = some k ∧ k.id = r.id ∧ k.stage = .waiting w.ticket)
    (pending : ∀ (n : Nat) (k k' : Call), c.calls[n]? = some k → after.calls[n]? = some k' → k'.stage ≠ .refused →
      settled k.id action = none → after.pending.lookup k.id = c.pending.lookup k.id) : Ledger after sent := by
  have back : ∀ (n : Nat) (k' : Call), after.calls[n]? = some k' →
      ∃ k, c.calls[n]? = some k ∧ Call.Same k k' ∧ Carried action k k' := by
    intro n k' found'
    have bound : n < c.calls.length := length ▸ (List.getElem?_eq_some_iff.mp found').1
    obtain ⟨k'', found'', rest⟩ := carried n _ (List.getElem?_eq_getElem bound)
    rw [found'] at found''
    cases found''
    exact ⟨_, List.getElem?_eq_getElem bound, rest⟩
  have ids : after.calls.map Call.id = c.calls.map Call.id := by
    refine List.ext_getElem? fun n => ?_
    simp only [List.getElem?_map]
    cases found' : after.calls[n]? with
    | none =>
      have bound := List.getElem?_eq_none_iff.mp found'
      simp [List.getElem?_eq_none_iff.mpr (length ▸ bound)]
    | some k' =>
      obtain ⟨k, found, same, _⟩ := back n k' found'
      simp [found, same.id]
  refine ⟨linked, by rw [fresh, nextId]; exact ledger.counted, ?_, ids ▸ ledger.apart, lines, ?_⟩
  · intro n k' found'
    obtain ⟨k, found, same, _⟩ := back n k' found'
    exact same.id ▸ ledger.ids n k found
  · intro n k' found' sentOut unanswered
    obtain ⟨k, found, same, carried⟩ := back n k' found'
    obtain ⟨sentOut', outcome⟩ := carried.outcome sentOut
    rw [unanswered] at outcome
    have open' : k.outcome = none := by
      cases answer : k.outcome with
      | none => rfl
      | some _ => rw [answer] at outcome; cases outcome
    have idle : settled k.id action = none := by simpa [open'] using outcome.symm
    rw [same.id, same.method, pending n k k' found found' sentOut idle]
    exact ledger.awaited n k found sentOut' open'

-- The line after an action: whoever waits with a request waited before, and its call still waits.
theorem Ledger.lines_of (ledger : Ledger c sent)
    (earlier : ∀ w ∈ after.outbound.waiting, ∀ r, w.message = .request r →
      ∃ w' ∈ c.outbound.waiting, w'.ticket = w.ticket ∧ w'.message = w.message)
    (kept : ∀ w ∈ after.outbound.waiting, ∀ (n : Nat) (k : Call), c.calls[n]? = some k → k.stage = .waiting w.ticket →
      ∃ k', after.calls[n]? = some k' ∧ Call.Same k k' ∧ k'.stage = k.stage) :
    ∀ w ∈ after.outbound.waiting, ∀ r, w.message = .request r →
      ∃ (n : Nat) (k : Call), after.calls[n]? = some k ∧ k.id = r.id ∧ k.stage = .waiting w.ticket := by
  intro w present r asks
  obtain ⟨w', present', ticket, message⟩ := earlier w present r asks
  obtain ⟨n, k, found, named, stage⟩ := ledger.lines w' present' r (message.trans asks)
  obtain ⟨k', found', same, stage'⟩ := kept w present n k found (ticket ▸ stage)
  exact ⟨n, k', found', same.id.trans named, stage'.trans (ticket ▸ stage)⟩

theorem mem_offer {q : Outbound} {m : Message} {standing : Outbound.Standing} {w : Outbound.Waiter}
    (present : w ∈ (q.offer m standing).2.waiting) : w ∈ q.waiting ∨ w.message = m := by
  rcases q.offer_cases m standing with ⟨_, same⟩ | ⟨_, _, same⟩ | ⟨_, _, same⟩ <;> rw [same] at present
  · exact .inl present
  · exact .inl present
  · rcases List.mem_append.mp present with old | new
    · exact .inl old
    · exact .inr (by rw [List.mem_singleton.mp new])

theorem mem_cancel {w : Outbound.Waiter} (present : w ∈ (c.cancel id).2.outbound.waiting) :
    w ∈ c.outbound.waiting ∨ w.message.kind = .notification := by
  rcases c.cancel_outbound id with same | ⟨_, settings, _, _, same⟩ <;> rw [same] at present
  · exact .inl present
  · exact (mem_offer present).imp_right fun message => by rw [message]; rfl

-- Resolving, failing and cancelling touch the line at most by adding a notification.
theorem Ledger.settle_ledger (ledger : Ledger c sent) (action : Action) (id : RequestId) (outcome : CallOutcome)
    (ends : ∀ k : Call, settled k.id action = if id = k.id then some outcome else none) (linked : Linked after)
    (calls : after.calls = (c.settle id outcome).calls) (table : after.pending = (c.settle id outcome).pending)
    (nextId : after.nextId = (c.settle id outcome).nextId)
    (lined : ∀ w ∈ after.outbound.waiting, w ∈ c.outbound.waiting ∨ w.message.kind = .notification) :
    Ledger after sent := by
  refine ledger.of_carried action linked (nextId.trans (settle_nextId ..)) (by rw [calls, settle_length]) ?_
    (ledger.lines_of ?_ ?_) ?_
  · intro n k found
    rw [calls]
    exact ledger.settle_carried id outcome (ends k) found
  · intro w present r asks
    rcases lined w present with old | notice
    · exact ⟨w, old, rfl, rfl⟩
    · rw [asks] at notice
      cases notice
  · intro w present n k found _
    rw [calls]
    exact settle_stage ledger.linked id outcome found
  · intro n k k' found found' sentOut idle
    rw [table, settle_lookup, if_neg]
    intro named
    rw [ends k, if_pos named.symm] at idle
    cases idle

theorem Ledger.counted_next (ledger : Ledger c sent) : RequestId.number (c.nextId + 1) = idAfter (sent + 1) := by
  have now : c.nextId = Int64.ofNat (sent + 1) := RequestId.number.inj ledger.counted
  rw [idAfter, now, Int64.ofNat_add (sent + 1) 1]
  rfl

section Grown
variable {new : Call}

-- A new call at the end, under an id that no other call has.
theorem Ledger.grown_ids (ledger : Ledger c sent) (named : new.id = c.fresh)
    (found : (c.calls ++ [new])[n]? = some k) : ∃ earlier < sent + 1, k.id = idAfter earlier := by
  rcases grown_cases found with old | ⟨_, rfl⟩
  · obtain ⟨earlier, before, named⟩ := ledger.ids n k old
    exact ⟨earlier, by omega, named⟩
  · exact ⟨sent, by omega, named.trans ledger.counted⟩

theorem Ledger.grown_apart (ledger : Ledger c sent) (few : sent < 0x10000000000000000) (named : new.id = c.fresh) :
    ((c.calls ++ [new]).map Call.id).Nodup := by
  rw [List.map_append, List.map_singleton]
  refine List.nodup_append.mpr ⟨ledger.apart, by simp, ?_⟩
  intro id present other last
  obtain ⟨k, member, rfl⟩ := List.mem_map.mp present
  obtain ⟨n, found⟩ := List.getElem?_of_mem member
  rw [List.mem_singleton.mp last, named]
  exact ledger.fresh_apart few found

theorem Ledger.grown_awaited (ledger : Ledger c sent) (few : sent < 0x10000000000000000) (named : new.id = c.fresh)
    (found : (c.calls ++ [new])[n]? = some k) (sentOut : k.stage ≠ .refused) (unanswered : k.outcome = none) :
    (Table.put c.fresh ⟨new.method, c.calls.length⟩ c.pending).lookup k.id = some ⟨k.method, n⟩ := by
  rw [Table.lookup_put]
  rcases grown_cases found with old | ⟨rfl, rfl⟩
  · rw [if_neg (ledger.fresh_apart few old)]
    exact ledger.awaited n k old sentOut unanswered
  · exact if_pos named

theorem Ledger.grown_lines (ledger : Ledger c sent) {w : Outbound.Waiter} {r : Request}
    (present : w ∈ c.outbound.waiting) (asks : w.message = .request r) :
    ∃ (n : Nat) (k : Call), (c.calls ++ [new])[n]? = some k ∧ k.id = r.id ∧ k.stage = .waiting w.ticket := by
  obtain ⟨n, k, found, named⟩ := ledger.lines w present r asks
  exact ⟨n, k, by rw [List.getElem?_append_left (List.getElem?_eq_some_iff.mp found).1]; exact found, named⟩

end Grown

theorem Ledger.send_ledger (ledger : Ledger c sent) (few : sent < 0x10000000000000000) (method : String)
    (params : Option Payload) : Ledger (c.send method params).2 (sent + 1) := by
  have absent := ledger.fresh_absent few
  have calls := recorded_calls absent method
  have pending : (c.recorded method).pending = Table.put c.fresh ⟨method, c.calls.length⟩ c.pending := record_pending ..
  have withdrawn : ((c.recorded method).forgetPending c.fresh).pending = c.pending := by
    simp only [forgetPending, pending]
    exact Table.erase_put absent
  have counted : (c.recorded method).fresh = idAfter (sent + 1) := by
    rw [fresh, show (c.recorded method).nextId = c.nextId + 1 from record_nextId ..]
    exact ledger.counted_next
  have linked := send_linked ledger.linked method params
  have ids : ∀ (n : Nat) (k : Call), c.calls[n]? = some k → ∃ earlier < sent + 1, k.id = idAfter earlier := by
    intro n k found
    obtain ⟨earlier, before, named⟩ := ledger.ids n k found
    exact ⟨earlier, by omega, named⟩
  rcases c.send_cases method params with ⟨_, sending⟩ | ⟨_, _, sending⟩ | ⟨_, _, _, sending⟩ | ⟨_, _, _, sending⟩ <;>
    rw [sending] at linked ⊢
  · exact ⟨linked, ledger.counted_next, ids, ledger.apart, ledger.lines, ledger.awaited⟩
  · refine ⟨linked, counted, ?_, ?_, ?_, ?_⟩
    · simpa only [forgetPending, calls] using ids
    · simpa only [forgetPending, calls] using ledger.apart
    · simpa only [forgetPending, calls, show (c.recorded method).outbound = c.outbound from record_outbound ..]
        using ledger.lines
    · rw [withdrawn]
      simpa only [forgetPending, calls] using ledger.awaited
  · refine ⟨linked, counted, ?_, ?_, ?_, ?_⟩ <;> simp only [calls, pending]
    · intro n k found
      exact ledger.grown_ids rfl found
    · exact ledger.grown_apart few rfl
    · intro w present r asks
      exact ledger.grown_lines present asks
    · intro n k found
      exact ledger.grown_awaited few rfl found
  · refine ⟨linked, counted, ?_, ?_, ?_, ?_⟩ <;> simp only [calls, pending]
    · intro n k found
      exact ledger.grown_ids rfl found
    · exact ledger.grown_apart few rfl
    · intro w present r asks
      rcases List.mem_append.mp present with old | new
      · exact ledger.grown_lines old asks
      · cases List.mem_singleton.mp new
        cases asks
        exact ⟨c.calls.length, _, List.getElem?_concat_length .., rfl, rfl⟩
    · intro n k found
      exact ledger.grown_awaited few rfl found

-- Who is restaged under another ticket, stays.
theorem restage_other {ticket other : Nat} (stage : Call.Stage) {calls : List Call} (found : calls[n]? = some k)
    (waits : k.stage = .waiting other) (apart : other ≠ ticket) :
    ∃ k', (restage ticket stage calls)[n]? = some k' ∧ Call.Same k k' ∧ k'.stage = k.stage := by
  obtain ⟨k', found', same, _, stage'⟩ := restage_call ticket stage found
  exact ⟨k', found', same, by simp [stage', waits, apart]⟩

theorem Ledger.turn_ledger (ledger : Ledger c sent) (ticket : Nat) : Ledger (c.turn ticket) sent := by
  refine ledger.of_carried (.turn ticket) (step_linked ledger.linked (.turn ticket)) ?_ ?_
    (fun n k found => ledger.step_carried (.turn ticket) (by simp [Action.isSend]) found)
    (ledger.lines_of ?_ ?_) (fun n k k' _ _ _ _ => by rw [turn_pending])
  · unfold turn; split <;> rfl
  · unfold turn; split <;> simp [restage]
  · intro w present r _
    rcases c.outbound.turn_cases ticket with ⟨_, _, _, same⟩ | same | same <;> simp only [turn, same] at present
    · exact ⟨w, (Outbound.mem_remove.mp present).1, rfl, rfl⟩
    · exact Outbound.mem_standInLine present
    · exact ⟨w, present, rfl, rfl⟩
  · intro w present n k found waits
    rcases c.outbound.turn_cases ticket with ⟨_, _, _, same⟩ | same | same <;> simp only [turn, same] at present ⊢
    · exact restage_other .accepted found waits (Outbound.mem_remove.mp present).2
    · exact ⟨k, found, .refl k, rfl⟩
    · exact ⟨k, found, .refl k, rfl⟩

theorem Ledger.abandon_ledger (ledger : Ledger c sent) (ticket : Nat) : Ledger (c.abandon ticket) sent := by
  refine ledger.of_carried (.abandon ticket) (step_linked ledger.linked (.abandon ticket)) rfl
    (by simp [abandon, restage])
    (fun n k found => ledger.step_carried (.abandon ticket) (by simp [Action.isSend]) found)
    (ledger.lines_of ?_ ?_) (fun n k k' _ _ _ _ => rfl)
  · intro w present r _
    obtain ⟨earlier, old, same⟩ := Outbound.mem_admitNext present
    exact ⟨earlier, (Outbound.mem_remove.mp old).1, same⟩
  · intro w present n k found waits
    obtain ⟨earlier, old, named, _⟩ := Outbound.mem_admitNext present
    exact restage_other .abandoned found waits (named ▸ (Outbound.mem_remove.mp old).2)

theorem Ledger.failAll_ledger (ledger : Ledger c sent) : Ledger c.failAll.2 sent := by
  have outbound : c.failAll.2.outbound = c.outbound := by rw [failAll_eq]
  refine ledger.of_carried .failAll (failAll_linked c) (by rw [failAll_eq])
    (failAll_length c) (fun n k found => ledger.failAll_carried found) (ledger.lines_of ?_ ?_)
    (fun n k k' _ _ _ idle => by simp [settled] at idle)
  · intro w present r _
    exact ⟨w, outbound ▸ present, rfl, rfl⟩
  · intro w _ n k found _
    refine ⟨_, by simp only [failAll_calls, found, Option.map_some]; rfl, ?_⟩
    split <;> exact ⟨⟨rfl, rfl, rfl⟩, rfl⟩

theorem Ledger.take_ledger {m : Message} (ledger : Ledger c sent) (taken : c.take = some (m, after)) :
    Ledger after sent := by
  have waiting : ∀ w ∈ after.outbound.waiting,
      ∃ w' ∈ c.outbound.waiting, w'.ticket = w.ticket ∧ w'.message = w.message := by
    intro w present
    obtain ⟨_, _, left⟩ := Outbound.take_cases (take_outbound taken)
    rw [left] at present
    obtain ⟨earlier, old, same⟩ := Outbound.mem_admitNext present
    exact ⟨earlier, old, same⟩
  rw [take_fields taken]
  refine ⟨ledger.linked.with_fields _ _, ledger.counted, ledger.ids, ledger.apart, ?_, ledger.awaited⟩
  intro w present r asks
  obtain ⟨w', present', ticket, message⟩ := waiting w present
  obtain ⟨n, k, found, named, stage⟩ := ledger.lines w' present' r (message.trans asks)
  exact ⟨n, k, found, named, ticket ▸ stage⟩

-- The queue goes away: the entries it takes back are those of the calls it refuses.
theorem Ledger.disconnect_ledger (ledger : Ledger c sent) : Ledger c.disconnect sent := by
  refine ledger.of_carried .disconnect (disconnect_linked ledger.linked) rfl (by simp [disconnect])
    (fun n k found => ledger.step_carried .disconnect (by simp [Action.isSend]) found)
    (fun w present => by simp [disconnect, Outbound.disconnect] at present) ?_
  intro n k k' found found' sentOut _
  rw [disconnect_lookup, if_neg]
  intro withdrawn
  obtain ⟨w, present, r, asks, named⟩ := mem_waitingIds.mp withdrawn
  obtain ⟨m, other, found'', named', stage⟩ := ledger.lines w present r asks
  have same := ledger.same_call found'' found (named'.trans named)
  subst same
  rw [found] at found''
  cases found''
  simp only [disconnect, List.getElem?_map, found, Option.map_some, stage, Option.some.injEq] at found'
  exact sentOut (found' ▸ rfl)

theorem Ledger.poll_ledger (ledger : Ledger c sent) (call : Nat) : Ledger (c.poll call).2 sent := by
  have outbound : (c.poll call).2.outbound = c.outbound := by rw [poll_fields]
  refine ledger.of_carried (.poll call) (step_linked ledger.linked (.poll call)) (by rw [poll_fields])
    (poll_length c call)
    (fun n k found => ledger.step_carried (.poll call) (by simp [Action.isSend]) found)
    (ledger.lines_of (fun w present r _ => ⟨w, outbound ▸ present, rfl, rfl⟩) ?_)
    (fun n k k' _ _ _ _ => by rw [poll_pending])
  intro w _ n k found _
  obtain ⟨k', found', same, _, stage⟩ := poll_call call found
  exact ⟨k', found', same, stage⟩

theorem Ledger.forget_ledger (ledger : Ledger c sent) (call : Nat) : Ledger (c.forget call) sent := by
  refine ledger.of_carried (.forget call) (step_linked ledger.linked (.forget call)) rfl
    (by simp [forget])
    (fun n k found => ledger.step_carried (.forget call) (by simp [Action.isSend]) found)
    (ledger.lines_of (fun w present r _ => ⟨w, present, rfl, rfl⟩) ?_) (fun n k k' _ _ _ _ => rfl)
  intro w _ n k found _
  obtain ⟨k', found', same, _, stage⟩ := taken_call call found
  exact ⟨k', found', same, stage⟩

theorem Ledger.step (ledger : Ledger c sent) (few : action.isSend → sent < 0x10000000000000000) :
    Ledger (c.step action) (sent + if action.isSend then 1 else 0) := by
  cases action with
  | send method params => exact ledger.send_ledger (few rfl) method params
  | turn ticket => exact ledger.turn_ledger ticket
  | abandon ticket => exact ledger.abandon_ledger ticket
  | resolve id reply =>
    change Ledger (c.resolve id reply).2 sent
    rw [resolve_fields]
    exact ledger.settle_ledger (.resolve id reply) id (.ofReply reply) (fun k => rfl)
      ((settle_linked ledger.linked id _).with_fields _ _) rfl rfl rfl
      fun w present => .inl (settle_outbound c id _ ▸ present)
  | fail id error =>
    change Ledger (c.fail id error).2 sent
    rw [fail_eq]
    exact ledger.settle_ledger (.fail id error) id (.error error) (fun k => rfl)
      (settle_linked ledger.linked id _) rfl rfl rfl fun w present => .inl (settle_outbound c id _ ▸ present)
  | cancel id =>
    change Ledger (c.cancel id).2 sent
    rw [cancel_fields]
    refine ledger.settle_ledger (.cancel id) id (.error (.cancelled id)) (fun k => ?_)
      ((settle_linked ledger.linked id _).with_fields _ _) rfl rfl rfl fun w present => mem_cancel present
    by_cases named : id = k.id <;> simp [settled, named]
  | failAll => exact ledger.failAll_ledger
  | take =>
    rcases c.step_take with ⟨_, same⟩ | ⟨_, _, taken, same⟩ <;> rw [same]
    · exact ledger
    · exact ledger.take_ledger taken
  | disconnect => exact ledger.disconnect_ledger
  | poll call => exact ledger.poll_ledger call
  | forget call => exact ledger.forget_ledger call

theorem sends_append (actions more : List Action) : sends (actions ++ more) = sends actions + sends more :=
  List.countP_append

theorem sends_snoc (actions : List Action) (action : Action) :
    sends (actions ++ [action]) = sends actions + if action.isSend then 1 else 0 := by
  rw [sends_append]
  simp [sends, List.countP_cons]

theorem run_append (actions more : List Action) : c.run (actions ++ more) = (c.run actions).run more :=
  List.foldl_append

theorem runs_ledger (cancellation : Option CancelSettings) (capacity : Nat) (actions : List Action)
    (few : sends actions ≤ 0x10000000000000000) :
    Ledger (run (initial cancellation capacity) actions) (sends actions) := by
  induction actions using List.reverseRecOn with
  | nil => exact initial_ledger cancellation capacity
  | append_singleton earlier action ih =>
    rw [sends_snoc] at few ⊢
    rw [run_append]
    apply (ih (by omega)).step
    intro asks
    rw [if_pos asks] at few
    omega

-- Only a send makes a call.
theorem step_new (found : (c.step action).calls[n]? = some k) (new : c.calls[n]? = none) :
    ∃ method params, action = .send method params ∧ c.calls.length = n ∧ c.fresh = k.id ∧
      k.method = method ∧ k.params = params ∧ k.outcome = none := by
  have bound : c.calls.length ≤ n := List.getElem?_eq_none_iff.mp new
  have further : n < (c.step action).calls.length := (List.getElem?_eq_some_iff.mp found).1
  have grown : ¬ (c.step action).calls.length = c.calls.length := by omega
  cases action with
  | send method params =>
    refine ⟨method, params, rfl, ?_⟩
    change (c.send method params).2.calls[n]? = some k at found
    have length : (c.recorded method).calls.length = c.calls.length := record_length ..
    have absent : (c.recorded method).calls[n]? = none := List.getElem?_eq_none_iff.mpr (by omega)
    have last : ∀ (fresh : Call), ((c.recorded method).calls ++ [fresh])[n]? = some k →
        c.calls.length = n ∧ k = fresh := by
      intro fresh found
      rcases grown_cases found with old | ⟨place, same⟩
      · cases absent.symm.trans old
      · exact ⟨by omega, same⟩
    rcases c.send_cases method params with ⟨_, sending⟩ | ⟨_, _, sending⟩ | ⟨_, _, _, sending⟩ | ⟨_, _, _, sending⟩ <;>
      rw [sending] at found
    · exact absurd (new.symm.trans found) (by simp)
    · cases absent.symm.trans found
    · obtain ⟨place, rfl⟩ := last _ found
      exact ⟨place, rfl, rfl, rfl, rfl⟩
    · obtain ⟨place, rfl⟩ := last _ found
      exact ⟨place, rfl, rfl, rfl, rfl⟩
  | turn ticket => exact absurd (by simp only [step, turn]; split <;> simp [restage]) grown
  | abandon ticket => exact absurd (by simp [step, abandon, restage]) grown
  | resolve id reply => exact absurd (by simp only [step]; rw [resolve_fields]; exact settle_length ..) grown
  | fail id error => exact absurd (by simp only [step]; rw [fail_eq]; exact settle_length ..) grown
  | cancel id => exact absurd (by simp only [step]; rw [cancel_fields]; exact settle_length ..) grown
  | failAll => exact absurd (failAll_length c) grown
  | take =>
    refine absurd ?_ grown
    rcases c.step_take with ⟨_, same⟩ | ⟨_, _, taken, same⟩ <;> rw [same]
    rw [take_fields taken]
  | disconnect => exact absurd (by simp [step, disconnect]) grown
  | poll call => exact absurd (poll_length c call) grown
  | forget call => exact absurd (by simp [step, forget]) grown

-- A call is the work of one send, and the first action after it that ends it decides its outcome.
theorem runs_outcome (cancellation : Option CancelSettings) (capacity : Nat) (actions : List Action)
    (few : sends actions ≤ 0x10000000000000000) (found : (run (initial cancellation capacity) actions).calls[n]? = some k)
    (sentOut : k.stage ≠ .refused) :
    ∃ earlier method params later, actions = earlier ++ .send method params :: later ∧
      (run (initial cancellation capacity) earlier).calls.length = n ∧
      (run (initial cancellation capacity) earlier).fresh = k.id ∧ k.method = method ∧ k.params = params ∧
      k.outcome = later.findSome? (settled k.id) := by
  induction actions using List.reverseRecOn generalizing k with
  | nil => simp [run, initial] at found
  | append_singleton before action ih =>
    rw [sends_append] at few
    have ledger := runs_ledger cancellation capacity before (by omega)
    have asks : action.isSend → sends before < 0x10000000000000000 := by
      intro asks
      simp only [sends, List.countP_singleton, asks, if_true] at few ⊢
      omega
    rw [run_append] at found
    cases there : (run (initial cancellation capacity) before).calls[n]? with
    | none =>
      obtain ⟨method, params, rfl, place, named, method', params', unanswered⟩ := step_new found there
      exact ⟨before, method, params, [], rfl, place, named, method', params', unanswered⟩
    | some k' =>
      obtain ⟨k'', found', same, carried⟩ := ledger.step_carried action asks there
      obtain rfl : k'' = k := Option.some.inj (found'.symm.trans found)
      obtain ⟨sentOut', outcome⟩ := carried.outcome sentOut
      obtain ⟨earlier, method, params, later, rfl, place, named, method', params', outcome'⟩ :=
        ih (by omega) there sentOut'
      refine ⟨earlier, method, params, later ++ [action], by simp, place, named.trans same.id.symm,
        same.method.trans method', same.params.trans params', ?_⟩
      rw [outcome, outcome', same.id, List.findSome?_append]
      cases ended : settled k'.id action <;> simp [ended]

-- A call is taken by the look that gives its outcome, or when its caller forgets it, and by nothing else.
theorem Ledger.step_taken (ledger : Ledger c sent) (action : Action) (few : action.isSend → sent < 0x10000000000000000)
    (found : c.calls[n]? = some k) :
    ∃ k', (c.step action).calls[n]? = some k' ∧
      (k'.taken = true ↔ k.taken = true ∨ action = .forget n ∨ action = .poll n ∧ k.outcome ≠ none) := by
  cases action with
  | send method params => exact ⟨k, ledger.send_calls (few rfl) method params found, by simp⟩
  | turn ticket =>
    change ∃ k', (c.turn ticket).calls[n]? = some k' ∧ _
    unfold turn
    split
    · exact ⟨k, found, by simp⟩
    · refine ⟨_, by simp only [restage_get, found, Option.map_some]; rfl, ?_⟩
      split <;> simp
  | abandon ticket =>
    refine ⟨_, by simp only [Correlator.step, abandon, restage_get, found, Option.map_some]; rfl, ?_⟩
    split <;> simp
  | resolve id reply =>
    change ∃ k', (c.resolve id reply).2.calls[n]? = some k' ∧ _
    rw [resolve_fields]
    refine ⟨_, settle_call ledger.linked id _ found, ?_⟩
    split <;> simp
  | fail id error =>
    change ∃ k', (c.fail id error).2.calls[n]? = some k' ∧ _
    rw [fail_eq]
    refine ⟨_, settle_call ledger.linked id _ found, ?_⟩
    split <;> simp
  | cancel id =>
    change ∃ k', (c.cancel id).2.calls[n]? = some k' ∧ _
    rw [cancel_fields]
    refine ⟨_, settle_call ledger.linked id _ found, ?_⟩
    split <;> simp
  | failAll =>
    refine ⟨_, by simp only [Correlator.step, failAll_calls, found, Option.map_some]; rfl, ?_⟩
    split <;> simp [Call.finish]
  | take =>
    refine ⟨k, ?_, by simp⟩
    rcases c.step_take with ⟨_, same⟩ | ⟨_, _, taken, same⟩ <;> rw [same]
    · exact found
    · rw [take_fields taken]
      exact found
  | disconnect =>
    refine ⟨_, by simp only [Correlator.step, disconnect, List.getElem?_map, found, Option.map_some]; rfl, ?_⟩
    split <;> simp
  | poll call =>
    change ∃ k', (c.poll call).2.calls[n]? = some k' ∧ _
    by_cases here : call = n
    · subst here
      cases read : k.taken with
      | true => exact ⟨k, by rw [poll_taken found read]; exact found, by simp [read]⟩
      | false =>
        cases answer : k.outcome with
        | none => exact ⟨k, by rw [poll_open found read answer]; exact found, by simp [read]⟩
        | some outcome => exact ⟨_, (poll_done found read answer).2, by simp⟩
    · refine ⟨k, ?_, by simp [here]⟩
      unfold poll
      repeat' split
      all_goals first | exact found | simpa [here] using found
  | forget call =>
    refine ⟨_, by simp only [Correlator.step, forget, List.getElem?_modify, found, Option.map_eq_map, Option.map_some]; rfl, ?_⟩
    by_cases here : call = n <;> simp [here]

-- A call, once accepted, is open exactly as long as its id is in the table. It is ended once, by
-- the first later action that names its id or ends all, and no action under another id touches it.
-- The look that comes next gives its outcome, and no later one gives any.
theorem calls_end_once (cancellation : Option CancelSettings) (capacity : Nat) (actions : List Action)
    (few : sends actions < 0x10000000000000000) :
    let origin := initial cancellation capacity
    let c := run origin actions
    (∀ earlier method params later, actions = earlier ++ .send method params :: later →
      (run origin earlier).pending.lookup (run origin earlier).fresh = none) ∧
    ∀ (n : Nat) (k : Call), c.calls[n]? = some k → k.stage = .accepted →
      (k.outcome = none ↔ (c.pending.lookup k.id).isSome) ∧
      (k.taken = false → ((c.poll n).1 = .pending ↔ (c.pending.lookup k.id).isSome)) ∧
      (∀ outcome, k.taken = false → k.outcome = some outcome →
        (c.poll n).1 = .done outcome ∧ (c.poll n).2.calls[n]? = some { k with taken := true }) ∧
      (k.taken = true → (c.poll n).1 = .taken) ∧
      (∀ action, ∃ k', (c.step action).calls[n]? = some k' ∧
        (k'.taken = true ↔ k.taken = true ∨ action = .forget n ∨ action = .poll n ∧ k.outcome ≠ none)) ∧
      (∃ earlier method params later, actions = earlier ++ .send method params :: later ∧
        (run origin earlier).calls.length = n ∧ (run origin earlier).fresh = k.id ∧ k.method = method ∧
        k.params = params ∧ k.outcome = later.findSome? (settled k.id)) ∧
      (∀ action, action ≠ .failAll → action.named? ≠ some k.id →
        ∃ k', (c.step action).calls[n]? = some k' ∧ k'.outcome = k.outcome ∧
          (c.step action).pending.lookup k.id = c.pending.lookup k.id) ∧
      .text k.id.display ≠ k.id := by
  intro origin c
  have ledger : Ledger c (sends actions) := runs_ledger cancellation capacity actions (by omega)
  constructor
  · rintro earlier method params later rfl
    have total : sends (earlier ++ .send method params :: later) = sends earlier + (sends later + 1) := by
      rw [sends_append]
      simp [sends, Action.isSend]
    exact (runs_ledger cancellation capacity earlier (by omega)).fresh_absent (by omega)
  · intro n k found accepted
    have sentOut : k.stage ≠ .refused := by simp [accepted]
    have opened := ledger.open_iff found sentOut
    refine ⟨opened, fun unread => ?_, fun outcome unread ended => poll_done found unread ended,
      fun read => by rw [poll_taken found read], fun action => ledger.step_taken action (fun _ => few) found,
      runs_outcome cancellation capacity actions (by omega) found sentOut, ?_, ?_⟩
    · rw [← opened]
      cases answer : k.outcome with
      | none => simp [poll_open found unread answer]
      | some outcome => simp [(poll_done found unread answer).1]
    · intro action single other
      have asks : action.isSend → sends actions < 0x10000000000000000 := fun _ => few
      obtain ⟨k', found', same, carried⟩ := ledger.step_carried action asks found
      have sentOut' : k'.stage ≠ .refused := by simp [carried.accepted accepted]
      have outcome : k'.outcome = k.outcome := by
        simpa [settled_of_other other single] using (carried.outcome sentOut').2
      refine ⟨k', found', outcome, ?_⟩
      have later := ledger.step asks
      cases answer : k.outcome with
      | none =>
        rw [ledger.awaited n k found sentOut answer, ← same.id, ← same.method]
        exact later.awaited n k' found' sentOut' (outcome.trans answer)
      | some _ =>
        have gone : c.pending.lookup k.id = none :=
          Option.not_isSome_iff_eq_none.mp fun present => by cases answer.symm.trans (opened.mpr present)
        have gone' : (c.step action).pending.lookup k'.id = none :=
          Option.not_isSome_iff_eq_none.mp fun present => by
            cases (outcome.trans answer).symm.trans ((later.open_iff found' sentOut').mpr present)
        rw [gone, ← same.id, gone']
    · obtain ⟨earlier, _, named⟩ := ledger.ids n k found
      simp [named, idAfter]

-- The first of two calls is ended and its outcome read; the second is answered, and a look at it gives
-- the answer.
theorem calls_end_once_answered :
    let actions := [.send "a" none, .send "b" none, .resolve (.number 2) (.result (.json .null)), .failAll, .poll 0]
    let final := run (initial none 2) actions
    sends actions < 0x10000000000000000 ∧
      final.calls = [⟨.number 1, "a", none, .accepted, some (.error .connectionClosed), true⟩,
        ⟨.number 2, "b", none, .accepted, some (.result (.json .null)), false⟩] ∧
      final.pending.lookup (.number 2) = none ∧ (final.poll 0).1 = .taken ∧
      (final.poll 1).1 = .done (.result (.json .null)) ∧
      (final.poll 1).2.calls[1]? = some ⟨.number 2, "b", none, .accepted, some (.result (.json .null)), true⟩ := by
  intro actions final
  have few : sends actions < 0x10000000000000000 := by decide
  have calls : final.calls = [⟨.number 1, "a", none, .accepted, some (.error .connectionClosed), true⟩,
      ⟨.number 2, "b", none, .accepted, some (.result (.json .null)), false⟩] := by decide
  obtain ⟨_, ends⟩ := calls_end_once none 2 actions few
  obtain ⟨_, _, _, read, _⟩ := ends 0 _ (congrArg (·[0]?) calls) rfl
  obtain ⟨opened, _, done, _⟩ := ends 1 _ (congrArg (·[1]?) calls) rfl
  obtain ⟨answer, taken⟩ := done _ rfl rfl
  have ended : ¬ (final.pending.lookup (.number 2)).isSome := fun pending => by cases opened.mpr pending
  exact ⟨few, calls, Option.not_isSome_iff_eq_none.mp ended, read rfl, answer, taken⟩

end DuplexRpc.Correlator
