import DuplexRpc.Proofs.Correlator.Ending
import DuplexRpc.Proofs.Correlator.Line

namespace DuplexRpc

namespace Outbound
variable {q after : Outbound} {m : Message} {ticket : Nat}

-- Who waits, and with which message.
def senders (q : Outbound) : List (Nat × Message) := q.waiting.map fun w => (w.ticket, w.message)

-- Tickets are given out in order.
def Below (q : Outbound) : Prop := ∀ w ∈ q.waiting, w.ticket < q.nextTicket

-- Nobody leaves the line, and what entered has entered.
structure Keeps (q after : Outbound) : Prop where
  senders : ∀ {ticket m}, q.senders.lookup ticket = some m → after.senders.lookup ticket = some m
  accepted : ∀ {m}, m ∈ q.accepted → m ∈ after.accepted
  below : q.Below → after.Below

theorem Keeps.refl (q : Outbound) : Keeps q q := ⟨id, id, id⟩

theorem waiter?_message (q : Outbound) (ticket : Nat) :
    (q.waiter? ticket).map (·.message) = q.senders.lookup ticket := by
  simp only [waiter?, senders]
  induction q.waiting with
  | nil => rfl
  | cons w rest ih =>
    rw [List.map_cons, Table.lookup_cons, List.find?_cons]
    by_cases here : w.ticket = ticket
    · simp [here]
    · simp [here, Ne.symm here, ih]

@[simp] theorem admitNext_senders (q : Outbound) : q.admitNext.senders = q.senders := by
  have same : ∀ waiting : List Waiter, (admitFirst waiting).map (fun w => (w.ticket, w.message)) =
      waiting.map fun w => (w.ticket, w.message) := by
    intro waiting
    induction waiting with
    | nil => rfl
    | cons w rest ih =>
      unfold admitFirst
      split <;> simp [ih]
  unfold admitNext
  split
  · exact same _
  · rfl

@[simp] theorem admitNext_nextTicket (q : Outbound) : q.admitNext.nextTicket = q.nextTicket := by
  unfold admitNext; split <;> rfl

theorem admitNext_keeps (q : Outbound) : Keeps q q.admitNext := by
  refine ⟨fun waits => by rwa [admitNext_senders], fun entered => by rwa [admitNext_accepted], ?_⟩
  intro below w present
  obtain ⟨earlier, old, same, _⟩ := mem_admitNext present
  rw [← same, admitNext_nextTicket]
  exact below earlier old

theorem remove_senders (q : Outbound) (ticket : Nat) : (q.remove ticket).senders = Table.erase ticket q.senders := by
  simp only [senders, remove, Table.erase, List.filter_map]
  rfl

theorem remove_senders_other {other : Nat} (different : other ≠ ticket) :
    (q.remove ticket).senders.lookup other = q.senders.lookup other := by
  rw [remove_senders, Table.lookup_erase, if_neg different]

theorem standInLine_senders (q : Outbound) (ticket other : Nat) :
    (q.standInLine ticket).senders.lookup other = q.senders.lookup other := by
  have moved : (q.standInLine ticket).senders = Table.erase ticket q.senders ++ q.senders.filter (·.1 = ticket) := by
    rw [← remove_senders]
    simp only [senders, standInLine, List.map_append, List.map_map, List.filter_map]
    rfl
  rw [moved, List.lookup_append, Table.lookup_erase, Table.lookup_only]
  split
  · rfl
  · exact Option.or_none

theorem standInLine_keeps (q : Outbound) (ticket : Nat) : Keeps q (q.standInLine ticket) := by
  refine ⟨fun waits => by rwa [standInLine_senders], id, fun below w present => ?_⟩
  obtain ⟨earlier, old, same, _⟩ := mem_standInLine present
  exact same ▸ below earlier old

theorem offer_keeps (q : Outbound) (m : Message) (standing : Standing) : Keeps q (q.offer m standing).2 := by
  rcases q.offer_cases m standing with ⟨_, same⟩ | ⟨_, _, same⟩ | ⟨_, _, same⟩ <;> rw [same]
  · exact .refl q
  · exact ⟨id, fun entered => List.mem_append_left _ entered, id⟩
  · refine ⟨fun waits => ?_, id, fun below w present => ?_⟩
    · simp only [senders] at waits ⊢
      rw [List.map_append, List.lookup_append, waits]
      rfl
    · rcases List.mem_append.mp present with old | new
      · exact Nat.lt_succ_of_lt (below w old)
      · rw [List.mem_singleton.mp new]
        exact Nat.lt_succ_self _

theorem take_keeps (taken : q.take = some (m, after)) : Keeps q after := by
  obtain ⟨rest, _, rfl⟩ := take_cases taken
  obtain ⟨senders, accepted, below⟩ := admitNext_keeps { q with queued := rest }
  exact ⟨senders, accepted, below⟩

theorem disconnect_below (q : Outbound) : q.disconnect.Below := nofun

theorem enter_below (below : q.Below) (ticket : Nat) (m : Message) : ((q.remove ticket).enter m).Below :=
  fun w present => below w (mem_remove.mp present).1

theorem turn_below (below : q.Below) (ticket : Nat) : (q.turn ticket).2.Below := by
  rcases q.turn_cases ticket with ⟨w, _, _, same⟩ | same | same <;> rw [same]
  · exact enter_below below ticket w.message
  · exact (standInLine_keeps q ticket).below below
  · exact below

theorem abandon_below (below : q.Below) (ticket : Nat) : (q.abandon ticket).Below :=
  (admitNext_keeps _).below fun w present => below w (mem_remove.mp present).1

-- The message that enters is the one that waits under the ticket.
theorem turn_message (entered : (q.turn ticket).1 = some m) :
    q.senders.lookup ticket = some m ∧ (q.turn ticket).2 = (q.remove ticket).enter m := by
  rw [← waiter?_message]
  unfold turn at entered ⊢
  split at entered
  · cases entered
  · rename_i w waits
    split at entered
    · cases entered
      simp [*]
    · cases entered
    · split at entered
      · cases entered
        simp [*]
      · cases entered

theorem turn_idle (idle : (q.turn ticket).1 = none) : Keeps q (q.turn ticket).2 := by
  rcases q.turn_cases ticket with ⟨w, _, _, same⟩ | same | same <;> rw [same] at idle ⊢
  · cases idle
  · exact standInLine_keeps q ticket
  · exact .refl q

-- A sender that comes last and gives up at once was never there.
theorem abandon_last (below : q.Below) (full : q.hasRoom = false) {w : Waiter} (named : w.ticket = q.nextTicket) :
    ({ q with waiting := q.waiting ++ [w], nextTicket := q.nextTicket + 1 } : Outbound).abandon q.nextTicket =
      { q with nextTicket := q.nextTicket + 1 } := by
  have others : q.waiting.filter (·.ticket ≠ q.nextTicket) = q.waiting := by
    refine List.filter_eq_self.mpr fun earlier present => ?_
    simpa using Nat.ne_of_lt (below earlier present)
  have removed : (q.waiting ++ [w]).filter (·.ticket ≠ q.nextTicket) = q.waiting := by
    rw [List.filter_append, others]
    simp [named]
  unfold abandon remove
  dsimp only
  rw [removed]
  exact if_neg (Bool.eq_false_iff.mp full)

end Outbound

theorem Call.Same.request {k k' : Call} (same : Call.Same k k') : k'.request = k.request := by
  simp [Call.request, same.id, same.method, same.params]

-- Where the request of a call in this stage is.
def Call.Stage.At (q : Outbound) (m : Message) : Call.Stage → Prop
  | .waiting ticket => q.senders.lookup ticket = some m
  | .accepted => m ∈ q.accepted
  | .refused | .abandoned => True

theorem Call.Stage.At.keeps {q after : Outbound} {m : Message} {stage : Call.Stage} (there : stage.At q m)
    (keeps : q.Keeps after) : stage.At after m := by
  cases stage with
  | waiting ticket => exact keeps.senders there
  | accepted => exact keeps.accepted there
  | refused => trivial
  | abandoned => trivial

namespace Correlator
variable {c after : Correlator} {n : Nat} {k : Call} {action : Action} {m : Message} {stage : Call.Stage}

-- The stage of a call after an action.
def stageAfter (c : Correlator) : Action → Call.Stage → Call.Stage
  | .turn ticket, stage => if (c.outbound.turn ticket).1.isSome ∧ stage = .waiting ticket then .accepted else stage
  | .abandon ticket, stage => if stage = .waiting ticket then .abandoned else stage
  | .disconnect, .waiting _ => .refused
  | _, stage => stage

theorem stageAfter_abandoned (abandoned : c.stageAfter action stage = .abandoned) :
    stage = .abandoned ∨ ∃ ticket, action = .abandon ticket ∧ stage = .waiting ticket := by
  unfold stageAfter at abandoned
  split at abandoned
  · split at abandoned
    · cases abandoned
    · exact .inl abandoned
  · split at abandoned
    · exact .inr ⟨_, rfl, by assumption⟩
    · exact .inl abandoned
  · cases abandoned
  · exact .inl abandoned

theorem stageAfter_refused (refused : c.stageAfter action stage = .refused) :
    stage = .refused ∨ ∃ ticket, action = .disconnect ∧ stage = .waiting ticket := by
  unfold stageAfter at refused
  split at refused
  · split at refused
    · cases refused
    · exact .inl refused
  · split at refused
    · cases refused
    · exact .inl refused
  · exact .inr ⟨_, rfl, rfl⟩
  · exact .inl refused

theorem recorded_stage (c : Correlator) (method : String) (found : c.calls[n]? = some k) :
    ∃ k', (c.recorded method).calls[n]? = some k' ∧ Call.Same k k' ∧ k'.stage = k.stage := by
  refine ⟨_, by rw [recorded, record_calls]; simp only [found, Option.map_some]; rfl, ?_⟩
  split <;> exact ⟨⟨rfl, rfl, rfl⟩, rfl⟩

theorem send_stage (c : Correlator) (method : String) (params : Option Payload) (found : c.calls[n]? = some k) :
    ∃ k', (c.send method params).2.calls[n]? = some k' ∧ Call.Same k k' ∧ k'.stage = k.stage := by
  obtain ⟨k', found', same⟩ := recorded_stage c method found
  have bound : n < (c.recorded method).calls.length := (List.getElem?_eq_some_iff.mp found').1
  rcases c.send_cases method params with ⟨_, sent⟩ | ⟨_, _, sent⟩ | ⟨_, _, _, sent⟩ | ⟨_, _, _, sent⟩ <;> rw [sent]
  · exact ⟨k, found, .refl k, rfl⟩
  · exact ⟨k', found', same⟩
  · exact ⟨k', (List.getElem?_append_left bound).trans found', same⟩
  · exact ⟨k', (List.getElem?_append_left bound).trans found', same⟩

theorem step_stage (linked : Linked c) (action : Action) (found : c.calls[n]? = some k) :
    ∃ k', (c.step action).calls[n]? = some k' ∧ Call.Same k k' ∧ k'.stage = c.stageAfter action k.stage := by
  cases action with
  | send method params => exact send_stage c method params found
  | turn ticket =>
    change ∃ k', (c.turn ticket).calls[n]? = some k' ∧ _
    simp only [stageAfter]
    unfold turn
    split <;> rename_i turned <;> rw [turned]
    · exact ⟨k, found, .refl k, by simp⟩
    · obtain ⟨k', found', same, _, stage⟩ := restage_call ticket .accepted found
      exact ⟨k', found', same, by simpa using stage⟩
  | abandon ticket =>
    obtain ⟨k', found', same, _, stage⟩ := restage_call ticket .abandoned found
    exact ⟨k', found', same, stage⟩
  | resolve id reply =>
    change ∃ k', (c.resolve id reply).2.calls[n]? = some k' ∧ _
    rw [resolve_fields]
    exact settle_stage linked id _ found
  | fail id error =>
    change ∃ k', (c.fail id error).2.calls[n]? = some k' ∧ _
    rw [fail_eq]
    exact settle_stage linked id _ found
  | cancel id =>
    change ∃ k', (c.cancel id).2.calls[n]? = some k' ∧ _
    rw [cancel_fields]
    exact settle_stage linked id _ found
  | failAll =>
    refine ⟨_, by simp only [step, failAll_calls, found, Option.map_some]; rfl, ?_⟩
    split <;> exact ⟨⟨rfl, rfl, rfl⟩, rfl⟩
  | take =>
    refine ⟨k, ?_, .refl k, rfl⟩
    rcases c.step_take with ⟨_, same⟩ | ⟨_, _, taken, same⟩ <;> rw [same]
    · exact found
    · rw [take_fields taken]
      exact found
  | disconnect =>
    refine ⟨_, by simp only [step, disconnect, List.getElem?_map, found, Option.map_some]; rfl, ?_⟩
    obtain ⟨_, _, _, stage, _, _⟩ := k
    cases stage <;> exact ⟨⟨rfl, rfl, rfl⟩, rfl⟩
  | poll call =>
    obtain ⟨k', found', same, _, stage⟩ := poll_call call found
    exact ⟨k', found', same, stage⟩
  | forget call =>
    obtain ⟨k', found', same, _, stage⟩ := taken_call call found
    exact ⟨k', found', same, stage⟩

theorem step_keeps (turns : ∀ ticket, action ≠ .turn ticket) (abandons : ∀ ticket, action ≠ .abandon ticket)
    (ends : action ≠ .disconnect) : c.outbound.Keeps (c.step action).outbound := by
  have queues : Queues c (.act action) (c.step action).outbound := move_queues c (.act action)
  generalize (c.step action).outbound = after, asks : Move.act action = move at queues ⊢
  cases queues with
  | keeps => exact .refl _
  | offers _ => exact Outbound.offer_keeps ..
  | passes => cases asks
  | turns => exact absurd (Move.act.inj asks) (turns _)
  | abandons => exact absurd (Move.act.inj asks) (abandons _)
  | takes taken => exact Outbound.take_keeps taken
  | ends => exact absurd (Move.act.inj asks) ends

-- What an action does to the queue. Most only add to it, and leave the stages of calls alone.
inductive Queueing (c : Correlator) : Action → Outbound → Prop where
  | kept {action : Action} {after : Outbound} : c.outbound.Keeps after → (∀ stage, c.stageAfter action stage = stage) →
      Queueing c action after
  | turned (ticket : Nat) : Queueing c (.turn ticket) (c.outbound.turn ticket).2
  | abandoned (ticket : Nat) : Queueing c (.abandon ticket) (c.outbound.abandon ticket)
  | ended : Queueing c .disconnect c.outbound.disconnect

theorem step_queueing (c : Correlator) (action : Action) : Queueing c action (c.step action).outbound := by
  cases action with
  | turn ticket =>
    change Queueing c _ (c.turn ticket).outbound
    rw [turn_outbound]
    exact .turned ticket
  | abandon ticket => exact .abandoned ticket
  | disconnect => exact .ended
  | _ => exact .kept (step_keeps nofun nofun nofun) fun _ => rfl

theorem step_below (below : c.outbound.Below) (action : Action) : (c.step action).outbound.Below := by
  have queueing := step_queueing c action
  generalize (c.step action).outbound = after at queueing ⊢
  cases queueing with
  | kept keeps _ => exact keeps.below below
  | turned ticket => exact Outbound.turn_below below ticket
  | abandoned ticket => exact Outbound.abandon_below below ticket
  | ended => exact Outbound.disconnect_below c.outbound

theorem turn_at (there : stage.At c.outbound m) (ticket : Nat) :
    (c.stageAfter (.turn ticket) stage).At (c.outbound.turn ticket).2 m := by
  rw [stageAfter]
  cases entered : (c.outbound.turn ticket).1 with
  | none => simpa using there.keeps (Outbound.turn_idle entered)
  | some first =>
    obtain ⟨waits, turned⟩ := Outbound.turn_message entered
    rw [turned]
    cases stage with
    | waiting other =>
      by_cases here : other = ticket
      · subst here
        obtain rfl : first = m := Option.some.inj (waits.symm.trans there)
        simp [Call.Stage.At, Outbound.enter]
      · simp only [Call.Stage.waiting.injEq, here, and_false, if_false]
        exact (Outbound.remove_senders_other here).trans there
    | accepted => exact List.mem_append_left _ there
    | refused => trivial
    | abandoned => trivial

theorem abandon_at (there : stage.At c.outbound m) (ticket : Nat) :
    (c.stageAfter (.abandon ticket) stage).At (c.outbound.abandon ticket) m := by
  refine Call.Stage.At.keeps ?_ (Outbound.admitNext_keeps _)
  cases stage with
  | waiting other =>
    by_cases here : other = ticket
    · simp [stageAfter, here, Call.Stage.At]
    · simp only [stageAfter, Call.Stage.waiting.injEq, here, if_false]
      exact (Outbound.remove_senders_other here).trans there
  | accepted => exact there
  | refused => trivial
  | abandoned => trivial

-- A call's request is where its stage says, also after an action.
theorem step_at (there : stage.At c.outbound m) (action : Action) :
    (c.stageAfter action stage).At (c.step action).outbound m := by
  have queueing := step_queueing c action
  generalize (c.step action).outbound = after at queueing ⊢
  cases queueing with
  | kept keeps same =>
    rw [same]
    exact there.keeps keeps
  | turned ticket => exact turn_at there ticket
  | abandoned ticket => exact abandon_at there ticket
  | ended =>
    cases stage with
    | accepted => exact there
    | _ => trivial

theorem send_entry {id : RequestId} {entry : PendingEntry} {method : String} {params : Option Payload}
    (listed : (c.send method params).2.pending.lookup id = some entry) :
    c.pending.lookup id = some entry ∨ entry.call = c.calls.length := by
  have recorded : (c.recorded method).pending.lookup id = some entry →
      c.pending.lookup id = some entry ∨ entry.call = c.calls.length := by
    intro listed
    rw [recorded_pending, Table.lookup_put] at listed
    split at listed
    · exact .inr (Option.some.inj listed ▸ rfl)
    · exact .inl listed
  rcases c.send_cases method params with ⟨_, sent⟩ | ⟨_, _, sent⟩ | ⟨_, _, _, sent⟩ | ⟨_, _, _, sent⟩ <;>
    rw [sent] at listed
  · exact .inl listed
  · simp only [forgetPending, Table.lookup_erase] at listed
    split at listed
    · cases listed
    · exact recorded listed
  · exact recorded listed
  · exact recorded listed

-- An action adds no entry but that of a new call.
theorem step_entry {id : RequestId} {entry : PendingEntry} (listed : (c.step action).pending.lookup id = some entry) :
    c.pending.lookup id = some entry ∨ entry.call = c.calls.length := by
  have effect : Effect c (.act action) (c.step action) := move_effect c (.act action)
  generalize c.step action = after at effect listed
  cases effect with
  | still _ pending _ => exact .inl (pending ▸ listed)
  | sent method params => exact send_entry listed
  | settled other outcome _ _ =>
    change (c.settle other outcome).pending.lookup id = some entry at listed
    rw [settle_lookup] at listed
    split at listed
    · cases listed
    · exact .inl listed
  | failed =>
    rw [failAll_eq] at listed
    cases listed
  | disconnected =>
    rw [disconnect_lookup] at listed
    split at listed
    · cases listed
    · exact .inl listed

-- A new call has its request in the queue, or waits with it.
theorem send_new {method : String} {params : Option Payload} (below : c.outbound.Below)
    (found : (c.send method params).2.calls[n]? = some k) (new : c.calls[n]? = none) :
    k.stage.At (c.send method params).2.outbound (.request k.request) ∧ k.stage ≠ .refused ∧ k.stage ≠ .abandoned := by
  have absent : (c.recorded method).calls[n]? = none := by
    rw [List.getElem?_eq_none_iff] at new ⊢
    exact (show (c.recorded method).calls.length = c.calls.length from record_length ..) ▸ new
  rcases c.send_cases method params with ⟨_, sent⟩ | ⟨_, _, sent⟩ | ⟨_, _, _, sent⟩ | ⟨_, _, _, sent⟩ <;>
    rw [sent] at found ⊢
  · cases new.symm.trans found
  · cases absent.symm.trans found
  · rcases grown_cases found with old | ⟨_, rfl⟩
    · cases absent.symm.trans old
    · exact ⟨by simp [Call.Stage.At, Outbound.enter, Call.request], by simp, by simp⟩
  · rcases grown_cases found with old | ⟨_, rfl⟩
    · cases absent.symm.trans old
    · refine ⟨?_, by simp, by simp⟩
      have others : c.outbound.senders.lookup c.outbound.nextTicket = none := by
        refine Table.lookup_eq_none.mpr fun present => ?_
        obtain ⟨_, there, same⟩ := List.mem_map.mp present
        obtain ⟨w, waits, rfl⟩ := List.mem_map.mp there
        exact Nat.ne_of_lt (below w waits) same
      simp only [Outbound.senders] at others
      simp [Call.Stage.At, Outbound.senders, List.lookup_append, others, Call.request]

-- Every request is where the stage of its call says, and no entry is left of a call that was
-- refused.
structure Placed (c : Correlator) : Prop where
  below : c.outbound.Below
  stands : ∀ (n : Nat) (k : Call), c.calls[n]? = some k → k.stage.At c.outbound (.request k.request)
  withdrawn : ∀ {id entry k}, c.pending.lookup id = some entry → c.calls[entry.call]? = some k → k.stage ≠ .refused

theorem initial_placed (cancellation : Option CancelSettings) (capacity : Nat) : Placed (initial cancellation capacity) :=
  ⟨nofun, nofun, nofun⟩

-- What the queue's end refuses is taken out of the table by its id.
theorem disconnect_withdrawn {id : RequestId} {entry : PendingEntry} (linked : Linked c) (placed : Placed c)
    (listed : c.disconnect.pending.lookup id = some entry) (found : c.calls[entry.call]? = some k) (ticket : Nat) :
    k.stage ≠ .waiting ticket := by
  intro waits
  rw [disconnect_lookup] at listed
  split at listed
  · cases listed
  · rename_i kept
    obtain ⟨k', found', named, _⟩ := linked.awaits listed
    obtain rfl : k' = k := Option.some.inj (found'.symm.trans found)
    have there := placed.stands _ _ found
    rw [waits] at there
    obtain ⟨w, present, same⟩ := List.mem_map.mp (Table.mem_of_lookup there)
    exact kept (mem_waitingIds.mpr ⟨w, present, _, (Prod.mk.inj same).2, named⟩)

theorem step_placed (linked : Linked c) (placed : Placed c) (action : Action) : Placed (c.step action) := by
  refine ⟨step_below placed.below action, fun n k' found' => ?_, fun {id entry k'} listed found' => ?_⟩
  · cases there : c.calls[n]? with
    | none =>
      obtain ⟨method, params, rfl, _⟩ := step_new found' there
      exact (send_new placed.below found' there).1
    | some k =>
      obtain ⟨k'', found'', same, stage⟩ := step_stage linked action there
      obtain rfl : k'' = k' := Option.some.inj (found''.symm.trans found')
      rw [stage, same.request]
      exact step_at (placed.stands n k there) action
  · cases there : c.calls[entry.call]? with
    | none =>
      obtain ⟨method, params, rfl, _⟩ := step_new found' there
      exact (send_new placed.below found' there).2.1
    | some k =>
      obtain ⟨k'', found'', _, stage⟩ := step_stage linked action there
      obtain rfl : k'' = k' := Option.some.inj (found''.symm.trans found')
      rcases step_entry listed with earlier | new
      · intro refused
        rcases stageAfter_refused (stage.symm.trans refused) with before | ⟨ticket, rfl, waits⟩
        · exact placed.withdrawn earlier there before
        · exact disconnect_withdrawn linked placed listed there ticket waits
      · rw [new, List.getElem?_eq_none (Nat.le_refl _)] at there
        cases there

theorem run_snoc (c : Correlator) (actions : List Action) (action : Action) :
    c.run (actions ++ [action]) = (c.run actions).step action :=
  run_append actions [action]

section Runs
variable {cancellation : Option CancelSettings} {capacity : Nat}

theorem runs_linked (actions : List Action) : Linked (run (initial cancellation capacity) actions) := by
  induction actions using List.reverseRecOn with
  | nil => exact initial_linked ..
  | append_singleton earlier action ih => exact run_snoc _ earlier action ▸ step_linked ih action

theorem runs_placed (actions : List Action) : Placed (run (initial cancellation capacity) actions) := by
  induction actions using List.reverseRecOn with
  | nil => exact initial_placed ..
  | append_singleton earlier action ih => exact run_snoc _ earlier action ▸ step_placed (runs_linked earlier) ih action

-- Only a sender that gives up while it waits abandons its call.
theorem runs_abandoned (actions : List Action) (found : (run (initial cancellation capacity) actions).calls[n]? = some k)
    (abandoned : k.stage = .abandoned) :
    ∃ earlier ticket later k', actions = earlier ++ .abandon ticket :: later ∧
      (run (initial cancellation capacity) earlier).calls[n]? = some k' ∧ k'.stage = .waiting ticket := by
  induction actions using List.reverseRecOn generalizing k with
  | nil => simp [run, initial] at found
  | append_singleton before action ih =>
    rw [run_snoc] at found
    cases there : (run (initial cancellation capacity) before).calls[n]? with
    | none =>
      obtain ⟨method, params, rfl, _⟩ := step_new found there
      exact absurd abandoned (send_new (runs_placed before).below found there).2.2
    | some k' =>
      obtain ⟨k'', found'', _, stage⟩ := step_stage (runs_linked before) action there
      obtain rfl : k'' = k := Option.some.inj (found''.symm.trans found)
      rcases stageAfter_abandoned (stage.symm.trans abandoned) with already | ⟨ticket, rfl, waits⟩
      · obtain ⟨earlier, ticket, later, first, rfl, rest⟩ := ih there already
        exact ⟨earlier, ticket, later ++ [action], first, by simp, rest⟩
      · exact ⟨before, ticket, [], k', rfl, there, waits⟩

end Runs

theorem recorded_eq (absent : c.pending.lookup c.fresh = none) (method : String) :
    c.recorded method =
      { c with nextId := c.nextId + 1, pending := c.pending ++ [(c.fresh, ⟨method, c.calls.length⟩)] } := by
  have put : Table.put c.fresh ⟨method, c.calls.length⟩ c.pending = _ := Table.put_of_absent absent
  simp only [fresh] at absent put ⊢
  simp [recorded, record, absent, put]

theorem Ledger.send_refused {sent : Nat} {method : String} {params : Option Payload} (ledger : Ledger c sent)
    (few : sent < 0x10000000000000000) (refused : (c.send method params).1 = .closed) :
    (c.send method params).2 = { c with nextId := c.nextId + 1 } := by
  have absent := ledger.fresh_absent few
  rcases c.send_cases method params with ⟨_, sent⟩ | ⟨_, _, sent⟩ | ⟨_, _, _, sent⟩ | ⟨_, _, _, sent⟩ <;>
    rw [sent] at refused ⊢
  · have erased : Table.erase c.fresh (Table.put c.fresh ⟨method, c.calls.length⟩ c.pending) = c.pending :=
      Table.erase_put absent
    rw [Table.put_of_absent absent] at erased
    rw [recorded_eq absent]
    simp only [forgetPending, erased]
  · cases refused
  · cases refused

-- A send that finds the queue full has recorded its entry, and its sender stands last.
theorem Ledger.send_waits {sent call ticket : Nat} {method : String} {params : Option Payload} (ledger : Ledger c sent)
    (few : sent < 0x10000000000000000) (waits : (c.send method params).1 = .waiting call ticket) :
    call = c.calls.length ∧ ticket = c.outbound.nextTicket ∧ c.outbound.hasRoom = false ∧
    (c.send method params).2 = { c with
      nextId := c.nextId + 1
      pending := c.pending ++ [(c.fresh, ⟨method, call⟩)]
      outbound := { c.outbound with
        waiting := c.outbound.waiting ++ [⟨ticket, .request ⟨c.fresh, method, params⟩, .inLine⟩]
        nextTicket := c.outbound.nextTicket + 1 }
      calls := c.calls ++ [⟨c.fresh, method, params, .waiting ticket, none, false⟩] } := by
  rcases c.send_cases method params with ⟨_, sent⟩ | ⟨_, _, sent⟩ | ⟨_, _, _, sent⟩ | ⟨_, _, full, sent⟩ <;>
    rw [sent] at waits ⊢ <;> cases waits
  exact ⟨rfl, rfl, full, by simp only [recorded_eq (ledger.fresh_absent few)]⟩

-- Nothing but ids, tickets and calls was used up.
structure Traceless (before after : Correlator) : Prop where
  pending : after.pending = before.pending
  cancelled : after.cancelled = before.cancelled
  outbound : after.outbound = { before.outbound with nextTicket := after.outbound.nextTicket }

theorem Ledger.disconnect_traceless {sent call ticket : Nat} {method : String} {params : Option Payload}
    (ledger : Ledger c sent) (few : sent < 0x10000000000000000)
    (waits : (c.send method params).1 = .waiting call ticket) :
    Traceless c.disconnect (c.send method params).2.disconnect := by
  obtain ⟨_, _, _, same⟩ := ledger.send_waits few waits
  rw [same]
  refine ⟨?_, rfl, rfl⟩
  have others : ∀ entry ∈ c.pending, entry.1 ≠ c.fresh := fun entry present fresh =>
    Table.lookup_eq_none.mp (ledger.fresh_absent few) (List.mem_map.mpr ⟨entry, present, fresh⟩)
  have ids : waitingIds (c.outbound.waiting ++ [⟨ticket, .request ⟨c.fresh, method, params⟩, .inLine⟩]) =
      waitingIds c.outbound.waiting ++ [c.fresh] := by
    simp [waitingIds]
  simp only [disconnect, ids, eraseAll_eq, List.filter_append]
  rw [List.filter_congr (q := (·.1 ∉ waitingIds c.outbound.waiting)) fun entry present => by
    simp [others entry present]]
  simp

theorem Ledger.abandon_traceless {sent call ticket : Nat} {method : String} {params : Option Payload}
    (ledger : Ledger c sent) (placed : Placed c) (few : sent < 0x10000000000000000)
    (waits : (c.send method params).1 = .waiting call ticket) :
    Traceless { c with pending := c.pending ++ [(c.fresh, ⟨method, call⟩)] }
      ((c.send method params).2.abandon ticket) := by
  obtain ⟨_, rfl, full, same⟩ := ledger.send_waits few waits
  have gone := Outbound.abandon_last placed.below full (w := ⟨_, .request ⟨c.fresh, method, params⟩, .inLine⟩) rfl
  rw [same]
  refine ⟨rfl, rfl, ?_⟩
  simp only [abandon, gone]

-- A send that is refused, at once or while it waits for room, leaves no trace. One that its
-- caller gives up while it waits leaves its entry: so the request of an entry is queued, or
-- waits to be, or was given up before it was.
theorem refused_sends_leave_no_trace (cancellation : Option CancelSettings) (capacity : Nat) (actions : List Action)
    (few : sends actions < 0x10000000000000000) :
    let c := run (initial cancellation capacity) actions
    (∀ method params, (c.send method params).1 = .closed →
      (c.send method params).2 = { c with nextId := c.nextId + 1 }) ∧
    (∀ method params call ticket, (c.send method params).1 = .waiting call ticket →
      Traceless c.disconnect (c.send method params).2.disconnect ∧
      Traceless { c with pending := c.pending ++ [(c.fresh, ⟨method, call⟩)] }
        ((c.send method params).2.abandon ticket)) ∧
    ∀ id entry, (id, entry) ∈ c.pending →
      ∃ k, c.calls[entry.call]? = some k ∧ k.id = id ∧ k.method = entry.method ∧
        (k.stage = .accepted ∧ .request k.request ∈ c.outbound.accepted ∨
          (∃ w ∈ c.outbound.waiting, k.stage = .waiting w.ticket ∧ w.message = .request k.request) ∨
          k.stage = .abandoned ∧ ∃ earlier ticket later k', actions = earlier ++ .abandon ticket :: later ∧
            (run (initial cancellation capacity) earlier).calls[entry.call]? = some k' ∧ k'.stage = .waiting ticket) := by
  intro c
  have ledger : Ledger c (sends actions) := runs_ledger cancellation capacity actions (by omega)
  have placed : Placed c := runs_placed actions
  refine ⟨fun method params refused => ledger.send_refused few refused, fun method params call ticket waits => ?_, ?_⟩
  · exact ⟨ledger.disconnect_traceless few waits, ledger.abandon_traceless placed few waits⟩
  · intro id entry present
    have listed := Table.lookup_of_mem ledger.linked.distinct present
    obtain ⟨k, found, named, method, _⟩ := ledger.linked.awaits listed
    refine ⟨k, found, named, method, ?_⟩
    have there := placed.stands _ _ found
    cases stage : k.stage with
    | accepted =>
      rw [stage] at there
      exact .inl ⟨rfl, there⟩
    | waiting ticket =>
      rw [stage] at there
      obtain ⟨w, waits, same⟩ := List.mem_map.mp (Table.mem_of_lookup there)
      obtain ⟨rfl, message⟩ := Prod.mk.inj same
      exact .inr (.inl ⟨w, waits, rfl, message⟩)
    | abandoned => exact .inr (.inr ⟨rfl, runs_abandoned actions found stage⟩)
    | refused => exact absurd stage (placed.withdrawn listed found)

-- Of three requests the first is queued, the second waits, and the third is given up.
theorem refused_sends_leave_no_trace_three :
    let actions := [.send "a" none, .send "b" none, .send "c" none, .abandon 1]
    let final := run (initial none 1) actions
    sends actions < 0x10000000000000000 ∧ final.calls.map (·.stage) = [.accepted, .waiting 0, .abandoned] ∧
      (.number 3, ⟨"c", 2⟩) ∈ final.pending ∧ (final.send "d" none).1 = .waiting 3 2 ∧
      Traceless final.disconnect (final.send "d" none).2.disconnect ∧
      ∃ k, final.calls[2]? = some k ∧ k.id = .number 3 := by
  have few : sends [.send "a" none, .send "b" none, .send "c" none, .abandon 1] < 0x10000000000000000 := by decide
  obtain ⟨_, waits, entries⟩ := refused_sends_leave_no_trace none 1 _ few
  have present : ((.number 3, ⟨"c", 2⟩) : RequestId × PendingEntry) ∈
      (run (initial none 1) [.send "a" none, .send "b" none, .send "c" none, .abandon 1]).pending := by decide
  obtain ⟨k, found, named, _⟩ := entries _ _ present
  exact ⟨few, by decide, present, by decide, (waits "d" none 3 2 (by decide)).1, k, found, named⟩

-- A request that was given up was never queued and nobody waits with it, but its entry stays.
theorem abandoned_send_keeps_its_entry :
    let before := run (initial none 1) [.send "a" none]
    let final := run (initial none 1) [.send "a" none, .send "b" none, .abandon 0]
    before.pending = [(.number 1, ⟨"a", 0⟩)] ∧ final.pending = [(.number 1, ⟨"a", 0⟩), (.number 2, ⟨"b", 1⟩)] ∧
      .request ⟨.number 2, "b", none⟩ ∉ final.outbound.accepted ∧ final.outbound.waiting = [] := by
  decide

end Correlator
end DuplexRpc
