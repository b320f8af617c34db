import DuplexRpc.Proofs.Connection.Moves

namespace DuplexRpc.Correlator
variable {c before after : Correlator} {n : Nat} {k : Call} {id : RequestId}

-- No call is made and none gets an outcome.
structure Still (before after : Correlator) : Prop where
  quiet : Quiet before after
  length : after.calls.length = before.calls.length

theorem Still.of_eq (same : after.calls = before.calls) : Still before after :=
  ⟨.of_eq same, by rw [same]⟩

theorem Still.refl (c : Correlator) : Still c c := .of_eq rfl

theorem Still.trans (one : Still before c) (two : Still c after) : Still before after := by
  refine ⟨fun n k found => ?_, two.length.trans one.length⟩
  obtain ⟨k', found', same, outcome⟩ := one.quiet n k found
  obtain ⟨k'', found'', same', outcome'⟩ := two.quiet n k' found'
  exact ⟨k'', found'', same.trans same', outcome'.trans outcome⟩

theorem Still.back (still : Still before after) {k' : Call} (found : after.calls[n]? = some k') :
    ∃ k, before.calls[n]? = some k ∧ Call.Same k k' ∧ k'.outcome = k.outcome := by
  have bound : n < before.calls.length := still.length ▸ (List.getElem?_eq_some_iff.mp found).1
  obtain ⟨k'', found'', same, outcome⟩ := still.quiet n _ (List.getElem?_eq_getElem bound)
  obtain rfl : k'' = k' := Option.some.inj (found''.symm.trans found)
  exact ⟨_, List.getElem?_eq_getElem bound, same, outcome⟩

theorem turn_still (c : Correlator) (ticket : Nat) : Still c (c.turn ticket) := by
  refine ⟨turn_quiet c ticket, ?_⟩
  unfold turn
  split <;> simp [restage]

theorem abandon_still (c : Correlator) (ticket : Nat) : Still c (c.abandon ticket) :=
  ⟨restage_quiet c _ ticket .abandoned, by simp [abandon, restage]⟩

theorem take_still (c : Correlator) : Still c (c.step .take) := by
  rcases c.step_take with ⟨_, same⟩ | ⟨_, _, taken, same⟩ <;> rw [same]
  · exact .refl c
  · rw [take_fields taken]
    exact .of_eq rfl

theorem take_pending (c : Correlator) : (c.step .take).pending = c.pending := by
  rcases c.step_take with ⟨_, same⟩ | ⟨_, _, taken, same⟩ <;> rw [same]
  rw [take_fields taken]

theorem disconnect_still (c : Correlator) : Still c c.disconnect :=
  ⟨disconnect_quiet c, by simp [disconnect]⟩

theorem poll_still (c : Correlator) (call : Nat) : Still c (c.poll call).2 :=
  ⟨poll_quiet c call, poll_length c call⟩

theorem forget_still (c : Correlator) (call : Nat) : Still c (c.forget call) :=
  ⟨modify_quiet c call, by simp [forget]⟩

-- What a move does to the calls and to their table.
inductive Effect (c : Correlator) : Move → Correlator → Prop where
  | still {m : Move} {after : Correlator} : Still c after → after.pending = c.pending → after.closed = c.closed →
      Effect c m after
  | sent (method : String) (params : Option Payload) : Effect c (.act (.send method params)) (c.send method params).2
  | settled {m : Move} (id : RequestId) (outcome : CallOutcome) (cancelled : List RequestId) (outbound : Outbound) :
      Effect c m { c.settle id outcome with cancelled := cancelled, outbound := outbound }
  | failed : Effect c (.act .failAll) c.failAll.2
  | disconnected : Effect c (.act .disconnect) c.disconnect

theorem move_effect (c : Correlator) (m : Move) : Effect c m (c.move m) := by
  cases m with
  | offer message standing => exact .still (.of_eq rfl) rfl rfl
  | act action =>
    cases action with
    | send method params => exact .sent method params
    | turn ticket =>
      refine .still (turn_still c ticket) (turn_pending c ticket) ?_
      change (c.turn ticket).closed = c.closed
      unfold turn
      split <;> rfl
    | abandon ticket => exact .still (abandon_still c ticket) rfl rfl
    | resolve id reply =>
      change Effect c _ (c.resolve id reply).2
      rw [resolve_fields]
      exact .settled id (.ofReply reply) _ _
    | fail id error =>
      change Effect c _ (c.fail id error).2
      rw [fail_eq]
      exact .settled id (.error error) _ _
    | cancel id =>
      change Effect c _ (c.cancel id).2
      rw [cancel_fields]
      exact .settled id (.error (.cancelled id)) _ _
    | failAll => exact .failed
    | take =>
      refine .still (take_still c) (take_pending c) ?_
      rcases c.step_take with ⟨_, same⟩ | ⟨_, _, taken, same⟩ <;> rw [move, same]
      rw [take_fields taken]
    | disconnect => exact .disconnected
    | poll call =>
      refine .still (poll_still c call) (poll_pending c call) ?_
      change (c.poll call).2.closed = c.closed
      rw [poll_fields]
    | forget call => exact .still (forget_still c call) rfl rfl

-- Every call without an outcome is in the table, so that ending all entries ends all calls. This
-- holds whatever ids are used: a call whose entry is replaced is ended by that.
def Awaited (c : Correlator) : Prop :=
  ∀ (n : Nat) (k : Call), c.calls[n]? = some k → k.outcome = none →
    (c.pending.lookup k.id).map PendingEntry.call = some n

theorem initial_awaited (cancellation : Option CancelSettings) (capacity : Nat) :
    Awaited (initial cancellation capacity) := by
  intro n k found
  simp [initial] at found

theorem Awaited.still (awaited : Awaited before) (still : Still before after)
    (pending : after.pending = before.pending) : Awaited after := by
  intro n k' found' unanswered
  obtain ⟨k, found, same, outcome⟩ := still.back found'
  rw [pending, same.id]
  exact awaited n k found (outcome.symm.trans unanswered)

theorem Awaited.settle (awaited : Awaited c) (linked : Linked c) (id : RequestId) (outcome : CallOutcome) :
    Awaited (c.settle id outcome) := by
  intro n k' found' unanswered
  have bound : n < c.calls.length := settle_length c id outcome ▸ (List.getElem?_eq_some_iff.mp found').1
  have settled := settle_call linked id outcome (List.getElem?_eq_getElem bound)
  rw [found'] at settled
  split at settled <;> rename_i mine
  · rw [Option.some.inj settled] at unanswered
    cases unanswered
  · obtain rfl := Option.some.inj settled
    have listed := awaited n _ (List.getElem?_eq_getElem bound) unanswered
    rw [settle_lookup, if_neg]
    · exact listed
    · rintro rfl
      exact mine listed

-- What is recorded over ends, so an open call has an entry under another id.
theorem Awaited.recorded (awaited : Awaited c) (method : String) (found : (c.recorded method).calls[n]? = some k)
    (unanswered : k.outcome = none) :
    k.id ≠ c.fresh ∧ (c.pending.lookup k.id).map PendingEntry.call = some n := by
  have bound : n < c.calls.length := by
    have length : (c.recorded method).calls.length = c.calls.length := record_length ..
    exact length ▸ (List.getElem?_eq_some_iff.mp found).1
  rw [Correlator.recorded, record_calls] at found
  simp only [List.getElem?_eq_getElem bound, Option.map_some, Option.some.injEq] at found
  split at found <;> rename_i replaced
  · rw [← found] at unanswered
    cases answer : (c.calls[n]).outcome <;> simp [Call.finish, answer] at unanswered
  · subst found
    have listed := awaited n _ (List.getElem?_eq_getElem bound) unanswered
    refine ⟨fun same => replaced ?_, listed⟩
    rw [same] at listed
    exact listed

theorem Awaited.grown (awaited : Awaited c) {method : String} {new : Call} (named : new.id = c.fresh)
    (outbound : Outbound) :
    Awaited { c.recorded method with outbound := outbound, calls := (c.recorded method).calls ++ [new] } := by
  intro n k found unanswered
  rw [recorded_pending, Table.lookup_put]
  rcases grown_cases found with old | ⟨place, rfl⟩
  · obtain ⟨different, listed⟩ := awaited.recorded method old unanswered
    rw [if_neg different]
    exact listed
  · have length : (c.recorded method).calls.length = c.calls.length := record_length ..
    rw [if_pos named, place, length]
    rfl

theorem Awaited.send (awaited : Awaited c) (method : String) (params : Option Payload) :
    Awaited (c.send method params).2 := by
  rcases c.send_cases method params with ⟨_, sent⟩ | ⟨_, _, sent⟩ | ⟨_, _, _, sent⟩ | ⟨_, _, _, sent⟩ <;> rw [sent]
  · exact awaited
  · intro n k found unanswered
    obtain ⟨different, listed⟩ := awaited.recorded method found unanswered
    simp only [forgetPending, recorded_pending, Table.lookup_erase, Table.lookup_put, if_neg different]
    exact listed
  · exact awaited.grown rfl _
  · exact awaited.grown rfl _

theorem Awaited.failAll (awaited : Awaited c) (found : c.calls[n]? = some k) :
    ∃ k', c.failAll.2.calls[n]? = some k' ∧ Call.Same k k' ∧
      k'.outcome = some (k.outcome.getD (.error .connectionClosed)) := by
  refine ⟨_, by rw [failAll_calls, found, Option.map_some], ?_⟩
  split <;> rename_i listed
  · refine ⟨⟨rfl, rfl, rfl⟩, ?_⟩
    cases answer : k.outcome <;> simp [Call.finish, answer]
  · refine ⟨.refl k, ?_⟩
    cases answer : k.outcome with
    | some _ => rfl
    | none =>
      obtain ⟨entry, pending, here⟩ := Option.map_eq_some_iff.mp (awaited n k found answer)
      exact absurd (List.mem_map.mpr ⟨_, Table.mem_of_lookup pending, here⟩) listed

-- Nothing is awaited any more, and no request is taken on.
structure Finished (c : Correlator) : Prop where
  closed : c.closed = true
  empty : c.pending = []
  answered : ∀ (n : Nat) (k : Call), c.calls[n]? = some k → k.outcome ≠ none

theorem failAll_finished (awaited : Awaited c) : Finished c.failAll.2 := by
  refine ⟨by rw [failAll_eq], by rw [failAll_eq], fun n k' found' => ?_⟩
  have bound : n < c.calls.length := failAll_length c ▸ (List.getElem?_eq_some_iff.mp found').1
  obtain ⟨k, found, _, outcome⟩ := awaited.failAll (List.getElem?_eq_getElem bound)
  obtain rfl : k = k' := Option.some.inj (found.symm.trans found')
  simp [outcome]

theorem move_awaited {m : Move} (linked : Linked c) (awaited : Awaited c) (stays : m ≠ .act .disconnect) :
    Awaited (c.move m) := by
  have effect := move_effect c m
  generalize c.move m = after at effect ⊢
  cases effect with
  | still still pending _ => exact awaited.still still pending
  | sent method params => exact awaited.send method params
  | settled id outcome _ _ => exact awaited.settle linked id outcome
  | failed => exact fun n k found unanswered => absurd unanswered ((failAll_finished awaited).answered n k found)
  | disconnected => exact absurd rfl stays

theorem moveAll_awaited {moves : List Move} (linked : Linked c) (awaited : Awaited c)
    (stays : .act .disconnect ∉ moves) : Awaited (c.moveAll moves) := by
  induction moves generalizing c with
  | nil => exact awaited
  | cons m rest ih =>
    obtain ⟨here, later⟩ := not_or.mp (List.mem_cons.not.mp stays)
    exact ih (move_linked linked m) (move_awaited linked awaited (Ne.symm here)) later

theorem Finished.still (finished : Finished before) (still : Still before after) (closed : after.closed = before.closed)
    (pending : after.pending = before.pending) : Finished after := by
  refine ⟨closed.trans finished.closed, pending.trans finished.empty, fun n k' found' => ?_⟩
  obtain ⟨k, found, _, outcome⟩ := still.back found'
  rw [outcome]
  exact finished.answered n k found

theorem Finished.settle (finished : Finished c) (id : RequestId) (outcome : CallOutcome) : c.settle id outcome = c :=
  settle_of_absent outcome (by simp [finished.empty])

theorem eraseAll_eq (ids : List RequestId) (table : List (RequestId × PendingEntry)) :
    ids.foldl (fun table id => Table.erase id table) table = table.filter (·.1 ∉ ids) := by
  induction ids generalizing table with
  | nil => simp
  | cons id rest ih =>
    rw [List.foldl_cons, ih, Table.erase, List.filter_filter]
    refine List.filter_congr fun entry _ => ?_
    by_cases here : entry.1 = id <;> simp [here]

theorem Finished.disconnect (finished : Finished c) : Finished c.disconnect := by
  refine finished.still (disconnect_still c) rfl ?_
  simp only [Correlator.disconnect, eraseAll_eq, finished.empty, List.filter_nil]

-- Whatever is done afterwards, nothing is pending again and no outcome changes.
theorem move_finished (finished : Finished c) (m : Move) : Finished (c.move m) ∧ Still c (c.move m) := by
  have effect := move_effect c m
  generalize c.move m = after at effect ⊢
  cases effect with
  | still still pending closed => exact ⟨finished.still still closed pending, still⟩
  | sent method params =>
    have refused : c.send method params = (.closed, { c with nextId := c.nextId + 1 }) := by
      simp [send, finished.closed]
    rw [refused]
    exact ⟨finished.still (.of_eq rfl) rfl rfl, .of_eq rfl⟩
  | settled id outcome _ _ =>
    rw [finished.settle]
    exact ⟨finished.still (.of_eq rfl) rfl rfl, .of_eq rfl⟩
  | failed =>
    have still : Still c c.failAll.2 := by
      refine ⟨fun n k found => ⟨k, ?_, .refl k, rfl⟩, failAll_length c⟩
      rw [failAll_calls, found, finished.empty]
      rfl
    refine ⟨finished.still still ?_ ?_, still⟩ <;> rw [failAll_eq]
    · exact finished.closed.symm
    · exact finished.empty.symm
  | disconnected => exact ⟨finished.disconnect, disconnect_still c⟩

theorem moveAll_finished (finished : Finished c) (moves : List Move) :
    Finished (c.moveAll moves) ∧ Still c (c.moveAll moves) := by
  induction moves generalizing c with
  | nil => exact ⟨finished, .refl c⟩
  | cons m rest ih =>
    obtain ⟨first, still⟩ := move_finished finished m
    obtain ⟨last, still'⟩ := ih first
    exact ⟨last, still.trans still'⟩

end DuplexRpc.Correlator
