import DuplexRpc.Proofs.Connection.Events

namespace DuplexRpc.Connection
variable {c after : Connection} {action : Action} {n : Nat} {t t' : Task}

def Task.signalled (t : Task) : Task := { t with cancelled := true }

-- A task after a poll of it; `handler` is what its handler yields if it is run.
def Task.polled (c : Connection) (handler : Option Outcome) (t : Task) : Task :=
  { t with
    invoked := t.invoked || c.dispatcher.runsHandler t.request t.cancelled
    response := c.dispatcher.poll t.request t.cancelled handler }

-- What one action does to one task.
inductive Task.Turn (c : Connection) (action : Action) (after : Connection) (n : Nat) (t : Task) : Task → Prop where
  | kept : Turn c action after n t t
  | closed : c.phase ≠ .closed → after.phase = .closed → n ∈ c.inFlight.map (·.2) → Turn c action after n t t.signalled
  | own : action = .signalOwn n → t.invoked = true → t.response = none → Turn c action after n t t.signalled
  | notice {body m id} : action = .readNext → c.decoder.next.1 = some (.body body) →
      c.contract.decode c.correlator.pendingMethod body = .ok (.notification m) →
      c.served.isCancelMethod m.method = true → cancelledId? m = some id → c.inFlight.lookup id = some n →
      Turn c action after n t t.signalled
  | reused {body r} : action = .readNext → c.decoder.next.1 = some (.body body) →
      c.contract.decode c.correlator.pendingMethod body = .ok (.request r) → c.inFlight.lookup r.id = some n →
      Turn c action after n t t.signalled
  | polled {handler} : action = .pollTask n handler → t.response = none → Turn c action after n t (t.polled c handler)

theorem Task.Turn.request (turn : Turn c action after n t t') : t'.request = t.request := by
  cases turn <;> rfl

theorem Task.Turn.response {r : Response} (turn : Turn c action after n t t') (answered : t.response = some r) :
    t'.response = some r := by
  cases turn with
  | polled _ unanswered => cases unanswered.symm.trans answered
  | _ => exact answered

theorem cancelTask_get (c : Connection) (task n : Nat) :
    (c.cancelTask task).tasks[n]? = (c.tasks[n]?).map fun t => if task = n then t.signalled else t := by
  simp only [cancelTask, setTask, List.getElem?_modify]
  rfl

@[simp] theorem cancelTask_length (c : Connection) (task : Nat) : (c.cancelTask task).tasks.length = c.tasks.length := by
  simp [cancelTask, setTask]

theorem cancelAll_get (entries : List (RequestId × Nat)) (c : Connection) (n : Nat) :
    (entries.foldl (fun c entry => c.cancelTask entry.2) c).tasks[n]? =
      (c.tasks[n]?).map fun t => if n ∈ entries.map (·.2) then t.signalled else t := by
  induction entries generalizing c with
  | nil => simp
  | cons entry rest ih =>
    rw [List.foldl_cons, ih, cancelTask_get]
    cases c.tasks[n]? with
    | none => rfl
    | some t =>
      by_cases here : entry.2 = n
      · simp [here, Task.signalled]
      · have other : n ≠ entry.2 := Ne.symm here
        simp only [Option.map_some, if_neg here, List.map_cons, List.mem_cons, other, false_or]

theorem close_get (c : Connection) (n : Nat) :
    c.close.tasks[n]? = (c.tasks[n]?).map fun t =>
      if c.phase ≠ .closed ∧ n ∈ c.inFlight.map (·.2) then t.signalled else t := by
  unfold close
  split
  · rename_i closed
    simp [closed]
  · rename_i open'
    simp only [cancelAll_get, open', ne_eq, not_false_eq_true, true_and]

theorem close_turn (base : Connection) (phase : base.phase = c.phase) (tasks : base.tasks = c.tasks)
    (inFlight : base.inFlight = c.inFlight) (found : c.tasks[n]? = some t) (closed : after.phase = .closed) :
    ∃ t', base.close.tasks[n]? = some t' ∧ Task.Turn c action after n t t' := by
  refine ⟨_, by rw [close_get, tasks, found, Option.map_some], ?_⟩
  rw [phase, inFlight]
  split
  · rename_i listed
    exact .closed listed.1 closed listed.2
  · exact .kept

theorem takeRequest_tasks (c : Connection) (r : Request) :
    (c.takeRequest r).tasks = (match c.inFlight.lookup r.id with
      | some earlier => c.cancelTask earlier
      | none => c).tasks ++ [{ request := r }] := by
  unfold takeRequest
  cases c.inFlight.lookup r.id <;> rfl

theorem markRun_get {task : Nat} (found : c.tasks[task]? = some t) (n : Nat) :
    (c.markRun task t).tasks[n]? = if task = n then
      some { t with invoked := t.invoked || c.dispatcher.runsHandler t.request t.cancelled } else c.tasks[n]? := by
  obtain ⟨request, cancelled, invoked, response⟩ := t
  unfold markRun
  by_cases here : task = n
  · subst here
    cases runs : c.dispatcher.runsHandler request cancelled <;> cases invoked <;>
      simp [record, setTask, found]
  · split <;> simp [record, setTask, here]

theorem markRun_length (c : Connection) (task : Nat) (t : Task) : (c.markRun task t).tasks.length = c.tasks.length := by
  unfold markRun
  split <;> simp [record, setTask]

theorem takeFault_tasks (c : Connection) (body : List UInt8) (issue : Issue) :
    (c.takeFault body issue).tasks = c.tasks := by
  rcases c.takeFault_cases body issue with
    ⟨_, _, _, same⟩ | ⟨_, _, _, same⟩ | ⟨_, same⟩ <;> rw [same]
  · rw [handOver_fields]
    rfl
  · rfl
  · rfl

theorem takeCancel_tasks (c : Connection) (m : Notification) :
    (c.takeCancel m).tasks = match (cancelledId? m).bind fun id => c.inFlight.lookup id with
      | some task => (c.cancelTask task).tasks
      | none => c.tasks := by
  unfold takeCancel
  cases cancelledId? m with
  | none => rfl
  | some id =>
    simp only [Option.bind_some]
    cases c.inFlight.lookup id <;> rfl

theorem takeResponse_tasks (c : Connection) (r : Response) : (c.takeResponse r).tasks = c.tasks := by
  unfold takeResponse
  split
  · rfl
  · split <;> rfl

theorem finishTask_get (c : Connection) (task : Nat) (r : Response) (n : Nat) :
    (c.finishTask task r).tasks[n]? =
      (c.tasks[n]?).map fun t => if task = n then { t with response := some r } else t := by
  rw [finishTask_eq, handOver_fields]
  simp only [retire, List.getElem?_modify]
  rfl

theorem readBody_turn {body : List UInt8} (decoder : Framing.Decoder)
    (next : c.decoder.next.1 = some (.body body)) (found : c.tasks[n]? = some t) :
    ∃ t', (({ ({ c with decoder := decoder } : Connection).record (.took (.body body)) with
      faultsInRow := 0 } : Connection).takeBody body).tasks[n]? = some t' ∧ Task.Turn c .readNext after n t t' := by
  have bound : n < c.tasks.length := (List.getElem?_eq_some_iff.mp found).1
  rcases takeBody_cases _ body with ⟨issue, decoded, same⟩ | ⟨r, decoded, same⟩ | ⟨m, decoded, cancels, same⟩ |
    ⟨m, decoded, plain, same⟩ | ⟨r, decoded, same⟩ <;> rw [same]
  · rw [takeFault_tasks]
    exact ⟨t, found, .kept⟩
  · rw [takeRequest_tasks]
    split <;> rename_i earlier
    · refine ⟨_, (List.getElem?_append_left (by rw [cancelTask_length]; exact bound)).trans
        ((cancelTask_get ..).trans (congrArg _ found)), ?_⟩
      dsimp only
      split
      · rename_i here
        exact .reused rfl next decoded (here ▸ earlier)
      · exact .kept
    · exact ⟨t, (List.getElem?_append_left bound).trans found, .kept⟩
  · rw [takeCancel_tasks]
    split <;> rename_i task flight
    · obtain ⟨id, named, latest⟩ := Option.bind_eq_some_iff.mp flight
      refine ⟨_, (cancelTask_get ..).trans (congrArg _ found), ?_⟩
      dsimp only
      split
      · rename_i here
        exact .notice rfl next decoded cancels named (here ▸ latest)
      · exact .kept
    · exact ⟨t, found, .kept⟩
  · exact ⟨t, found, .kept⟩
  · rw [takeResponse_tasks]
    exact ⟨t, found, .kept⟩

theorem finishTask_length (c : Connection) (task : Nat) (r : Response) :
    (c.finishTask task r).tasks.length = c.tasks.length := by
  rw [finishTask_eq, handOver_fields]
  simp [retire]

theorem pollTask_task {task : Nat} {handler : Option Outcome} (moved : c.pollTask task handler = some after) :
    ∃ t, c.tasks[task]? = some t ∧ t.response = none ∧
      ∀ n, after.tasks[n]? = if task = n then some (t.polled c handler) else c.tasks[n]? := by
  obtain ⟨t, found, unanswered, outcome⟩ := pollTask_cases moved
  refine ⟨t, found, unanswered, fun n => ?_⟩
  rcases outcome with ⟨r, answer, rfl⟩ | ⟨answer, rfl⟩
  · rw [finishTask_get, markRun_get found]
    by_cases here : task = n <;> simp [here, Task.polled, answer]
  · rw [markRun_get found]
    by_cases here : task = n <;> simp [here, Task.polled, answer, unanswered]

theorem step_task (moved : c.step action = some after) (found : c.tasks[n]? = some t) :
    ∃ t', after.tasks[n]? = some t' ∧ Task.Turn c action after n t t' := by
  cases action with
  | close =>
    cases moved
    exact close_turn c rfl rfl rfl found (close_phase c)
  | readNext =>
    obtain ⟨listening, _, item, decoder, next, rfl⟩ := readNext_cases moved
    cases item with
    | fault fault =>
      rw [takeItem_fault]
      dsimp only
      split
      · exact close_turn _ rfl rfl rfl found (close_phase _)
      · exact ⟨t, found, .kept⟩
    | body body =>
      exact readBody_turn decoder (by rw [next]) found
  | readEnd =>
    obtain ⟨_, _, decoder, _, rfl⟩ := readEnd_cases moved
    exact close_turn _ rfl rfl rfl found (close_phase _)
  | pollTask task handler =>
    obtain ⟨k, present, unanswered, tasks⟩ := pollTask_task moved
    by_cases here : task = n
    · subst here
      obtain rfl : k = t := Option.some.inj (present.symm.trans found)
      exact ⟨_, (tasks task).trans (if_pos rfl), .polled rfl unanswered⟩
    · exact ⟨t, ((tasks n).trans (if_neg here)).trans found, .kept⟩
  | signalOwn task =>
    obtain ⟨k, present, invoked, unanswered, rfl⟩ := signalOwn_cases moved
    refine ⟨_, by rw [cancelTask_get, found, Option.map_some], ?_⟩
    split
    · rename_i here
      subst here
      obtain rfl : k = t := Option.some.inj (present.symm.trans found)
      exact .own rfl invoked unanswered
    · exact .kept
  | failWrite =>
    obtain ⟨_, _, correlator, _, rfl⟩ := failWrite_cases moved
    exact close_turn { c with correlator := correlator } rfl rfl rfl found (close_phase _)
  | _ =>
    have same : after.tasks = c.tasks := (congrArg tasks (step_footprint moved)).trans rfl
    exact ⟨t, same ▸ found, .kept⟩

-- The request that an action makes a task of.
def born? (c : Connection) : Action → Option Request
  | .readNext => match c.decoder.next.1 with
    | some (.body body) => match c.contract.decode c.correlator.pendingMethod body with
      | .ok (.request r) => some r
      | _ => none
    | _ => none
  | _ => none

theorem born?_some {r : Request} (born : c.born? action = some r) :
    action = .readNext ∧ ∃ body, c.decoder.next.1 = some (.body body) ∧
      c.contract.decode c.correlator.pendingMethod body = .ok (.request r) := by
  cases action with
  | readNext =>
    refine ⟨rfl, ?_⟩
    simp only [born?] at born
    split at born
    · rename_i body next
      split at born
      · rename_i decoded
        cases born
        exact ⟨body, next, decoded⟩
      · cases born
    · cases born
  | _ => cases born

theorem close_length (c : Connection) : c.close.tasks.length = c.tasks.length := by
  have past : ∀ n : Nat, c.close.tasks[n]? = none ↔ c.tasks[n]? = none := by
    intro n
    rw [close_get]
    cases c.tasks[n]? <;> simp
  simp only [List.getElem?_eq_none_iff] at past
  exact Nat.le_antisymm ((past _).mpr (Nat.le_refl _)) ((past _).mp (Nat.le_refl _))

theorem readBody_born {body : List UInt8} (decoder : Framing.Decoder) (next : c.decoder.next.1 = some (.body body)) :
    (({ ({ c with decoder := decoder } : Connection).record (.took (.body body)) with
      faultsInRow := 0 } : Connection).takeBody body).tasks.drop c.tasks.length =
        (c.born? .readNext).toList.map fun r => { request := r } := by
  rcases takeBody_cases _ body with ⟨issue, decoded, same⟩ | ⟨r, decoded, same⟩ | ⟨m, decoded, cancels, same⟩ |
    ⟨m, decoded, plain, same⟩ | ⟨r, decoded, same⟩ <;> rw [same] <;>
    change c.contract.decode c.correlator.pendingMethod body = _ at decoded <;> simp only [born?, next, decoded]
  · rw [takeFault_tasks]
    exact List.drop_length
  · rw [takeRequest_tasks]
    apply List.drop_left'
    split
    · exact cancelTask_length ..
    · rfl
  · rw [takeCancel_tasks]
    split
    · exact List.drop_eq_nil_of_le (Nat.le_of_eq (cancelTask_length ..))
    · exact List.drop_length
  · exact List.drop_length
  · rw [takeResponse_tasks]
    exact List.drop_length

-- Only a request of the peer makes a task.
theorem step_born (moved : c.step action = some after) :
    after.tasks.drop c.tasks.length = (c.born? action).toList.map fun r => { request := r } := by
  cases action with
  | readNext =>
    obtain ⟨_, _, item, decoder, next, rfl⟩ := readNext_cases moved
    cases item with
    | fault fault =>
      rw [takeItem_fault]
      simp only [born?, next]
      split
      · exact List.drop_eq_nil_of_le (Nat.le_of_eq (close_length _))
      · exact List.drop_length
    | body body => exact readBody_born decoder (by rw [next])
  | close =>
    cases moved
    exact List.drop_eq_nil_of_le (Nat.le_of_eq (close_length _))
  | readEnd =>
    obtain ⟨_, _, decoder, _, rfl⟩ := readEnd_cases moved
    exact List.drop_eq_nil_of_le (Nat.le_of_eq (close_length _))
  | failWrite =>
    obtain ⟨_, _, correlator, _, rfl⟩ := failWrite_cases moved
    exact List.drop_eq_nil_of_le (Nat.le_of_eq (close_length { c with correlator := correlator }))
  | pollTask task handler =>
    obtain ⟨k, present, unanswered, outcome⟩ := pollTask_cases moved
    refine List.drop_eq_nil_of_le (Nat.le_of_eq ?_)
    rcases outcome with ⟨r, answer, rfl⟩ | ⟨answer, rfl⟩
    · rw [finishTask_length, markRun_length]
    · rw [markRun_length]
  | signalOwn task =>
    obtain ⟨k, present, invoked, unanswered, rfl⟩ := signalOwn_cases moved
    exact List.drop_eq_nil_of_le (Nat.le_of_eq (cancelTask_length ..))
  | _ =>
    have same : after.tasks = c.tasks := (congrArg tasks (step_footprint moved)).trans rfl
    rw [same]
    exact List.drop_length

theorem step_length_le (moved : c.step action = some after) : c.tasks.length ≤ after.tasks.length := by
  apply Nat.le_of_not_lt
  intro fewer
  obtain ⟨_, found, _⟩ := step_task moved (List.getElem?_eq_getElem fewer)
  exact absurd (List.getElem?_eq_some_iff.mp found).1 (Nat.lt_irrefl _)

theorem step_length (moved : c.step action = some after) :
    after.tasks.length = c.tasks.length + (c.born? action).toList.length := by
  have grown := congrArg List.length (step_born moved)
  have bound := step_length_le moved
  simp only [List.length_drop, List.length_map] at grown
  omega

theorem step_born_task {r : Request} (moved : c.step action = some after) (born : c.born? action = some r) :
    ∃ t, after.tasks[c.tasks.length]? = some t ∧ t = { request := r } := by
  have there : (after.tasks.drop c.tasks.length)[0]? = after.tasks[c.tasks.length]? := List.getElem?_drop
  rw [step_born moved, born] at there
  exact ⟨_, there.symm, rfl⟩

theorem step_new_task (moved : c.step action = some after) (found : after.tasks[n]? = some t)
    (new : c.tasks[n]? = none) : n = c.tasks.length ∧ c.born? action = some t.request ∧ t = { request := t.request } := by
  have bound := List.getElem?_eq_none_iff.mp new
  have there : (after.tasks.drop c.tasks.length)[n - c.tasks.length]? = some t := by
    rw [List.getElem?_drop, Nat.add_sub_cancel' bound]
    exact found
  rw [step_born moved] at there
  cases born : c.born? action with
  | none => simp [born] at there
  | some r =>
    rw [born] at there
    obtain ⟨small, same⟩ := List.getElem?_eq_some_iff.mp there
    simp only [Option.toList_some, List.map_cons, List.map_nil, List.length_singleton] at small
    obtain rfl : t = { request := r } := by simpa using same.symm
    exact ⟨by omega, rfl, rfl⟩

end DuplexRpc.Connection
