import DuplexRpc.Proofs.Connection.Moves

namespace DuplexRpc.Connection
variable {c after : Connection} {action : Action}

theorem handOver_cases (c : Connection) (r : Response) :
    (c.correlator.outbound.receiving = false ∧ c.handOver r = c) ∨
    (c.correlator.outbound.receiving = true ∧
      c.handOver r = { c with
        correlator := c.correlator.move (.offer (.response r) .arriving), log := c.log ++ [.handed r] }) := by
  unfold handOver
  rcases c.correlator.outbound.offer_cases (.response r) .arriving with
    ⟨gone, same⟩ | ⟨alive, _, same⟩ | ⟨alive, _, same⟩
  · exact .inl ⟨gone, by simp [Correlator.offer, same]⟩
  · exact .inr ⟨alive, by simp [Correlator.move, Correlator.offer, same, record]⟩
  · exact .inr ⟨alive, by simp [Correlator.move, Correlator.offer, same, record]⟩

theorem takeBody_cases (c : Connection) (body : List UInt8) :
    (∃ issue, c.contract.decode c.correlator.pendingMethod body = .error issue ∧
      c.takeBody body = c.takeFault body issue) ∨
    (∃ r, c.contract.decode c.correlator.pendingMethod body = .ok (.request r) ∧ c.takeBody body = c.takeRequest r) ∨
    (∃ n, c.contract.decode c.correlator.pendingMethod body = .ok (.notification n) ∧
      c.served.isCancelMethod n.method = true ∧ c.takeBody body = c.takeCancel n) ∨
    (∃ n, c.contract.decode c.correlator.pendingMethod body = .ok (.notification n) ∧
      c.served.isCancelMethod n.method = false ∧ c.takeBody body = { c with held := some n }) ∨
    (∃ r, c.contract.decode c.correlator.pendingMethod body = .ok (.response r) ∧
      c.takeBody body = c.takeResponse r) := by
  unfold takeBody
  split
  · exact .inl ⟨_, by assumption, rfl⟩
  · exact .inr (.inl ⟨_, by assumption, rfl⟩)
  · rename_i n decoded
    cases cancels : c.served.isCancelMethod n.method with
    | true => exact .inr (.inr (.inl ⟨n, decoded, cancels, by simp⟩))
    | false => exact .inr (.inr (.inr (.inl ⟨n, decoded, cancels, by simp⟩)))
  · exact .inr (.inr (.inr (.inr ⟨_, by assumption, rfl⟩)))

theorem cancelAll_fields (entries : List (RequestId × Nat)) (c : Connection) :
    entries.foldl (fun c entry => c.cancelTask entry.2) c =
      { c with tasks := (entries.foldl (fun c entry => c.cancelTask entry.2) c).tasks } := by
  induction entries generalizing c with
  | nil => rfl
  | cons entry rest ih =>
    rw [List.foldl_cons, ih]
    rfl

theorem close_of_closed (closed : c.phase = .closed) : c.close = c := by
  simp [close, closed]

@[simp] theorem close_phase (c : Connection) : c.close.phase = .closed := by
  unfold close
  split
  · assumption
  · rfl

-- What was read, and what the worker and the writer have to do, outlasts the end.
theorem close_fields (c : Connection) : c.close = { c with
    phase := .closed, correlator := c.close.correlator, tasks := c.close.tasks, inFlight := c.close.inFlight } := by
  unfold close
  split
  · rename_i closed
    rw [← closed]
  · rw [cancelAll_fields]

theorem handOver_fields (c : Connection) (r : Response) :
    c.handOver r = { c with correlator := (c.handOver r).correlator, log := (c.handOver r).log } := by
  rcases c.handOver_cases r with ⟨_, same⟩ | ⟨_, same⟩ <;> rw [same]

theorem takeBody_fields (c : Connection) (body : List UInt8) : c.takeBody body = { c with
    correlator := (c.takeBody body).correlator, tasks := (c.takeBody body).tasks
    inFlight := (c.takeBody body).inFlight, held := (c.takeBody body).held, log := (c.takeBody body).log } := by
  rcases c.takeBody_cases body with ⟨issue, _, same⟩ | ⟨r, _, same⟩ | ⟨m, _, _, same⟩ | ⟨m, _, _, same⟩ |
    ⟨r, _, same⟩ <;> rw [same]
  · rcases c.takeFault_cases body issue with ⟨_, _, _, same⟩ | ⟨_, _, _, same⟩ | ⟨_, same⟩ <;> rw [same]
    · rw [handOver_fields]
      rfl
    · rfl
    · rfl
  · unfold takeRequest
    split <;> rfl
  · unfold takeCancel
    repeat' split
    all_goals rfl
  · unfold takeResponse
    repeat' split
    all_goals rfl

-- A finished task: its response stands, and it is in flight no longer.
def retire (c : Connection) (task : Nat) (r : Response) : Connection :=
  { c with
    tasks := c.tasks.modify task fun t => { t with response := some r }
    inFlight := match c.tasks[task]? with
      | some t =>
        if c.inFlight.lookup t.request.id = some task then Table.erase t.request.id c.inFlight else c.inFlight
      | none => c.inFlight }

theorem finishTask_eq (c : Connection) (task : Nat) (r : Response) :
    c.finishTask task r = (c.retire task r).handOver r := by
  simp only [finishTask, retire, setTask, List.getElem?_modify, if_true]
  cases c.tasks[task]? with
  | none => rfl
  | some t =>
    by_cases latest : c.inFlight.lookup t.request.id = some task <;> simp [latest]

theorem markRun_fields (c : Connection) (task : Nat) (t : Task) :
    c.markRun task t = { c with tasks := (c.markRun task t).tasks, log := (c.markRun task t).log } := by
  unfold markRun
  split <;> rfl

theorem finishTask_fields (c : Connection) (task : Nat) (r : Response) : c.finishTask task r = { c with
    correlator := (c.finishTask task r).correlator, tasks := (c.finishTask task r).tasks
    inFlight := (c.finishTask task r).inFlight, log := (c.finishTask task r).log } := by
  rw [finishTask_eq, handOver_fields]
  rfl

theorem takeItem_fields (c : Connection) (item : Framing.Item) : c.takeItem item = { c with
    phase := (c.takeItem item).phase, faultsInRow := (c.takeItem item).faultsInRow
    held := (c.takeItem item).held, correlator := (c.takeItem item).correlator
    tasks := (c.takeItem item).tasks, inFlight := (c.takeItem item).inFlight, log := (c.takeItem item).log } := by
  cases item with
  | fault fault =>
    rw [takeItem_fault]
    dsimp only
    split
    · rw [close_fields]
      rfl
    · rfl
  | body body =>
    rw [takeItem_body, takeBody_fields]
    rfl

-- `c` but for the fields that an action may touch, which are those of `after`.
def Action.onto (c after : Connection) : Action → Connection
  | .start => { c with phase := after.phase, starts := after.starts }
  | .close => { c with
      phase := after.phase, correlator := after.correlator, tasks := after.tasks, inFlight := after.inFlight }
  | .receive _ => { c with decoder := after.decoder }
  | .readNext => { c with
      phase := after.phase, decoder := after.decoder, faultsInRow := after.faultsInRow, held := after.held
      correlator := after.correlator, tasks := after.tasks, inFlight := after.inFlight, log := after.log }
  | .readEnd => { c with
      phase := after.phase, decoder := after.decoder, correlator := after.correlator
      tasks := after.tasks, inFlight := after.inFlight }
  | .queueHeld => { c with held := after.held, notes := after.notes }
  | .takeNote => { c with notes := after.notes, running := after.running, log := after.log }
  | .endNote => { c with running := after.running, log := after.log }
  | .pollTask _ _ => { c with
      correlator := after.correlator, tasks := after.tasks, inFlight := after.inFlight, log := after.log }
  | .signalOwn _ => { c with tasks := after.tasks }
  | .write => { c with correlator := after.correlator, log := after.log }
  | .failWrite => { c with
      phase := after.phase, correlator := after.correlator, tasks := after.tasks, inFlight := after.inFlight }
  | .stopWriter | .turn _ | .abandon _ | .request _ _ | .notify _ _ | .cancel _ | .pollCall _ | .forgetCall _ =>
      { c with correlator := after.correlator }

-- An action touches no field but its own; what it leaves is read off here.
theorem step_footprint (moved : c.step action = some after) : after = action.onto c after := by
  cases action with
  | start =>
    obtain ⟨_, rfl⟩ := start_cases moved
    rfl
  | close =>
    cases moved
    rw [close_fields]
    rfl
  | receive chunk =>
    obtain ⟨_, _, _, _, rfl⟩ := receive_cases moved
    rfl
  | readNext =>
    obtain ⟨_, _, item, decoder, _, rfl⟩ := readNext_cases moved
    rw [takeItem_fields]
    rfl
  | readEnd =>
    obtain ⟨_, _, decoder, _, rfl⟩ := readEnd_cases moved
    rw [close_fields]
    rfl
  | queueHeld =>
    obtain ⟨_, _, _, _, rfl⟩ := queueHeld_cases moved
    rfl
  | takeNote =>
    obtain ⟨_, _, _, _, _, rfl⟩ := takeNote_cases moved
    rfl
  | endNote =>
    obtain ⟨_, _, rfl⟩ := endNote_cases moved
    rfl
  | pollTask task handler =>
    obtain ⟨t, _, _, ⟨r, _, rfl⟩ | ⟨_, rfl⟩⟩ := pollTask_cases moved
    · rw [finishTask_fields, markRun_fields]
      rfl
    · rw [markRun_fields]
      rfl
  | signalOwn task =>
    obtain ⟨_, _, _, _, rfl⟩ := signalOwn_cases moved
    rfl
  | write =>
    obtain ⟨_, _, _, _, rfl⟩ := write_cases moved
    rfl
  | failWrite =>
    obtain ⟨_, _, correlator, _, rfl⟩ := failWrite_cases moved
    rw [close_fields]
    rfl
  | stopWriter =>
    obtain ⟨_, _, _, rfl⟩ := stopWriter_cases moved
    rfl
  | request method params =>
    cases moved
    exact request_fields ..
  | notify method params =>
    cases moved
    exact notify_fields ..
  | turn ticket | abandon ticket | cancel id | pollCall call | forgetCall call =>
    cases moved
    rfl

end DuplexRpc.Connection
