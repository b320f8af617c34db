import DuplexRpc.Proofs.Connection.Footprint

namespace DuplexRpc.Connection
variable {c after : Connection} {action : Action}

-- A response is noted as handed over unless nothing is written any more.
def handing (c : Connection) (r : Response) : List Event :=
  if c.correlator.outbound.receiving then [.handed r] else []

def faultEvents (c : Connection) (body : List UInt8) (issue : Issue) : List Event :=
  .reported issue :: match issue.id, Envelope.kindOf? body with
    | some id, some .request => c.handing (rejection id issue)
    | _, _ => []

def bodyEvents (c : Connection) (body : List UInt8) : List Event :=
  match c.contract.decode c.correlator.pendingMethod body with
  | .error issue => c.faultEvents body issue
  | .ok (.request _) => []
  | .ok (.notification n) =>
    if c.served.isCancelMethod n.method then
      match cancelledId? n with
      | none => [.reported (badCancel n)]
      | some _ => []
    else []
  | .ok (.response ⟨none, reply⟩) => [.reported (withoutId reply)]
  | .ok (.response ⟨some id, reply⟩) => (c.correlator.resolve id reply).1.toList.map .reported

def itemEvents (c : Connection) : Framing.Item → List Event
  | .fault fault => [.took (.fault fault), .reported (.make .parseError fault.message)]
  | .body body => .took (.body body) :: c.bodyEvents body

def pollEvents (c : Connection) (task : Nat) (handler : Option Outcome) : List Event :=
  match c.tasks[task]? with
  | some t =>
    (if c.dispatcher.runsHandler t.request t.cancelled && !t.invoked then [.invoked task] else []) ++
      (c.dispatcher.poll t.request t.cancelled handler).toList.flatMap c.handing
  | none => []

-- What an action adds to the log.
def events (c : Connection) : Action → List Event
  | .readNext => match c.decoder.next.1 with
    | some item => c.itemEvents item
    | none => []
  | .takeNote => c.notes.head?.toList.map .dispatched
  | .endNote => [.noteEnded]
  | .pollTask task handler => c.pollEvents task handler
  | .write => match c.correlator.outbound.queued with
    | m :: _ => [.wrote m (c.frame m)]
    | [] => []
  | _ => []

@[simp] theorem close_log (c : Connection) : c.close.log = c.log := by
  rw [close_fields]

theorem handOver_log (c : Connection) (r : Response) : (c.handOver r).log = c.log ++ c.handing r := by
  rcases c.handOver_cases r with ⟨gone, same⟩ | ⟨alive, same⟩ <;> simp [handing, *]

theorem takeFault_log (c : Connection) (body : List UInt8) (issue : Issue) :
    (c.takeFault body issue).log = c.log ++ c.faultEvents body issue := by
  rcases c.takeFault_cases body issue with
    ⟨id, named, claimed, same⟩ | ⟨id, named, claimed, same⟩ | ⟨other, same⟩ <;> rw [same]
  · simp only [handOver_log, faultEvents, named, claimed, report, record, List.append_assoc]
    rfl
  · simp [faultEvents, named, claimed, report, record]
  · cases named : issue.id with
    | none => simp [faultEvents, named, report, record]
    | some id => rcases other id named with claimed | claimed <;> simp [faultEvents, named, claimed, report, record]

theorem takeCancel_log (c : Connection) (n : Notification) :
    (c.takeCancel n).log = c.log ++ match cancelledId? n with
      | none => [.reported (badCancel n)]
      | some _ => [] := by
  unfold takeCancel
  cases cancelledId? n with
  | none => rfl
  | some id =>
    dsimp only
    split <;> simp [cancelTask, setTask]

theorem takeRequest_log (c : Connection) (r : Request) : (c.takeRequest r).log = c.log := by
  unfold takeRequest
  split <;> rfl

theorem takeResponse_log (c : Connection) (r : Response) :
    (c.takeResponse r).log = c.log ++ match r.id with
      | none => [.reported (withoutId r.reply)]
      | some id => (c.correlator.resolve id r.reply).1.toList.map .reported := by
  unfold takeResponse
  cases r.id with
  | none => simp [report, record]
  | some id =>
    dsimp only
    split <;> rename_i answer <;> simp [answer, report, record]

theorem takeBody_log (c : Connection) (body : List UInt8) : (c.takeBody body).log = c.log ++ c.bodyEvents body := by
  rcases c.takeBody_cases body with ⟨issue, decoded, same⟩ | ⟨r, decoded, same⟩ | ⟨n, decoded, cancels, same⟩ |
    ⟨n, decoded, plain, same⟩ | ⟨r, decoded, same⟩ <;> rw [same]
  · simp only [bodyEvents, decoded]
    exact takeFault_log ..
  · simp [bodyEvents, decoded, takeRequest_log]
  · simp [bodyEvents, decoded, cancels, takeCancel_log]
  · simp [bodyEvents, decoded, plain]
  · obtain ⟨_ | id, reply⟩ := r <;> simp [bodyEvents, decoded, takeResponse_log]

theorem takeItem_log (c : Connection) (item : Framing.Item) : (c.takeItem item).log = c.log ++ c.itemEvents item := by
  cases item with
  | fault fault =>
    rw [takeItem_fault]
    dsimp only
    split <;> simp [itemEvents, report, record]
  | body body =>
    rw [takeItem_body, takeBody_log]
    simp only [itemEvents, record, List.append_assoc]
    rfl

theorem markRun_log (c : Connection) (task : Nat) (t : Task) :
    (c.markRun task t).log = c.log ++
      if c.dispatcher.runsHandler t.request t.cancelled && !t.invoked then [.invoked task] else [] := by
  unfold markRun
  split <;> simp [record, setTask]

theorem finishTask_log (c : Connection) (task : Nat) (r : Response) :
    (c.finishTask task r).log = c.log ++ c.handing r := by
  rw [finishTask_eq, handOver_log]
  rfl

theorem step_log (moved : c.step action = some after) : after.log = c.log ++ c.events action := by
  cases action with
  | readNext =>
    obtain ⟨_, _, item, decoder, found, rfl⟩ := readNext_cases moved
    rw [takeItem_log]
    simp only [events, found]
    rfl
  | takeNote =>
    obtain ⟨_, _, queued, _, _, rfl⟩ := takeNote_cases moved
    simp [events, queued, record]
  | endNote =>
    obtain ⟨_, _, rfl⟩ := endNote_cases moved
    simp [events, record]
  | pollTask task handler =>
    obtain ⟨t, found, unanswered, ⟨r, answer, rfl⟩ | ⟨answer, rfl⟩⟩ := pollTask_cases moved
    · have same : (c.markRun task t).handing r = c.handing r := by simp [handing, markRun_correlator]
      simp [finishTask_log, markRun_log, events, pollEvents, found, answer, same]
    · simp [markRun_log, events, pollEvents, found, answer]
  | write =>
    obtain ⟨_, m, correlator, taken, rfl⟩ := write_cases moved
    obtain ⟨rest, queued, _⟩ := Correlator.queued_of_take taken
    simp [events, queued, record]
  | _ => exact (congrArg log (step_footprint moved)).trans (List.append_nil _).symm

end DuplexRpc.Connection
