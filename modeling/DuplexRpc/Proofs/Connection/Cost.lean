import DuplexRpc.Proofs.Connection.Notices
import DuplexRpc.Proofs.Connection.Schedule
import DuplexRpc.Proofs.Connection.Stream
import DuplexRpc.Proofs.Correlator.Cost

namespace DuplexRpc

-- What a ready job may cost: a worker or a task may come to wait for a permit.
def Fifo.Job.fee : Fifo.Job → Nat
  | .worker | .task _ => 3
  | _ => 1

theorem Fifo.Job.one_le_fee (job : Fifo.Job) : 1 ≤ job.fee := by
  cases job <;> simp [fee]

theorem Fifo.Job.fee_le (job : Fifo.Job) : job.fee ≤ 3 := by
  cases job <;> simp [fee]

def Fifo.fees (jobs : List Fifo.Job) : Nat := (jobs.map Fifo.Job.fee).sum

namespace Framing.Decoder
variable {d after : Decoder}

-- Without an item, what is still to be taken grows no heavier.
theorem weight_idle (idle : d.next = (none, after)) : after.weight ≤ d.weight := by
  have header : ∀ {e : Decoder}, e.nextHeader = (none, after) → after.weight ≤ 2 * e.buffer.length := by
    intro e idle
    unfold nextHeader at idle
    split at idle
    · split at idle <;> cases idle
      exact Nat.le_refl _
    · rename_i block rest found
      have shorter := length_splitBlock found
      split at idle
      · cases idle
      · split at idle
        · cases idle
        · unfold nextBody at idle
          split at idle <;> cases idle
          simp only [weight]
          omega
  unfold next at idle
  split at idle
  · rename_i phase
    have here : d.weight = 2 * d.buffer.length := by simp [weight, phase]
    exact here ▸ header idle
  · rename_i length phase
    unfold nextBody at idle
    split at idle <;> cases idle
    simp [weight, phase]
  · rename_i remaining phase
    have here : d.weight = 2 * d.buffer.length := by simp [weight, phase]
    unfold nextSkip at idle
    split at idle
    · cases idle
      simp [weight]
    · have shorter := header idle
      simp only [List.length_drop] at shorter
      omega

theorem weight_push (d : Decoder) (chunk : List UInt8) : (d.push chunk).weight = d.weight + 2 * chunk.length := by
  simp only [weight, push, List.length_append]
  omega

end Framing.Decoder

namespace Connection
open Fifo (Job Scheduled fees wokenTasks wokenSenders woken)
variable {c after : Connection} {action : Action} {n : Nat} {s t : Task}

-- What a task may still cost: its turn, once more when it is cancelled, and its answer.
def Task.cost (t : Task) : Nat := if t.response.isSome then 0 else if t.cancelled then 4 else 7

theorem Task.cost_le (t : Task) : t.cost ≤ 7 := by
  unfold Task.cost
  repeat' split
  all_goals omega

def tasksCost (tasks : List Task) : Nat := (tasks.map Task.cost).sum

-- Whether a change of a task makes it ready.
def Task.woken (before after : Task) : Bool := !before.cancelled && after.cancelled && after.response.isNone

-- Whether it answers the task.
def Task.ends (before after : Task) : Bool := before.response.isNone && after.response.isSome

def wakings (before after : List Task) : Nat := (before.zip after).countP fun pair => pair.1.woken pair.2

def endings (before after : List Task) : Nat := (before.zip after).countP fun pair => pair.1.ends pair.2

theorem wokenTasks_length (before after : List Task) :
    (wokenTasks before after).length = wakings before after + (after.length - before.length) := by
  have signalled : ∀ (pairs : List (Task × Task)) (start : Nat), ((pairs.zipIdx start).filterMap fun slot =>
      if slot.1.1.woken slot.1.2 then some (Job.task slot.2) else none).length = pairs.countP fun pair => pair.1.woken pair.2 := by
    intro pairs
    induction pairs with
    | nil => intro start; rfl
    | cons pair rest ih =>
      intro start
      have later := ih (start + 1)
      cases wakes : pair.1.woken pair.2 <;> simpa [wakes] using later
  refine List.length_append.trans (congrArg₂ (· + ·) (signalled _ 0) ?_)
  rw [List.length_map, List.length_range']

theorem Task.Turn.cost (turn : Task.Turn c action after n s t) :
    3 * (if s.woken t then 1 else 0) + 4 * (if s.ends t then 1 else 0) + t.cost ≤ s.cost := by
  obtain ⟨request, cancelled, invoked, response⟩ := s
  cases turn with
  | kept => cases response <;> simp [Task.woken, Task.ends]
  | @polled handler _ unanswered =>
    obtain rfl : response = none := unanswered
    cases answer : c.dispatcher.poll request cancelled handler <;> cases cancelled <;>
      simp [Task.polled, Task.woken, Task.ends, Task.cost, answer]
  | _ => cases cancelled <;> cases response <;> simp [Task.signalled, Task.woken, Task.ends, Task.cost]

theorem tasks_cost {before after : List Task} (bound : before.length ≤ after.length)
    (each : ∀ (n : Nat) (s t : Task), before[n]? = some s → after[n]? = some t →
      3 * (if s.woken t then 1 else 0) + 4 * (if s.ends t then 1 else 0) + t.cost ≤ s.cost) :
    3 * wakings before after + 4 * endings before after + tasksCost after ≤
      tasksCost before + tasksCost (after.drop before.length) := by
  induction before generalizing after with
  | nil => simp [wakings, endings, tasksCost]
  | cons s rest ih =>
    cases after with
    | nil => simp at bound
    | cons t others =>
      have first := each 0 s t rfl rfl
      have later := ih (Nat.le_of_succ_le_succ bound) fun n s t found found' => each (n + 1) s t found found'
      simp only [wakings, endings, tasksCost, List.zip_cons_cons, List.countP_cons, List.map_cons, List.sum_cons, List.length_cons,
        List.drop_succ_cons] at later ⊢
      omega

-- Signals and answers are paid for by the tasks themselves; a new one costs what it brings.
theorem step_tasks_cost (moved : c.step action = some after) :
    3 * (wokenTasks c.tasks after.tasks).length + 4 * endings c.tasks after.tasks + tasksCost after.tasks ≤
      tasksCost c.tasks + 10 * (c.born? action).toList.length := by
  have old := tasks_cost (step_length_le moved) fun n s t found found' => by
    obtain ⟨t', there, turn⟩ := step_task moved found
    exact Option.some.inj (there.symm.trans found') ▸ turn.cost
  have new : tasksCost (after.tasks.drop c.tasks.length) = 7 * (c.born? action).toList.length := by
    rw [step_born moved]
    cases c.born? action <;> rfl
  have length := step_length moved
  rw [wokenTasks_length]
  omega

-- What the notifications on their way may still cost: one held, those queued, and the one that runs.
def notesCost (c : Connection) : Nat :=
  9 * c.held.toList.length + 5 * c.notes.length + 3 * c.running.toList.length

-- The jobs that a change of them makes ready: the worker, or the reader where it waits for room.
def notesStir (before after : Connection) : Nat :=
  (if before.notes.length < after.notes.length then 3 else 0) +
    if after.notes.length < before.notes.length && after.held.isSome then 1 else 0

theorem notesStir_of_kept (same : after.notes = c.notes) : c.notesStir after = 0 := by
  simp [notesStir, same]

def phaseCost (c : Connection) : Nat := if c.phase = .closed then 0 else 5

def phaseStir (before after : Connection) : Nat := if before.phase ≠ .closed && after.phase = .closed then 5 else 0

theorem step_phase_cost (moved : c.step action = some after) : c.phaseStir after + after.phaseCost ≤ c.phaseCost := by
  simp only [phaseStir, phaseCost]
  by_cases closed : c.phase = .closed
  · have still : after.phase = .closed := Decidable.byContradiction fun open' => step_open moved open' closed
    simp [closed, still]
  · by_cases gone : after.phase = .closed <;> simp [closed, gone]

-- All the turns that a connection may still cause under a schedule.
def cost (c : Connection) : Nat :=
  c.phaseCost + c.notesCost + c.correlator.outbound.cost + tasksCost c.tasks + 11 * c.decoder.weight

theorem sum_map_le {α : Type} {cost : α → Nat} {bound : Nat} (each : ∀ a, cost a ≤ bound) (items : List α) :
    (items.map cost).sum ≤ bound * items.length := by
  have all := List.sum_le_card_nsmul (items.map cost) bound (List.forall_mem_map.mpr fun a _ => each a)
  rwa [List.length_map, Nat.nsmul_eq_mul, Nat.mul_comm] at all

theorem stir_eq (before after : Connection) : before.correlator.outbound.stir after.correlator.outbound =
    (if before.correlator.outbound.accepted.length < after.correlator.outbound.accepted.length then 1 else 0) +
      fees (wokenSenders before after) := by
  simp [Outbound.stir, fees, wokenSenders, Function.comp_def, Job.fee]

theorem fees_le (jobs : List Job) : fees jobs ≤ 3 * jobs.length := sum_map_le Job.fee_le jobs

theorem fees_append (one two : List Job) : fees (one ++ two) = fees one + fees two := by
  simp [fees]

theorem fees_woken_le (before after : Connection) :
    fees (woken before after) ≤ before.phaseStir after + before.notesStir after +
      before.correlator.outbound.stir after.correlator.outbound + 3 * (wokenTasks before.tasks after.tasks).length := by
  have either : ∀ (a b : Bool) (job : Job),
      fees (if a || b then [job] else []) ≤ (if a then job.fee else 0) + if b then job.fee else 0 := by
    intro a b job
    cases a <;> cases b <;> simp [fees]
  have reader := either (before.phase ≠ .closed && after.phase = .closed)
    (after.notes.length < before.notes.length && after.held.isSome) .reader
  have worker := either (before.phase ≠ .closed && after.phase = .closed) (before.notes.length < after.notes.length) .worker
  have writer := either (before.phase ≠ .closed && after.phase = .closed)
    (before.correlator.outbound.accepted.length < after.correlator.outbound.accepted.length) .writer
  have tasks := fees_le (wokenTasks before.tasks after.tasks)
  simp only [woken, fees_append, phaseStir, notesStir, stir_eq, Job.fee, decide_eq_true_eq] at *
  generalize (decide (before.phase ≠ .closed) && decide (after.phase = .closed)) = closed at *
  cases closed <;> simp only [Bool.false_eq_true, if_false, if_true] at * <;> omega

theorem notesStir_le (before after : Connection) (more : before.notes.length < after.notes.length → False) :
    before.notesStir after ≤ 1 := by
  simp only [notesStir, if_neg more]
  split <;> omega

theorem Passing.cost {new : List Notification} {work : List Event} (passing : Passing c after new work) :
    c.notesStir after + after.notesCost ≤ c.notesCost + 9 * new.length := by
  cases passing with
  | idle notes held running =>
    rw [notesStir_of_kept notes, notesCost, notesCost, notes, held, running]
    omega
  | read free notes held running =>
    rw [notesStir_of_kept notes, notesCost, notesCost, notes, held, running, free]
    simp only [Option.toList_some, Option.toList_none, List.length_singleton, List.length_nil]
    omega
  | queued held _ notes free running =>
    simp [notesStir, notesCost, held, notes, free, running]
    omega
  | taken notes idle rest held running =>
    have stirred := notesStir_le c after (by simp [notes, rest])
    simp only [notesCost, notes, idle, rest, held, running, Option.toList_some, Option.toList_none, List.length_cons,
      List.length_nil]
    omega
  | ended running notes held idle =>
    rw [notesStir_of_kept notes, notesCost, notesCost, notes, held, running, idle]
    simp only [Option.toList_some, Option.toList_none, List.length_singleton, List.length_nil]
    omega

-- What the moves of notifications cost less than they free.
def spare : Action → Nat
  | .queueHeld | .takeNote => 1
  | .endNote => 3
  | _ => 0

theorem step_notes_cost (moved : c.step action = some after) :
    c.notesStir after + after.notesCost + spare action ≤ c.notesCost + 9 * (c.arriving action).length := by
  cases action with
  | queueHeld =>
    obtain ⟨n, held, _, _, rfl⟩ := queueHeld_cases moved
    simp [notesStir, notesCost, held, spare]
    omega
  | takeNote =>
    obtain ⟨n, rest, notes, _, running, rfl⟩ := takeNote_cases moved
    have stirred := notesStir_le c ({ c with notes := rest, running := some n }.record (.dispatched n))
      (by simp [notes, record])
    simp only [notesCost, notes, running, spare, record, Option.toList_some, Option.toList_none, List.length_cons,
      List.length_nil] at stirred ⊢
    omega
  | endNote =>
    obtain ⟨n, running, rfl⟩ := endNote_cases moved
    simp [notesStir, notesCost, running, record, spare]
  | _ => exact (step_passing moved).cost

-- What a step makes ready is paid for by what it takes away, part by part.
theorem step_balance (moved : c.step action = some after) :
    fees (woken c after) + after.cost + 4 * endings c.tasks after.tasks + spare action +
        (c.correlator.outbound.cost + 11 * c.decoder.weight) ≤
      c.cost + 10 * (c.born? action).toList.length + 9 * (c.arriving action).length +
        (c.correlator.outbound.stir after.correlator.outbound + after.correlator.outbound.cost + 11 * after.decoder.weight) := by
  have woken := fees_woken_le c after
  have phase := step_phase_cost moved
  have tasks := step_tasks_cost moved
  have notes := step_notes_cost moved
  simp only [cost]
  omega

-- What an action does to the queue of messages, in turns that it costs.
theorem queue_kept (sound : c.correlator.outbound.Sound) (same : after.correlator.outbound = c.correlator.outbound) :
    c.correlator.outbound.stir after.correlator.outbound + after.correlator.outbound.cost ≤ c.correlator.outbound.cost := by
  rw [same]
  exact sound.still_cost

theorem handOver_cost (sound : c.correlator.outbound.Sound) (r : Response) :
    c.correlator.outbound.stir (c.handOver r).correlator.outbound + (c.handOver r).correlator.outbound.cost ≤
      c.correlator.outbound.cost + 4 := by
  rw [handOver_correlator]
  exact Outbound.offer_cost sound ..

theorem close_outbound (started : c.phase ≠ .created) : c.close.correlator.outbound = c.correlator.outbound := by
  rw [close_correlator, closeMoves]
  cases phase : c.phase with
  | created => exact absurd phase started
  | listening =>
    change c.correlator.failAll.2.outbound = _
    rw [Correlator.failAll_eq]
  | closed => rfl

theorem takeResponse_outbound (c : Connection) (r : Response) :
    (c.takeResponse r).correlator.outbound = c.correlator.outbound := by
  rw [takeResponse_correlator]
  split
  · rw [Correlator.resolve_fields]
    exact Correlator.settle_outbound ..
  · rfl

theorem takeFault_cost (sound : c.correlator.outbound.Sound) (body : List UInt8) (issue : Issue) :
    c.correlator.outbound.stir (c.takeFault body issue).correlator.outbound +
        (c.takeFault body issue).correlator.outbound.cost ≤ c.correlator.outbound.cost + 4 := by
  rcases c.takeFault_cases body issue with ⟨id, _, _, same⟩ | ⟨id, _, _, same⟩ | ⟨_, same⟩ <;> rw [same]
  · exact handOver_cost (c := c.report issue) sound _
  · refine Nat.le_add_right_of_le (queue_kept sound ?_)
    change (c.correlator.fail id _).2.outbound = _
    rw [Correlator.fail_eq, Correlator.settle_outbound]
  · exact Nat.le_add_right_of_le (queue_kept sound rfl)

-- A frame makes a task, is held for the queue, or is answered at once; it does one of these at most.
theorem takeBody_cost (sound : c.correlator.outbound.Sound) (body : List UInt8) :
    c.correlator.outbound.stir (c.takeBody body).correlator.outbound + (c.takeBody body).correlator.outbound.cost +
        10 * (match c.contract.decode c.correlator.pendingMethod body with
          | .ok (.request r) => some r
          | _ => none).toList.length + 9 * (c.contract.notice? body).toList.length ≤
      c.correlator.outbound.cost + 10 := by
  have still {after : Connection} (same : after.correlator.outbound = c.correlator.outbound) := queue_kept sound same
  rw [Contract.notice?_eq c.contract c.correlator.pendingMethod]
  rcases c.takeBody_cases body with ⟨issue, decoded, same⟩ | ⟨r, decoded, same⟩ | ⟨m, decoded, cancels, same⟩ |
    ⟨m, decoded, plain, same⟩ | ⟨r, decoded, same⟩ <;> rw [same, decoded] <;> dsimp only
  · exact Nat.le_trans (takeFault_cost sound body issue) (Nat.add_le_add_left (by decide) _)
  · have kept : (c.takeRequest r).correlator.outbound = c.correlator.outbound := by
      unfold takeRequest
      split <;> rfl
    exact Nat.add_le_add_right (still kept) 10
  · have kept : (c.takeCancel m).correlator.outbound = c.correlator.outbound := by
      unfold takeCancel
      repeat' split
      all_goals rfl
    rw [if_pos (show c.contract.served.isCancelMethod m.method = true from cancels)]
    exact Nat.le_add_right_of_le (still kept)
  · rw [if_neg (show ¬ c.contract.served.isCancelMethod m.method = true by simp [contract, plain])]
    have kept : ({ c with held := some m } : Connection).correlator.outbound = c.correlator.outbound := rfl
    exact Nat.add_le_add (still kept) (Nat.le_succ 9)
  · exact Nat.le_add_right_of_le (still (takeResponse_outbound c r))

theorem readNext_queue_cost (sound : c.correlator.outbound.Sound) (moved : c.step .readNext = some after) :
    c.correlator.outbound.stir after.correlator.outbound + after.correlator.outbound.cost +
        10 * (c.born? .readNext).toList.length + 9 * (c.arriving .readNext).length ≤
      c.correlator.outbound.cost + 10 := by
  obtain ⟨listening, _, item, decoder, next, rfl⟩ := readNext_cases moved
  cases item with
  | fault fault =>
    have nobody : c.born? .readNext = none := by simp [born?, next]
    have nothing : c.arriving .readNext = [] := by simp [arriving, frame?, next]
    rw [nobody, nothing]
    have kept : ({ c with decoder := decoder }.takeItem (.fault fault)).correlator.outbound = c.correlator.outbound := by
      rw [takeItem_fault]
      dsimp only
      split
      · exact close_outbound (by simp [report, record, listening])
      · rfl
    exact Nat.le_add_right_of_le (queue_kept sound kept)
  | body body =>
    rw [arriving_body (by rw [next]), takeItem_body]
    simp only [born?, next]
    exact takeBody_cost (c := { c.record (.took (.body body)) with decoder := decoder, faultsInRow := 0 }) sound body

theorem disconnect_cost (q : Outbound) : q.stir q.disconnect + q.disconnect.cost = 0 := by
  simp [Outbound.stir, Outbound.cost, Outbound.disconnect]

theorem close_accepted (c : Connection) : c.close.correlator.outbound.accepted = c.correlator.outbound.accepted := by
  have ended : c.correlator.failAll.2.outbound = c.correlator.outbound := by rw [Correlator.failAll_eq]
  rw [close_correlator, closeMoves]
  have kept := congrArg Outbound.accepted ended
  cases c.phase with
  | created => exact kept
  | listening => exact kept
  | closed => rfl

-- A writer that fails leaves nothing behind of what was queued.
theorem failWrite_queue_cost (moved : c.step .failWrite = some after) :
    c.correlator.outbound.stir after.correlator.outbound + after.correlator.outbound.cost + 1 ≤
      c.correlator.outbound.cost := by
  obtain ⟨_, m, correlator, taken, rfl⟩ := failWrite_cases moved
  obtain ⟨rest, queued, left⟩ := Outbound.take_cases (Correlator.take_outbound taken)
  have closed := close_accepted { c with correlator := correlator }
  have accepted : ({ c with correlator := correlator } : Connection).close.correlator.outbound.disconnect.accepted =
      c.correlator.outbound.accepted := closed.trans (by rw [left, Outbound.admitNext_accepted])
  have first : 1 ≤ c.correlator.outbound.cost := by simp [Outbound.cost, queued]; omega
  refine Nat.le_trans (Nat.le_of_eq ?_) first
  simp only [Correlator.disconnect, Outbound.stir, Outbound.cost, accepted]
  simp [Outbound.disconnect]

theorem pollTask_queue_cost (sound : c.correlator.outbound.Sound) {task : Nat} {handler : Option Outcome}
    (moved : c.step (.pollTask task handler) = some after) :
    c.correlator.outbound.stir after.correlator.outbound + after.correlator.outbound.cost ≤
      c.correlator.outbound.cost + 4 * endings c.tasks after.tasks := by
  have correlator := step_correlator moved
  obtain ⟨t, found, unanswered, tasks⟩ := pollTask_task moved
  cases answer : c.dispatcher.poll t.request t.cancelled handler with
  | none =>
    have same : after.correlator = c.correlator := by
      rw [correlator]
      simp [moves, answered?, found, unanswered, answer, Correlator.moveAll]
    exact Nat.le_add_right_of_le (queue_kept sound (congrArg _ same))
  | some r =>
    have same : after.correlator = c.correlator.move (.offer (.response r) .arriving) := by
      rw [correlator]
      simp [moves, answered?, found, unanswered, answer, Correlator.moveAll]
    have ended : 1 ≤ endings c.tasks after.tasks := by
      have there := (tasks task).trans (if_pos rfl)
      have pair : (c.tasks.zip after.tasks)[task]? = some (t, t.polled c handler) := by
        rw [List.getElem?_zip_eq_some]
        exact ⟨found, there⟩
      exact List.countP_pos_iff.mpr ⟨_, List.mem_of_getElem? pair, by simp [Task.ends, Task.polled, unanswered, answer]⟩
    have offered := Outbound.offer_cost sound (.response r) .arriving
    rw [same]
    exact Nat.le_trans offered (by omega)

-- What an action of a job frees at least, and what it brings from outside.
def price : Action → Nat
  | .readNext | .write | .failWrite => 1
  | action => spare action

def income : Action → Nat
  | .receive chunk => 22 * chunk.length
  | _ => 0

-- Only reading brings a task or a notification.
theorem balance_elsewhere (moved : c.step action = some after) (elsewhere : action ≠ .readNext) :
    fees (woken c after) + after.cost + 4 * endings c.tasks after.tasks + spare action +
        (c.correlator.outbound.cost + 11 * c.decoder.weight) ≤
      c.cost + (c.correlator.outbound.stir after.correlator.outbound + after.correlator.outbound.cost +
        11 * (c.decoderAfter action).weight) := by
  have balance := step_balance moved
  have nobody : c.born? action = none := by cases action <;> first | rfl | exact absurd rfl elsewhere
  have nothing : c.arriving action = [] := by cases action <;> first | rfl | exact absurd rfl elsewhere
  rw [nobody, nothing, step_decoder moved] at balance
  exact balance

-- Every action of a job pays for the jobs that it makes ready.
theorem step_cost (sound : c.correlator.outbound.Sound) (scheduled : Scheduled action) (moved : c.step action = some after) :
    fees (woken c after) + after.cost + price action ≤ c.cost + income action := by
  have kept (same : after.correlator.outbound = c.correlator.outbound) := queue_kept sound same
  have footprint := step_footprint moved
  by_cases reads : action = .readNext
  · subst reads
    have balance := step_balance moved
    have queue := readNext_queue_cost sound moved
    have decoder := step_decoder moved
    obtain ⟨_, _, item, later, next, _⟩ := readNext_cases moved
    have lighter := Framing.Decoder.weight_next next
    simp only [decoderAfter, next] at decoder
    rw [decoder] at balance
    simp only [price, income]
    omega
  · have balance := balance_elsewhere moved reads
    cases scheduled with
    | readNext => exact absurd rfl reads
    | receive =>
      obtain ⟨_, _, later, next, _⟩ := receive_cases moved
      have lighter := Framing.Decoder.weight_idle next
      have queue := kept ((congrArg (·.correlator.outbound) footprint).trans rfl)
      simp only [decoderAfter, next, Framing.Decoder.weight_push] at balance
      simp only [price, income, spare] at balance ⊢
      omega
    | readEnd =>
      obtain ⟨listening, _, later, next, same⟩ := readEnd_cases moved
      have lighter := Framing.Decoder.weight_idle next
      have queue := kept (by
        rw [same]
        exact close_outbound (by simp [listening]))
      simp only [decoderAfter, next] at balance
      simp only [price, income, spare] at balance ⊢
      omega
    | queueHeld | takeNote | endNote =>
      have queue := kept ((congrArg (·.correlator.outbound) footprint).trans rfl)
      simp only [decoderAfter] at balance
      simp only [price, income]
      omega
    | pollTask =>
      have queue := pollTask_queue_cost sound moved
      simp only [decoderAfter, price, income, spare] at balance ⊢
      omega
    | write =>
      obtain ⟨_, m, correlator, taken, same⟩ := write_cases moved
      have queue := Outbound.take_cost sound (Correlator.take_outbound taken)
      have there : after.correlator = correlator := congrArg Connection.correlator same
      rw [there] at balance
      simp only [decoderAfter, price, income, spare] at balance ⊢
      omega
    | failWrite =>
      have queue := failWrite_queue_cost moved
      simp only [decoderAfter, price, income, spare] at balance ⊢
      omega
    | stopWriter =>
      obtain ⟨_, _, _, same⟩ := stopWriter_cases moved
      have queue := disconnect_cost c.correlator.outbound
      have there : after.correlator.outbound = c.correlator.outbound.disconnect := congrArg (·.correlator.outbound) same
      rw [there] at balance
      simp only [decoderAfter, price, income, spare] at balance ⊢
      omega
    | @turn ticket =>
      have queue := Outbound.turn_cost sound ticket
      have there : after.correlator.outbound = (c.correlator.outbound.turn ticket).2 := by
        cases moved
        exact Correlator.turn_outbound c.correlator ticket
      rw [there] at balance
      simp only [decoderAfter, price, income, spare] at balance ⊢
      omega

end Connection

theorem Connection.step_sound {c after : Connection} {action : Action} (sound : c.correlator.outbound.Sound)
    (moved : c.step action = some after) : after.correlator.outbound.Sound := by
  rw [step_correlator moved]
  exact Correlator.moveAll_sound sound _

theorem Connection.runs_sound {config : Config} {served called : Registry} {handlers : List (String × MethodKind)}
    {actions : List Action} {c : Connection} (runs : Runs (initial config served called handlers) actions c) :
    c.correlator.outbound.Sound := by
  induction runs with
  | nil => exact Outbound.initial_sound _
  | snoc _ moved ih => exact step_sound ih moved

end DuplexRpc
