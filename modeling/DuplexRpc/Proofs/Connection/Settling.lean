import DuplexRpc.Proofs.Connection.Cost
import DuplexRpc.Proofs.Connection.Schedule

namespace DuplexRpc.Fifo
open Connection (Action)
variable {f g base : Fifo} {job who : Job} {others ready jobs granted : List Job} {after : Connection} {action : Action}
  {gate : Gate Job}

-- A job that was given a permit does not wait for one again.
def Job.cost (granted : List Job) (job : Job) : Nat := if job ∈ granted then 1 else job.fee

def readyCost (granted ready : List Job) : Nat := (ready.map (Job.cost granted)).sum

-- The turns that may still come until nothing is ready.
def cost (f : Fifo) : Nat :=
  f.connection.cost + 2 * f.gate.line.length + readyCost f.gate.granted f.ready + 23 * f.arrived.length

theorem Job.one_le_cost (granted : List Job) (job : Job) : 1 ≤ job.cost granted := by
  unfold Job.cost
  split
  · exact Nat.le_refl 1
  · exact job.one_le_fee

theorem Job.cost_le_fee (granted : List Job) (job : Job) : job.cost granted ≤ job.fee := by
  unfold Job.cost
  split
  · exact job.one_le_fee
  · exact Nat.le_refl _

theorem readyCost_append (granted one two : List Job) :
    readyCost granted (one ++ two) = readyCost granted one + readyCost granted two := by
  simp [readyCost]

theorem readyCost_le_fees (granted jobs : List Job) : readyCost granted jobs ≤ fees jobs :=
  List.sum_le_sum fun job _ => job.cost_le_fee granted

theorem readyCost_le {later : List Job} (kept : ∀ job ∈ ready, job ∈ granted → job ∈ later) :
    readyCost later ready ≤ readyCost granted ready := by
  refine List.sum_le_sum fun job present => ?_
  by_cases given : job ∈ granted
  · simp [Job.cost, given, kept job present given]
  · simpa [Job.cost, given] using job.cost_le_fee later

theorem readyCost_granted (all : ∀ job ∈ ready, job ∈ granted) : readyCost granted ready = ready.length := by
  have ones : ready.map (Job.cost granted) = ready.map fun _ => 1 :=
    List.map_congr_left fun job present => if_pos (all job present)
  simp [readyCost, ones]

-- What one job does at the gate: the others keep their permits, and those who are given one now
-- have stood in line for it.
structure Passes (who : Job) (before after : Gate Job) : Prop where
  others : ∀ job, job ≠ who → job ∈ before.granted → job ∈ after.granted
  paid : 2 * after.line.length + (after.granted.filter (· ∉ before.granted)).length + 1 ≤
    2 * before.line.length + who.cost before.granted

theorem ungranted_eq_nil {now : List Job} (old : ∀ job ∈ now, job ∈ granted) : now.filter (· ∉ granted) = [] :=
  List.filter_eq_nil_iff.mpr fun job present => by simpa using old job present

theorem passes_of_granted {before after : Gate Job} (line : after.line.length ≤ before.line.length)
    (fewer : ∀ job ∈ after.granted, job ∈ before.granted) (kept : ∀ job, job ≠ who → job ∈ before.granted → job ∈ after.granted) :
    Passes who before after := by
  refine ⟨kept, ?_⟩
  have paid := who.one_le_cost before.granted
  rw [ungranted_eq_nil fewer, List.length_nil]
  omega

theorem enter_passes (gate : Gate Job) (waits : who.fee = 3) : Passes who gate (gate.enter who).2 := by
  unfold Gate.enter
  split
  · exact passes_of_granted (Nat.le_refl _) (fun job => List.mem_of_mem_erase) fun job other given =>
      (List.mem_erase_of_ne other).mpr given
  · rename_i ungranted
    split
    · exact passes_of_granted (Nat.le_refl _) (fun _ => id) fun _ _ => id
    · split
      · exact passes_of_granted (Nat.le_refl _) (fun _ => id) fun _ _ => id
      · refine ⟨fun _ _ => id, ?_⟩
        rw [ungranted_eq_nil fun _ => id, Job.cost, if_neg ungranted, waits, List.length_append]
        simp only [List.length_nil, List.length_singleton]
        omega

theorem poll_passes {α : Type} (plan : Plan α) (gate : Gate Job) (cancelled : Bool) (waits : who.fee = 3) :
    Passes who gate (plan.poll gate who cancelled).2 := by
  cases plan with
  | finish result => exact passes_of_granted (Nat.le_refl _) (fun _ => id) fun _ _ => id
  | onCancel result => exact passes_of_granted (Nat.le_refl _) (fun _ => id) fun _ _ => id
  | onPermit result =>
    have enters := enter_passes gate waits
    unfold Plan.poll
    dsimp only
    split <;> rename_i entered <;> rwa [entered] at enters

theorem leave_passes (gate : Gate Job) (who : Job) : Passes who gate (gate.leave who) := by
  unfold Gate.leave
  split
  · refine ⟨fun job other given => List.mem_append_left _ ((List.mem_erase_of_ne other).mpr given), ?_⟩
    have old : (gate.granted.erase who).filter (· ∉ gate.granted) = [] :=
      ungranted_eq_nil fun job => List.mem_of_mem_erase
    have new := List.length_filter_le (fun job => decide (job ∉ gate.granted)) (gate.line.take 1)
    have parted := congrArg List.length (List.take_append_drop 1 gate.line)
    have paid := who.one_le_cost gate.granted
    rw [List.length_append] at parted
    simp only [Gate.release, List.filter_append, old, List.nil_append]
    omega
  · exact passes_of_granted (List.length_erase_le) (fun _ => id) fun _ _ => id

-- Without the job in front.
def rest (f : Fifo) : Fifo := { f with ready := f.ready.drop 1 }

theorem cost_rest (front : f.ready = job :: others) : f.cost = f.rest.cost + job.cost f.gate.granted := by
  simp only [cost, rest, front, List.drop_one, List.tail_cons, readyCost, List.map_cons, List.sum_cons]
  omega

-- What is woken comes last and is paid for by what wakes it.
theorem readyCost_wake (granted jobs ready : List Job) : ∃ new, jobs.foldl enqueue ready = ready ++ new ∧
    readyCost granted new ≤ fees jobs ∧ new.Sublist jobs := by
  obtain ⟨new, joined, among, _⟩ := enqueue_all jobs ready
  exact ⟨new, joined, Nat.le_trans (readyCost_le_fees granted new)
    ((among.map Job.fee).sum_le_sum fun _ _ => Nat.zero_le _), among⟩

theorem move_cost (f : Fifo) (after : Connection) :
    (f.move after).cost + f.connection.cost ≤ f.cost + after.cost + fees (woken f.connection after) := by
  obtain ⟨new, joined, paid, _⟩ := readyCost_wake f.gate.granted (woken f.connection after) f.ready
  have ready : (f.move after).ready = f.ready ++ new := joined
  have added := readyCost_append f.gate.granted f.ready new
  change after.cost + 2 * f.gate.line.length + readyCost f.gate.granted (f.move after).ready + 23 * f.arrived.length +
    f.connection.cost ≤ _
  rw [ready, added, cost]
  omega

-- The job in front is not woken again.
theorem move_rest_cost (front : f.ready = job :: others) (after : Connection) :
    (f.move after).rest.cost + f.connection.cost ≤ f.rest.cost + after.cost + fees (woken f.connection after) := by
  obtain ⟨new, joined, _, _⟩ := readyCost_wake f.gate.granted (woken f.connection after) f.ready
  have ready : (f.move after).ready = job :: (others ++ new) := by
    rw [← List.cons_append, ← front]
    exact joined
  have whole := move_cost f after
  have before := cost_rest front
  have later := cost_rest ready
  have same : (f.move after).gate = f.gate := rfl
  rw [same] at later
  omega

-- The gate's change for the job in front is paid for by its turn.
theorem setGate_rest_cost (front : f.ready = job :: others) (once : f.ready.Nodup) (passes : Passes job f.gate gate) :
    ∃ later, (f.setGate gate).ready = job :: later ∧ (f.setGate gate).rest.cost < f.cost := by
  obtain ⟨new, joined, _, among⟩ := readyCost_wake gate.granted (gate.granted.filter (· ∉ f.gate.granted)) f.ready
  have ready : (f.setGate gate).ready = job :: (others ++ new) := by
    rw [← List.cons_append, ← front]
    exact joined
  have apart : job ∉ others := (List.nodup_cons.mp (front ▸ once)).1
  have rest' : readyCost gate.granted others ≤ readyCost f.gate.granted others :=
    readyCost_le fun other present given => passes.others other (fun same => apart (same ▸ present)) given
  have fresh : readyCost gate.granted new ≤ (gate.granted.filter (· ∉ f.gate.granted)).length := by
    rw [readyCost_granted fun other present => (List.mem_filter.mp (among.subset present)).1]
    exact among.length_le
  have paid := passes.paid
  refine ⟨others ++ new, ready, ?_⟩
  have later : (f.setGate gate).rest.cost = f.connection.cost + 2 * gate.line.length +
      readyCost gate.granted (others ++ new) + 23 * f.arrived.length := by
    rw [cost, rest, ready]
    rfl
  have before := cost_rest front
  rw [later, readyCost_append, before, cost, rest, front]
  simp only [List.drop_one, List.tail_cons]
  omega

-- A turn of the job in front brings the end nearer, whether the job goes on or not.
def Spent (f : Fifo) : Turn → Prop
  | (g, true) => g.cost < f.cost
  | (g, false) => g.rest.cost < f.cost

theorem idle_spent (front : f.ready = job :: others) : Spent f (f, false) := by
  have before := cost_rest front
  have paid := job.one_le_cost f.gate.granted
  change f.rest.cost < f.cost
  omega

section Turns
variable (sound : f.connection.correlator.outbound.Sound)
include sound

-- A move that frees something pays for going on, and one that does not, for the end of the turn.
theorem move_spent (scheduled : Scheduled action) (moved : f.connection.step action = some after)
    (quiet : Connection.income action = 0) (frees : 1 ≤ Connection.price action) : Spent f (f.move after, true) := by
  have paid := Connection.step_cost sound scheduled moved
  have woken := move_cost f after
  change (f.move after).cost < f.cost
  omega

theorem last_spent (front : f.ready = job :: others) (scheduled : Scheduled action)
    (moved : f.connection.step action = some after) (quiet : Connection.income action = 0) :
    Spent f (f.move after, false) := by
  have paid := Connection.step_cost sound scheduled moved
  have woken := move_rest_cost front after
  have before := cost_rest front
  have one := job.one_le_cost f.gate.granted
  change (f.move after).rest.cost < f.cost
  omega

theorem moved_spent {result : Option Connection} (front : f.ready = job :: others) (scheduled : Scheduled action)
    (moves : f.connection.step action = result) (quiet : Connection.income action = 0)
    (frees : 1 ≤ Connection.price action) : Spent f (f.moved result) := by
  unfold moved
  split
  · exact move_spent sound scheduled moves quiet frees
  · exact idle_spent front

theorem last_moved_spent {result : Option Connection} (front : f.ready = job :: others) (scheduled : Scheduled action)
    (moves : f.connection.step action = result) (quiet : Connection.income action = 0) :
    Spent f ((f.moved result).1, false) := by
  unfold moved
  split
  · exact last_spent sound front scheduled moves quiet
  · exact idle_spent front

theorem runReader_spent (front : f.ready = job :: others) : Spent f f.runReader := by
  unfold runReader
  dsimp only
  split
  · exact moved_spent sound front .queueHeld rfl rfl (Nat.le_refl 1)
  · split
    · exact move_spent sound .readNext (by assumption) rfl (Nat.le_refl 1)
    · split
      · rename_i arrived
        split
        · rename_i after received
          have paid := Connection.step_cost sound .receive (show f.connection.step (.receive f.arrived) = some after from received)
          have woken := move_cost { f with arrived := [] } after
          have some' : 1 ≤ f.arrived.length := List.length_pos_iff.mpr arrived
          have less : ({ f with arrived := [] } : Fifo).cost + 23 * f.arrived.length = f.cost := by
            simp [cost]
          change (Fifo.move { f with arrived := [] } after).cost < f.cost
          simp only [Connection.income, Connection.price, Connection.spare] at paid
          dsimp only at woken
          omega
        · exact idle_spent front
      · split
        · exact last_moved_spent sound front .readEnd rfl rfl
        · exact idle_spent front

theorem runWriter_spent (front : f.ready = job :: others) : Spent f f.runWriter := by
  unfold runWriter
  split
  · rename_i after wrote
    split at wrote
    · exact move_spent sound .failWrite wrote rfl (Nat.le_refl 1)
    · exact move_spent sound .write wrote rfl (Nat.le_refl 1)
  · exact last_moved_spent sound front .stopWriter rfl rfl

theorem runWorker_spent (front : f.ready = .worker :: others) (once : f.ready.Nodup) : Spent f f.runWorker := by
  unfold runWorker
  split
  · rename_i method plan _
    have passes := poll_passes plan f.gate false (show Job.worker.fee = 3 from rfl)
    unfold pollNote
    split <;> rename_i gate polled <;> rw [polled] at passes <;> dsimp only at passes <;>
      obtain ⟨later, front', less⟩ := setGate_rest_cost front once passes
    · unfold moved
      split
      · rename_i after ended
        have paid := Connection.step_cost sound .endNote (show f.connection.step .endNote = some after from ended)
        have woken := move_cost (f.setGate gate) after
        have whole := cost_rest front'
        have fee := Job.cost_le_fee (f.setGate gate).gate.granted .worker
        change ((f.setGate gate).move after).cost < f.cost
        have same : (f.setGate gate).connection = f.connection := rfl
        rw [same] at woken
        simp only [Connection.income, Connection.price, Connection.spare, Job.fee] at paid fee
        omega
      · exact less
    · exact less
  · split
    · exact idle_spent front
    · rename_i after taken
      exact move_spent (f := f) sound .takeNote taken rfl (Nat.le_refl 1)

-- The last move of a turn that has been paid for.
theorem gated_spent {result : Option Connection} (same : base.connection = f.connection) (front : base.ready = job :: others)
    (less : base.rest.cost < f.cost) (scheduled : Scheduled action) (moves : f.connection.step action = result)
    (quiet : Connection.income action = 0) : Spent f ((base.moved result).1, false) := by
  unfold moved
  split
  · rename_i after
    have paid := Connection.step_cost sound scheduled moves
    have woken := move_rest_cost front after
    change (base.move after).rest.cost < f.cost
    rw [same] at woken
    omega
  · exact less

theorem runTask_spent {task : Nat} (front : f.ready = .task task :: others) (once : f.ready.Nodup) :
    Spent f (f.runTask task) := by
  unfold runTask
  split
  · exact idle_spent front
  · rename_i t _
    dsimp only
    generalize (if f.connection.dispatcher.runsHandler t.request t.cancelled then
      f.plans.lookup task <|> f.scripts.requestPlan? t.request t.cancelled else none) = plan
    cases plan with
    | some plan =>
      obtain ⟨later, front', less⟩ := setGate_rest_cost front once (poll_passes plan f.gate t.cancelled rfl)
      exact gated_spent (f := f) sound rfl front' less .pollTask rfl rfl
    | none =>
      obtain ⟨later, front', less⟩ := setGate_rest_cost front once (leave_passes f.gate (.task task))
      exact gated_spent (f := f) sound rfl front' less .pollTask rfl rfl

theorem runJob_spent (front : f.ready = job :: others) (once : f.ready.Nodup) : Spent f (f.runJob job) := by
  cases job with
  | reader => exact runReader_spent sound front
  | writer => exact runWriter_spent sound front
  | worker => exact runWorker_spent sound front once
  | task task => exact runTask_spent sound front once
  | sender ticket => exact last_spent sound front .turn rfl rfl

theorem turned_sound (turned : Turned f g) : g.connection.correlator.outbound.Sound := by
  rcases turned.act with same | ⟨action, _, moved⟩
  · rwa [same]
  · exact Connection.step_sound sound moved

-- As many moves as the schedule may still cost are enough for it to come to rest.
theorem settleWithin_ready {moves : Nat} (once : f.ready.Nodup) (enough : f.cost ≤ moves) :
    (settleWithin moves f).ready = [] := by
  induction moves generalizing f with
  | zero =>
    cases front : f.ready with
    | nil => exact front
    | cons job others =>
      have before := cost_rest front
      have one := job.one_le_cost f.gate.granted
      omega
  | succ moves ih =>
    unfold settleWithin
    split
    · assumption
    · rename_i job others front
      have spent := runJob_spent sound front once
      have turned := runJob_turned f job
      split <;> rename_i later ran <;> rw [ran] at spent turned
      · exact ih (turned_sound sound turned) (turned.once once) (Nat.le_of_lt_succ (Nat.lt_of_lt_of_le spent enough))
      · exact ih (f := later.rest) (turned_sound (g := later) sound turned) ((turned.once once).sublist (List.drop_sublist ..))
          (Nat.le_of_lt_succ (Nat.lt_of_lt_of_le spent enough))

end Turns

theorem cost_le_moveBound (f : Fifo) : f.cost ≤ f.moveBound := by
  have tasks := Connection.sum_map_le Connection.Task.cost_le f.connection.tasks
  have waiting := Connection.sum_map_le Outbound.Waiter.cost_le f.connection.correlator.outbound.waiting
  have ready := Nat.le_trans (readyCost_le_fees f.gate.granted f.ready) (Connection.fees_le f.ready)
  have phase : f.connection.phaseCost ≤ 5 := by
    unfold Connection.phaseCost
    split <;> omega
  have held := Option.length_toList_le (o := f.connection.held)
  have running := Option.length_toList_le (o := f.connection.running)
  have weight := f.connection.decoder.weight_le
  simp only [cost, moveBound, Connection.cost, Connection.notesCost, Connection.tasksCost, Outbound.cost]
  omega

theorem Reachable.sound (reached : Reachable f) : f.connection.correlator.outbound.Sound := by
  obtain ⟨_, _, _, _, _, runs⟩ := reached.runs
  exact Connection.runs_sound runs

-- Settling ends because nothing is left to do, never because it is given up.
theorem settle_ready (reached : Reachable f) : f.settle.ready = [] :=
  settleWithin_ready reached.sound reached.once f.cost_le_moveBound

end DuplexRpc.Fifo
