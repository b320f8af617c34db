import DuplexRpc.Connection.Fifo
import DuplexRpc.Proofs.Connection.Moves

namespace DuplexRpc.Fifo
open Connection (Action Runs)
variable {f g later : Fifo} {job : Job} {jobs ready : List Job} {action : Action}

-- What is woken comes last, and nothing is ready twice.
theorem enqueue_all (jobs ready : List Job) : ∃ new, jobs.foldl enqueue ready = ready ++ new ∧ new.Sublist jobs ∧
    (ready.Nodup → (ready ++ new).Nodup) := by
  induction jobs generalizing ready with
  | nil => exact ⟨[], by simp, .slnil, by simp⟩
  | cons job rest ih =>
    rw [List.foldl_cons, enqueue]
    split
    · obtain ⟨new, same, among, once⟩ := ih ready
      exact ⟨new, same, among.cons job, once⟩
    · rename_i absent
      obtain ⟨new, same, among, once⟩ := ih (ready ++ [job])
      refine ⟨job :: new, by simp [same], among.cons_cons job, fun before => ?_⟩
      have joined := once (List.nodup_append.mpr ⟨before, List.nodup_singleton job, fun other present last new =>
        fun same => absent (List.mem_singleton.mp new ▸ same ▸ present)⟩)
      simpa using joined

theorem enqueue_once (once : ready.Nodup) (jobs : List Job) : (jobs.foldl enqueue ready).Nodup := by
  obtain ⟨new, same, _, nodup⟩ := enqueue_all jobs ready
  rw [same]
  exact nodup once

-- The actions of the jobs of a schedule. All others come from outside.
inductive Scheduled : Action → Prop where
  | receive {chunk} : Scheduled (.receive chunk)
  | readNext : Scheduled .readNext
  | readEnd : Scheduled .readEnd
  | queueHeld : Scheduled .queueHeld
  | takeNote : Scheduled .takeNote
  | endNote : Scheduled .endNote
  | pollTask {task handler} : Scheduled (.pollTask task handler)
  | write : Scheduled .write
  | failWrite : Scheduled .failWrite
  | stopWriter : Scheduled .stopWriter
  | turn {ticket} : Scheduled (.turn ticket)

-- One move of a job takes the connection no further than one action does.
structure Turned (f g : Fifo) : Prop where
  act : g.connection = f.connection ∨ ∃ action, Scheduled action ∧ f.connection.step action = some g.connection
  once : f.ready.Nodup → g.ready.Nodup

theorem Turned.idle (f : Fifo) : Turned f f := ⟨.inl rfl, id⟩

theorem Turned.acted {after : Connection} (scheduled : Scheduled action) (moved : f.connection.step action = some after) :
    Turned f (f.move after) :=
  ⟨.inr ⟨action, scheduled, moved⟩, fun once => enqueue_once once _⟩

theorem moved_turned {after : Option Connection} (scheduled : Scheduled action)
    (moves : f.connection.step action = after) : Turned f (f.moved after).1 := by
  unfold moved
  split
  · exact .acted scheduled moves
  · exact .idle f

theorem runReader_turned (f : Fifo) : Turned f f.runReader.1 := by
  unfold runReader
  dsimp only
  split
  · exact moved_turned .queueHeld rfl
  · split
    · exact .acted .readNext (by assumption)
    · split
      · split
        · exact ⟨.inr ⟨_, .receive, by assumption⟩, fun once => enqueue_once once _⟩
        · exact .idle f
      · split
        · exact moved_turned .readEnd rfl
        · exact .idle f

theorem runWriter_turned (f : Fifo) : Turned f f.runWriter.1 := by
  unfold runWriter
  split
  · rename_i after wrote
    split at wrote
    · exact .acted .failWrite wrote
    · exact .acted .write wrote
  · exact moved_turned .stopWriter rfl

-- A change of the gate or of the plans is none of the connection.
theorem Turned.setGate {gate : Gate Job} {base : Fifo} (turned : Turned base g)
    (connection : base.connection = f.connection) (ready : base.ready = (f.setGate gate).ready) : Turned f g :=
  ⟨connection ▸ turned.act, fun once => turned.once (ready ▸ enqueue_once once _)⟩

theorem runWorker_turned (f : Fifo) : Turned f f.runWorker.1 := by
  unfold runWorker
  split
  · unfold pollNote
    split
    · exact (moved_turned .endNote rfl).setGate rfl rfl
    · exact (Turned.idle _).setGate rfl rfl
  · split
    · exact .idle f
    · exact ⟨.inr ⟨.takeNote, .takeNote, by assumption⟩, fun once => enqueue_once once _⟩

theorem runTask_turned (f : Fifo) (task : Nat) : Turned f (f.runTask task).1 := by
  unfold runTask
  split
  · exact .idle f
  · exact (moved_turned .pollTask rfl).setGate rfl rfl

theorem runJob_turned (f : Fifo) (job : Job) : Turned f (f.runJob job).1 := by
  cases job with
  | reader => exact runReader_turned f
  | writer => exact runWriter_turned f
  | worker => exact runWorker_turned f
  | task task => exact runTask_turned f task
  | sender ticket => exact .acted .turn rfl

-- Whatever the schedule does, the connection goes by actions of its own.
structure Follows (f g : Fifo) : Prop where
  runs : ∃ actions, Runs f.connection actions g.connection
  once : f.ready.Nodup → g.ready.Nodup

theorem Follows.refl (f : Fifo) : Follows f f := ⟨⟨[], .nil⟩, id⟩

theorem Follows.trans (one : Follows f g) (two : Follows g later) : Follows f later := by
  obtain ⟨actions, runs⟩ := one.runs
  obtain ⟨more, runs'⟩ := two.runs
  exact ⟨⟨actions ++ more, runs.append runs'⟩, two.once ∘ one.once⟩

theorem Turned.follows (turned : Turned f g) : Follows f g := by
  refine ⟨?_, turned.once⟩
  rcases turned.act with same | ⟨action, _, moved⟩
  · exact ⟨[], same ▸ .nil⟩
  · exact ⟨[] ++ [action], .snoc .nil moved⟩

theorem settleWithin_follows (moves : Nat) (f : Fifo) : Follows f (settleWithin moves f) := by
  induction moves generalizing f with
  | zero => exact .refl f
  | succ moves ih =>
    unfold settleWithin
    split
    · exact .refl f
    · rename_i job _ _
      have turned := (runJob_turned f job).follows
      split <;> rename_i after ran <;> rw [ran] at turned
      · exact turned.trans (ih after)
      · have dropped : Follows after { after with ready := after.ready.drop 1 } :=
          ⟨⟨[], .nil⟩, fun once => once.sublist (List.drop_sublist ..)⟩
        exact (turned.trans dropped).trans (ih _)

-- What the owner and the peer do between two settlings, and the settling.
inductive Operation where
  | start
  | close
  | feed (octets : List UInt8)
  | endInput
  | breakOutput
  | release (permits : Nat)
  | request (method : String) (params : Option Payload)
  | requestPatiently (method : String) (params : Option Payload)
  | notify (method : String) (params : Option Payload)
  | cancel (id : RequestId)
  | pollCall (call : Nat)
  | pollTyped (call : Nat) (type : TypeName)
  | settle

def operate (f : Fifo) : Operation → Fifo
  | .start => match f.start with
    | .ok g => g
    | .error _ => f
  | .close => f.close
  | .feed octets => f.feed octets
  | .endInput => f.endInput
  | .breakOutput => f.breakOutput
  | .release permits => f.release permits
  | .request method params => (f.request method params).2
  | .requestPatiently method params => (f.requestPatiently method params).2
  | .notify method params => (f.notify method params).2
  | .cancel id => (f.cancel id).2
  | .pollCall call => (f.pollCall call).2
  | .pollTyped call type => (f.pollTyped call type).2
  | .settle => f.settle

-- What comes from outside may wake jobs without touching the connection.
theorem Follows.wakes (jobs : List Job) (same : g.connection = f.connection) (woken : g.ready = jobs.foldl enqueue f.ready) :
    Follows f g :=
  ⟨⟨[], same ▸ .nil⟩, fun once => woken ▸ enqueue_once once jobs⟩

theorem move_follows {after : Connection} (moved : f.connection.step action = some after) : Follows f (f.move after) :=
  ⟨⟨[] ++ [action], .snoc .nil moved⟩, fun once => enqueue_once once _⟩

-- A message that would have to wait is given up with the call that came with it.
theorem abandon_follows {after : Connection} {ticket : Nat} (moved : f.connection.step action = some after) :
    Follows f (f.move (after.abandon ticket)) :=
  ⟨⟨[] ++ [action] ++ [.abandon ticket], .snoc (.snoc .nil moved) rfl⟩, fun once => enqueue_once once _⟩

theorem request_follows (f : Fifo) (method : String) (params : Option Payload) :
    Follows f (f.request method params).2 := by
  have moved : f.connection.step (.request method params) = some (f.connection.request method params).2 := rfl
  unfold request
  split <;> rename_i answer <;> rw [answer] at moved
  · exact abandon_follows moved
  · exact move_follows moved

theorem notify_follows (f : Fifo) (method : String) (params : Option Payload) :
    Follows f (f.notify method params).2 := by
  have moved : f.connection.step (.notify method params) = some (f.connection.notify method params).2 := rfl
  unfold notify
  split <;> rename_i answer <;> rw [answer] at moved
  · exact abandon_follows moved
  · exact move_follows moved

theorem cancel_follows (f : Fifo) (id : RequestId) : Follows f (f.cancel id).2 := by
  have moved : f.connection.step (.cancel id) = some (f.connection.cancel id).2 := rfl
  unfold cancel
  split <;> rename_i answer <;> rw [answer] at moved
  · exact abandon_follows moved
  · exact move_follows moved

theorem pollCall_follows (f : Fifo) (call : Nat) : Follows f (f.pollCall call).2 :=
  ⟨⟨[] ++ [.pollCall call], .snoc .nil rfl⟩, id⟩

theorem pollTyped_follows (f : Fifo) (call : Nat) (type : TypeName) : Follows f (f.pollTyped call type).2 := by
  have polled := f.pollCall_follows call
  unfold pollTyped
  split
  · exact .refl f
  · exact ⟨⟨[] ++ [.forgetCall call], .snoc .nil rfl⟩, id⟩
  · generalize f.pollCall call = looked at polled
    split
    · split <;> exact polled
    · exact polled

theorem start_follows (started : f.start = .ok g) : Follows f g := by
  unfold start at started
  cases begun : f.connection.start with
  | error _ => simp [begun, Except.map] at started
  | ok after =>
    simp only [begun, Except.map, Except.ok.injEq] at started
    subst started
    have moved : f.connection.step .start = some after := by simp [Connection.step, begun]
    exact ⟨⟨[] ++ [.start], .snoc .nil moved⟩, fun once => enqueue_once once _⟩

theorem operate_follows (f : Fifo) (operation : Operation) : Follows f (f.operate operation) := by
  cases operation with
  | start =>
    rw [operate]
    split
    · exact start_follows (by assumption)
    · exact .refl f
  | close => exact move_follows (show f.connection.step .close = _ from rfl)
  | feed octets => exact .wakes [.reader] rfl rfl
  | endInput => exact .wakes [.reader] rfl rfl
  | breakOutput => exact .wakes [] rfl rfl
  | release permits => exact .wakes _ rfl rfl
  | request method params => exact request_follows f method params
  | requestPatiently method params => exact move_follows (show f.connection.step (.request method params) = _ from rfl)
  | notify method params => exact notify_follows f method params
  | cancel id => exact cancel_follows f id
  | pollCall call => exact pollCall_follows f call
  | pollTyped call type => exact pollTyped_follows f call type
  | settle => exact settleWithin_follows _ f

inductive Reachable : Fifo → Prop where
  | initial {config served called scripts} : Reachable (initial config served called scripts)
  | operated {f operation} : Reachable f → Reachable (f.operate operation)

-- Every statement about the runs of a connection holds of those that are scheduled.
theorem Reachable.runs (reached : Reachable f) :
    ∃ config served called scripts actions, Runs (.initial config served called scripts) actions f.connection := by
  induction reached with
  | @initial config served called scripts => exact ⟨config, served, called, scripts.kinds, [], .nil⟩
  | @operated f operation _ ih =>
    obtain ⟨config, served, called, handlers, actions, runs⟩ := ih
    obtain ⟨more, runs'⟩ := (operate_follows f operation).runs
    exact ⟨config, served, called, handlers, actions ++ more, runs.append runs'⟩

theorem Reachable.once (reached : Reachable f) : f.ready.Nodup := by
  induction reached with
  | initial => exact List.nodup_nil
  | @operated f operation _ ih => exact (operate_follows f operation).once ih

end DuplexRpc.Fifo
