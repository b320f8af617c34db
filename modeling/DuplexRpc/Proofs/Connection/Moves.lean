import DuplexRpc.Connection.Step
import DuplexRpc.Proofs.Correlator.Settlement

namespace DuplexRpc

-- What a connection can do to its correlator: an action of its own, or a message that is no
-- request and goes through the same queue.
inductive Correlator.Move where
  | act (action : Correlator.Action)
  | offer (message : Message) (standing : Outbound.Standing)

namespace Correlator

def move (c : Correlator) : Move → Correlator
  | .act action => c.step action
  | .offer m standing => (c.offer m standing).2

def moveAll (c : Correlator) (moves : List Move) : Correlator :=
  moves.foldl move c

theorem moveAll_append (c : Correlator) (one two : List Move) :
    c.moveAll (one ++ two) = (c.moveAll one).moveAll two :=
  List.foldl_append

theorem move_linked {c : Correlator} (linked : Linked c) (m : Move) : Linked (c.move m) := by
  cases m with
  | act action => exact step_linked linked action
  | offer m standing => exact offer_linked linked m standing

theorem moveAll_linked {c : Correlator} (linked : Linked c) (moves : List Move) : Linked (c.moveAll moves) := by
  induction moves generalizing c with
  | nil => exact linked
  | cons m rest ih => exact ih (move_linked linked m)

end Correlator

namespace Connection
variable {c after : Connection} {action : Action}

open Correlator (Move)

def closeMoves (c : Connection) : List Move :=
  match c.phase with
  | .created => [.act .failAll, .act .disconnect]
  | .listening => [.act .failAll]
  | .closed => []

def faultMoves (body : List UInt8) (issue : Issue) : List Move :=
  match issue.id, Envelope.kindOf? body with
  | some id, some .request => [.offer (.response (rejection id issue)) .arriving]
  | some id, some .response => [.act (.fail id (.invalidResponse issue))]
  | _, _ => []

def bodyMoves (c : Connection) (body : List UInt8) : List Move :=
  match c.contract.decode c.correlator.pendingMethod body with
  | .error issue => faultMoves body issue
  | .ok (.response ⟨some id, reply⟩) => [.act (.resolve id reply)]
  | .ok _ => []

def itemMoves (c : Connection) : Framing.Item → List Move
  | .fault _ => if c.faultBudget ≤ c.faultsInRow + 1 then c.closeMoves else []
  | .body body => c.bodyMoves body

-- What a poll of a task answers, if the task is still to be answered.
def answered? (c : Connection) (task : Nat) (handler : Option Outcome) : Option Response :=
  match c.tasks[task]? with
  | some t => if t.response.isSome then none else c.dispatcher.poll t.request t.cancelled handler
  | none => none

-- What an action does to the correlator.
def moves (c : Connection) : Action → List Move
  | .start | .receive _ | .queueHeld | .takeNote | .endNote | .signalOwn _ => []
  | .close | .readEnd => c.closeMoves
  | .readNext => match c.decoder.next.1 with
    | some item => c.itemMoves item
    | none => []
  | .pollTask task handler => (c.answered? task handler).toList.map fun r => .offer (.response r) .arriving
  | .write => [.act .take]
  | .failWrite => .act .take :: c.closeMoves ++ [.act .disconnect]
  | .stopWriter => [.act .disconnect]
  | .turn ticket => [.act (.turn ticket)]
  | .abandon ticket => [.act (.abandon ticket)]
  | .request method params => match c.called.refusal? method .request with
    | some _ => []
    | none => [.act (.send method params)]
  | .notify method params => match c.called.refusal? method .notification with
    | some _ => []
    | none => if c.correlator.closed then [] else [.offer (.notification ⟨method, params⟩) .inLine]
  | .cancel id => [.act (.cancel id)]
  | .pollCall call => [.act (.poll call)]
  | .forgetCall call => [.act (.forget call)]

theorem close_correlator (c : Connection) : c.close.correlator = c.correlator.moveAll c.closeMoves := by
  unfold close closeMoves
  cases c.phase <;> rfl

theorem handOver_correlator (c : Connection) (r : Response) :
    (c.handOver r).correlator = c.correlator.move (.offer (.response r) .arriving) := by
  unfold handOver
  rcases c.correlator.outbound.offer_cases (.response r) .arriving with ⟨_, same⟩ | ⟨_, _, same⟩ | ⟨_, _, same⟩ <;>
    simp [Correlator.move, Correlator.offer, same, record]

-- Where a frame that did not decode goes: back as an answer, to the call it names, or nowhere.
theorem takeFault_cases (c : Connection) (body : List UInt8) (issue : Issue) :
    (∃ id, issue.id = some id ∧ Envelope.kindOf? body = some .request ∧
      c.takeFault body issue = (c.report issue).handOver (rejection id issue)) ∨
    (∃ id, issue.id = some id ∧ Envelope.kindOf? body = some .response ∧
      c.takeFault body issue =
        { c.report issue with correlator := (c.correlator.fail id (.invalidResponse issue)).2 }) ∨
    ((∀ id, issue.id = some id → Envelope.kindOf? body = none ∨ Envelope.kindOf? body = some .notification) ∧
      c.takeFault body issue = c.report issue) := by
  cases named : issue.id with
  | none => exact .inr (.inr ⟨fun _ other => (by cases other), by simp [takeFault, named]⟩)
  | some id =>
    rcases claimed : Envelope.kindOf? body with _ | _ | _ | _
    · exact .inr (.inr ⟨fun _ _ => .inl rfl, by simp [takeFault, named, claimed]⟩)
    · exact .inl ⟨id, rfl, rfl, by simp [takeFault, named, claimed]⟩
    · exact .inr (.inr ⟨fun _ _ => .inr rfl, by simp [takeFault, named, claimed]⟩)
    · exact .inr (.inl ⟨id, rfl, rfl, by simp [takeFault, named, claimed, report, record]⟩)

theorem takeFault_correlator (c : Connection) (body : List UInt8) (issue : Issue) :
    (c.takeFault body issue).correlator = c.correlator.moveAll (faultMoves body issue) := by
  rcases c.takeFault_cases body issue with
    ⟨id, named, claimed, same⟩ | ⟨id, named, claimed, same⟩ | ⟨other, same⟩ <;> rw [same]
  · simp only [faultMoves, named, claimed]
    exact handOver_correlator ..
  · simp only [faultMoves, named, claimed]
    rfl
  · cases named : issue.id with
    | none => simp [faultMoves, named, Correlator.moveAll, report, record]
    | some id =>
      rcases other id named with claimed | claimed <;>
        simp [faultMoves, named, claimed, Correlator.moveAll, report, record]

theorem takeResponse_correlator (c : Connection) (r : Response) :
    (c.takeResponse r).correlator =
      match r.id with
      | some id => (c.correlator.resolve id r.reply).2
      | none => c.correlator := by
  unfold takeResponse
  split
  · simp [*, report, record]
  · rename_i id named
    split <;> rename_i answer <;> simp [named, answer, report, record]

theorem takeBody_correlator (c : Connection) (body : List UInt8) :
    (c.takeBody body).correlator = c.correlator.moveAll (c.bodyMoves body) := by
  unfold takeBody bodyMoves
  cases c.contract.decode c.correlator.pendingMethod body with
  | error issue => exact takeFault_correlator ..
  | ok message =>
    rcases message with r | n | ⟨_ | id, reply⟩
    · change (c.takeRequest r).correlator = c.correlator
      unfold takeRequest
      split <;> rfl
    · dsimp only
      split
      · change (c.takeCancel n).correlator = c.correlator
        unfold takeCancel
        repeat' split
        all_goals rfl
      · rfl
    · exact takeResponse_correlator c ⟨none, reply⟩
    · exact takeResponse_correlator c ⟨some id, reply⟩

theorem takeItem_fault (c : Connection) (fault : Framing.Fault) :
    c.takeItem (.fault fault) =
      let noted := { c.record (.took (.fault fault)) with faultsInRow := c.faultsInRow + 1 }.report
        (.make .parseError fault.message)
      if c.faultBudget ≤ c.faultsInRow + 1 then noted.close else noted := rfl

theorem takeItem_body (c : Connection) (body : List UInt8) :
    c.takeItem (.body body) = { c.record (.took (.body body)) with faultsInRow := 0 }.takeBody body := rfl

theorem takeItem_correlator (c : Connection) (item : Framing.Item) :
    (c.takeItem item).correlator = c.correlator.moveAll (c.itemMoves item) := by
  cases item with
  | body body => exact takeBody_correlator ..
  | fault fault =>
    rw [takeItem_fault]
    simp only [itemMoves]
    split
    · exact close_correlator _
    · rfl

theorem readNext_cases (moved : c.readNext = some after) :
    c.phase = .listening ∧ c.held = none ∧ ∃ item decoder, c.decoder.next = (some item, decoder) ∧
      after = { c with decoder := decoder }.takeItem item := by
  unfold readNext at moved
  split at moved
  · rename_i ready
    split at moved
    · rename_i item decoder found
      exact ⟨ready.1, ready.2, item, decoder, found, (Option.some.inj moved).symm⟩
    · cases moved
  · cases moved

theorem receive_cases {chunk : List UInt8} (moved : c.receive chunk = some after) :
    c.phase = .listening ∧ c.held = none ∧ ∃ decoder, c.decoder.next = (none, decoder) ∧
      after = { c with decoder := decoder.push chunk } := by
  unfold receive at moved
  split at moved
  · rename_i ready
    split at moved
    · cases moved
    · rename_i decoder found
      exact ⟨ready.1, ready.2, decoder, found, (Option.some.inj moved).symm⟩
  · cases moved

theorem readEnd_cases (moved : c.readEnd = some after) :
    c.phase = .listening ∧ c.held = none ∧ ∃ decoder, c.decoder.next = (none, decoder) ∧
      after = { c with decoder := decoder }.close := by
  unfold readEnd at moved
  split at moved
  · rename_i ready
    split at moved
    · cases moved
    · rename_i decoder found
      exact ⟨ready.1, ready.2, decoder, found, (Option.some.inj moved).symm⟩
  · cases moved

theorem queueHeld_cases (moved : c.queueHeld = some after) :
    ∃ n, c.held = some n ∧ c.phase = .listening ∧ c.notes.length < c.noteCapacity ∧
      after = { c with held := none, notes := c.notes ++ [n] } := by
  unfold queueHeld at moved
  split at moved
  · rename_i n held
    split at moved
    · rename_i ready
      exact ⟨n, held, ready.1, ready.2, (Option.some.inj moved).symm⟩
    · cases moved
  · cases moved

theorem takeNote_cases (moved : c.takeNote = some after) :
    ∃ n rest, c.notes = n :: rest ∧ c.phase = .listening ∧ c.running = none ∧
      after = { c with notes := rest, running := some n }.record (.dispatched n) := by
  unfold takeNote at moved
  split at moved
  · rename_i n rest queued
    split at moved
    · rename_i ready
      exact ⟨n, rest, queued, ready.1, ready.2, (Option.some.inj moved).symm⟩
    · cases moved
  · cases moved

theorem endNote_cases (moved : c.endNote = some after) :
    ∃ n, c.running = some n ∧ after = { c with running := none }.record .noteEnded := by
  unfold endNote at moved
  split at moved
  · rename_i n running
    exact ⟨n, running, (Option.some.inj moved).symm⟩
  · cases moved

theorem signalOwn_cases {task : Nat} (moved : c.signalOwn task = some after) :
    ∃ t, c.tasks[task]? = some t ∧ t.invoked = true ∧ t.response = none ∧ after = c.cancelTask task := by
  unfold signalOwn at moved
  split at moved
  · rename_i t found
    split at moved
    · rename_i ready
      exact ⟨t, found, ready.1, ready.2, (Option.some.inj moved).symm⟩
    · cases moved
  · cases moved

theorem start_cases (moved : c.step .start = some after) :
    c.phase = .created ∧ after = { c with phase := .listening, starts := c.starts + 1 } := by
  simp only [step, start] at moved
  cases phase : c.phase <;> simp [phase] at moved
  exact ⟨rfl, moved.symm⟩

theorem write_cases (moved : c.write = some after) :
    c.starts ≠ 0 ∧ ∃ m correlator, c.correlator.take = some (m, correlator) ∧
      after = { c with correlator := correlator }.record (.wrote m (c.frame m)) := by
  unfold write at moved
  split at moved
  · cases moved
  · rename_i started
    obtain ⟨⟨m, correlator⟩, taken, same⟩ := Option.map_eq_some_iff.mp moved
    exact ⟨started, m, correlator, taken, same.symm⟩

theorem failWrite_cases (moved : c.failWrite = some after) :
    c.starts ≠ 0 ∧ ∃ m correlator, c.correlator.take = some (m, correlator) ∧
      after = { { c with correlator := correlator }.close with
        correlator := { c with correlator := correlator }.close.correlator.disconnect } := by
  unfold failWrite at moved
  split at moved
  · cases moved
  · rename_i started
    obtain ⟨⟨m, correlator⟩, taken, same⟩ := Option.map_eq_some_iff.mp moved
    exact ⟨started, m, correlator, taken, same.symm⟩

theorem stopWriter_cases (moved : c.stopWriter = some after) :
    c.starts ≠ 0 ∧ c.phase = .closed ∧ c.correlator.outbound.queued = [] ∧
      after = { c with correlator := c.correlator.disconnect } := by
  unfold stopWriter at moved
  split at moved
  · rename_i ready
    exact ⟨ready.1, ready.2.1, ready.2.2, (Option.some.inj moved).symm⟩
  · cases moved

-- A request and a notification of ours change nothing but the correlator.
theorem request_fields (c : Connection) (method : String) (params : Option Payload) :
    (c.request method params).2 = { c with correlator := (c.request method params).2.correlator } := by
  unfold request
  repeat' split
  all_goals rfl

theorem notify_fields (c : Connection) (method : String) (params : Option Payload) :
    (c.notify method params).2 = { c with correlator := (c.notify method params).2.correlator } := by
  unfold notify
  repeat' split
  all_goals rfl

theorem request_correlator (c : Connection) (method : String) (params : Option Payload) :
    (c.request method params).2.correlator = c.correlator.moveAll (c.moves (.request method params)) := by
  simp only [request, moves]
  cases c.called.refusal? method .request with
  | some _ => rfl
  | none =>
    dsimp only
    split <;> rename_i sending <;> simp [Correlator.moveAll, Correlator.move, Correlator.step, sending]

theorem notify_correlator (c : Connection) (method : String) (params : Option Payload) :
    (c.notify method params).2.correlator = c.correlator.moveAll (c.moves (.notify method params)) := by
  simp only [notify, moves]
  cases c.called.refusal? method .notification with
  | some _ => rfl
  | none =>
    dsimp only
    split
    · rfl
    · rcases c.correlator.outbound.offer_cases (.notification ⟨method, params⟩) .inLine with
        ⟨_, same⟩ | ⟨_, _, same⟩ | ⟨_, _, same⟩ <;>
        simp [Correlator.moveAll, Correlator.move, Correlator.offer, same]

-- The first half of a poll: where the handler runs, the task is marked as run.
def markRun (c : Connection) (task : Nat) (t : Task) : Connection :=
  if c.dispatcher.runsHandler t.request t.cancelled && !t.invoked then
    (c.setTask task fun t => { t with invoked := true }).record (.invoked task)
  else c

theorem markRun_correlator (c : Connection) (task : Nat) (t : Task) :
    (c.markRun task t).correlator = c.correlator := by
  unfold markRun
  split <;> rfl

theorem markRun_dispatcher (c : Connection) (task : Nat) (t : Task) :
    (c.markRun task t).dispatcher = c.dispatcher := by
  unfold markRun
  split <;> rfl

theorem pollTask_cases {task : Nat} {handler : Option Outcome} (moved : c.pollTask task handler = some after) :
    ∃ t, c.tasks[task]? = some t ∧ t.response = none ∧
      ((∃ r, c.dispatcher.poll t.request t.cancelled handler = some r ∧ after = (c.markRun task t).finishTask task r) ∨
        (c.dispatcher.poll t.request t.cancelled handler = none ∧ after = c.markRun task t)) := by
  unfold pollTask at moved
  split at moved
  · cases moved
  · rename_i t found
    split at moved
    · cases moved
    · rename_i unanswered
      refine ⟨t, found, by simpa using unanswered, ?_⟩
      have same := markRun_dispatcher c task t
      unfold markRun at same
      cases answer : c.dispatcher.poll t.request t.cancelled handler with
      | some r =>
        simp only [same, answer] at moved
        exact .inl ⟨r, rfl, (Option.some.inj moved).symm⟩
      | none =>
        simp only [same, answer] at moved
        exact .inr ⟨rfl, (Option.some.inj moved).symm⟩

theorem finishTask_correlator (c : Connection) (task : Nat) (r : Response) :
    (c.finishTask task r).correlator = c.correlator.move (.offer (.response r) .arriving) := by
  refine (handOver_correlator _ r).trans (congrArg (Correlator.move · _) ?_)
  split
  · split <;> rfl
  · rfl

theorem step_correlator (moved : c.step action = some after) :
    after.correlator = c.correlator.moveAll (c.moves action) := by
  cases action with
  | start =>
    obtain ⟨_, rfl⟩ := start_cases moved
    rfl
  | close =>
    cases moved
    exact close_correlator c
  | receive chunk =>
    obtain ⟨_, _, _, _, rfl⟩ := receive_cases moved
    rfl
  | readNext =>
    obtain ⟨_, _, item, decoder, found, rfl⟩ := readNext_cases moved
    rw [takeItem_correlator]
    simp only [moves, found]
    rfl
  | readEnd =>
    obtain ⟨_, _, _, _, rfl⟩ := readEnd_cases moved
    exact close_correlator _
  | queueHeld =>
    obtain ⟨_, _, _, _, rfl⟩ := queueHeld_cases moved
    rfl
  | takeNote =>
    obtain ⟨_, _, _, _, _, rfl⟩ := takeNote_cases moved
    rfl
  | endNote =>
    obtain ⟨_, _, rfl⟩ := endNote_cases moved
    rfl
  | pollTask task handler =>
    obtain ⟨t, found, unanswered, ⟨r, answer, rfl⟩ | ⟨answer, rfl⟩⟩ := pollTask_cases moved
    · rw [finishTask_correlator, markRun_correlator]
      simp [moves, answered?, found, unanswered, answer, Correlator.moveAll]
    · rw [markRun_correlator]
      simp [moves, answered?, found, unanswered, answer, Correlator.moveAll]
  | signalOwn task =>
    obtain ⟨_, _, _, _, rfl⟩ := signalOwn_cases moved
    rfl
  | write =>
    obtain ⟨_, m, correlator, taken, rfl⟩ := write_cases moved
    simp [moves, Correlator.moveAll, Correlator.move, Correlator.step, taken, record]
  | failWrite =>
    obtain ⟨_, m, correlator, taken, rfl⟩ := failWrite_cases moved
    have first : c.correlator.move (.act .take) = correlator := by simp [Correlator.move, Correlator.step, taken]
    change ({ c with correlator := correlator }.close.correlator).disconnect = _
    rw [close_correlator, moves, Correlator.moveAll_append]
    simp only [Correlator.moveAll, List.foldl_cons, first]
    rfl
  | stopWriter =>
    obtain ⟨_, _, _, rfl⟩ := stopWriter_cases moved
    rfl
  | turn ticket => cases moved; rfl
  | abandon ticket => cases moved; rfl
  | request method params => cases moved; exact request_correlator ..
  | notify method params => cases moved; exact notify_correlator ..
  | cancel id => cases moved; rfl
  | pollCall call => cases moved; rfl
  | forgetCall call => cases moved; rfl

variable {origin before : Connection} {actions more : List Action}

-- The state after a list of actions, if each is possible in its turn.
def runAll (c : Connection) (actions : List Action) : Option Connection :=
  actions.foldlM step c

theorem Runs.cons (first : before.step action = some after) (runs : Runs after actions c) :
    Runs before (action :: actions) c := by
  induction runs with
  | nil => exact .snoc (.nil) first
  | snoc _ moved ih => exact .snoc ih moved

theorem runs_of_runAll (run : origin.runAll actions = some c) : Runs origin actions c := by
  induction actions generalizing origin with
  | nil =>
    cases run
    exact .nil
  | cons action rest ih =>
    obtain ⟨after, moved, later⟩ := Option.bind_eq_some_iff.mp run
    exact .cons moved (ih later)

theorem Runs.append (one : Runs origin actions before) (two : Runs before more c) :
    Runs origin (actions ++ more) c := by
  induction two with
  | nil => exact (List.append_nil actions).symm ▸ one
  | snoc _ moved ih => exact List.append_assoc .. ▸ .snoc ih moved

end Connection
end DuplexRpc
