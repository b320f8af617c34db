import DuplexRpc.Proofs.Connection.Answers
import DuplexRpc.Proofs.Connection.Latest
import DuplexRpc.Proofs.Correlator.Ending

namespace DuplexRpc.Connection
open Correlator (Awaited Finished Still Linked)
variable {c after : Connection} {action : Action} {actions more : List Action} {n : Nat} {k : Call}

-- What closes is the connection as it was, but for what the step has read, written or noted.
structure Closing (c base : Connection) : Prop where
  phase : base.phase = c.phase
  starts : base.starts = c.starts
  tasks : base.tasks = c.tasks
  inFlight : base.inFlight = c.inFlight
  still : Still c.correlator base.correlator
  pending : base.correlator.pending = c.correlator.pending

-- What closing makes of it: open calls end, requests of the peer in flight are cancelled, and
-- both tables are empty.
structure Shut (c after : Connection) : Prop where
  phase : after.phase = .closed
  starts : after.starts = c.starts
  inFlight : after.inFlight = []
  finished : Finished after.correlator
  calls : ∀ (n : Nat) (k : Call), c.correlator.calls[n]? = some k → ∃ k', after.correlator.calls[n]? = some k' ∧
    Call.Same k k' ∧ k'.outcome = some (k.outcome.getD (.error .connectionClosed))
  tasks : ∀ (n : Nat) (t : Task), c.tasks[n]? = some t → n ∈ c.inFlight.map (·.2) → after.tasks[n]? = some t.signalled

theorem close_finished (awaited : Awaited c.correlator) (open' : c.phase ≠ .closed) : Finished c.close.correlator := by
  rw [close_correlator, closeMoves]
  have finished := Correlator.failAll_finished awaited
  cases phase : c.phase with
  | created => exact finished.disconnect
  | listening => exact finished
  | closed => exact absurd phase open'

-- Closing ends the calls that are open, and no others change.
theorem close_ends (awaited : Awaited c.correlator) (open' : c.phase ≠ .closed)
    (found : c.correlator.calls[n]? = some k) : ∃ k', c.close.correlator.calls[n]? = some k' ∧ Call.Same k k' ∧
      k'.outcome = some (k.outcome.getD (.error .connectionClosed)) := by
  obtain ⟨k', found', same, outcome⟩ := awaited.failAll found
  rw [close_correlator, closeMoves]
  cases phase : c.phase with
  | created =>
    obtain ⟨k'', found'', same', outcome'⟩ := Correlator.disconnect_quiet _ n k' found'
    exact ⟨k'', found'', same.trans same', outcome'.trans outcome⟩
  | listening => exact ⟨k', found', same, outcome⟩
  | closed => exact absurd phase open'

theorem Closing.shut {base : Connection} (closing : Closing c base) (awaited : Awaited c.correlator)
    (open' : c.phase ≠ .closed) : Shut c base.close := by
  have waits : Awaited base.correlator := awaited.still closing.still closing.pending
  have stillOpen : base.phase ≠ .closed := closing.phase ▸ open'
  have starts : base.close.starts = c.starts := by
    rw [close_fields]
    exact closing.starts
  refine ⟨close_phase base, starts, ?_, close_finished waits stillOpen, fun n k found => ?_, fun n t found listed => ?_⟩
  · rcases close_inFlight base with ⟨_, gone⟩ | emptied
    · exact absurd gone stillOpen
    · exact emptied
  · obtain ⟨k', found', same, outcome⟩ := closing.still.quiet n k found
    obtain ⟨k'', found'', same', outcome'⟩ := close_ends waits stillOpen found'
    exact ⟨k'', found'', same.trans same', by rw [outcome', outcome]⟩
  · rw [close_get, closing.tasks, found, Option.map_some, closing.inFlight, if_pos ⟨stillOpen, listed⟩]

theorem Shut.disconnect (shut : Shut c after) : Shut c { after with correlator := after.correlator.disconnect } := by
  refine ⟨shut.phase, shut.starts, shut.inFlight, shut.finished.disconnect, fun n k found => ?_, shut.tasks⟩
  obtain ⟨k', found', same, outcome⟩ := shut.calls n k found
  obtain ⟨k'', found'', same', outcome'⟩ := Correlator.disconnect_quiet _ n k' found'
  exact ⟨k'', found'', same.trans same', outcome'.trans outcome⟩

-- How far a connection has come: its loops were started once or not at all, every open call
-- is in the table until it closes, and afterwards nothing is open or in flight.
structure Standing (c : Connection) : Prop where
  unstarted : c.phase = .created → c.starts = 0
  once : c.starts ≤ 1
  linked : Linked c.correlator
  awaited : c.phase ≠ .closed → Awaited c.correlator
  finished : c.phase = .closed → Finished c.correlator
  landed : c.phase = .closed → c.inFlight = []

theorem initial_standing (config : Config) (served called : Registry) (handlers : List (String × MethodKind)) :
    Standing (initial config served called handlers) :=
  ⟨fun _ => rfl, Nat.zero_le 1, Correlator.initial_linked .., fun _ => Correlator.initial_awaited _ _, nofun, nofun⟩

-- What a step does to the phase. A connection that was never started is closed by its owner.
inductive Change (c : Connection) (action : Action) (after : Connection) : Prop where
  | same : after.phase = c.phase → after.starts = c.starts → Change c action after
  | started : action = .start → c.phase = .created → after.phase = .listening → after.starts = c.starts + 1 →
      Change c action after
  | closed : c.phase ≠ .closed → (c.phase = .created → action = .close) → Shut c after → Change c action after

theorem Closing.change {base : Connection} (closing : Closing c base) (standing : Standing c)
    (first : c.phase = .created → action = .close) : Change c action base.close := by
  by_cases closed : c.phase = .closed
  · rw [close_of_closed (closing.phase.trans closed)]
    exact .same closing.phase closing.starts
  · exact .closed closed first (closing.shut (standing.awaited closed) closed)

theorem Change.disconnect (change : Change c action after) :
    Change c action { after with correlator := after.correlator.disconnect } := by
  cases change with
  | same phase starts => exact .same phase starts
  | started starts created listening more => exact .started starts created listening more
  | closed open' first shut => exact .closed open' first shut.disconnect

theorem step_change (standing : Standing c) (moved : c.step action = some after) : Change c action after := by
  cases action with
  | start =>
    obtain ⟨created, rfl⟩ := start_cases moved
    exact .started rfl created rfl rfl
  | close =>
    cases moved
    have closing : Closing c c := ⟨rfl, rfl, rfl, rfl, .refl _, rfl⟩
    exact closing.change standing fun _ => rfl
  | readNext =>
    obtain ⟨listening, _, item, decoder, _, rfl⟩ := readNext_cases moved
    cases item with
    | body body =>
      rw [takeItem_body, takeBody_fields]
      exact .same rfl rfl
    | fault fault =>
      rw [takeItem_fault]
      dsimp only
      split
      · refine Closing.change ?_ standing fun created => by cases listening.symm.trans created
        exact ⟨rfl, rfl, rfl, rfl, .refl _, rfl⟩
      · exact .same rfl rfl
  | readEnd =>
    obtain ⟨listening, _, decoder, _, rfl⟩ := readEnd_cases moved
    refine Closing.change ?_ standing fun created => by cases listening.symm.trans created
    exact ⟨rfl, rfl, rfl, rfl, .refl _, rfl⟩
  | failWrite =>
    obtain ⟨started, _, correlator, taken, rfl⟩ := failWrite_cases moved
    obtain rfl : c.correlator.step .take = correlator := by simp [Correlator.step, taken]
    have closing : Closing c { c with correlator := c.correlator.step .take } :=
      ⟨rfl, rfl, rfl, rfl, Correlator.take_still _, Correlator.take_pending _⟩
    exact (closing.change standing fun created => absurd (standing.unstarted created) started).disconnect
  | _ => exact .same ((congrArg phase (step_footprint moved)).trans rfl) ((congrArg starts (step_footprint moved)).trans rfl)

theorem closed_stops_reading (closed : c.phase = .closed) :
    c.step .readNext = none ∧ (∀ chunk, c.step (.receive chunk) = none) ∧ c.step .readEnd = none := by
  simp [step, readNext, receive, readEnd, closed]

theorem born?_of_closed (closed : c.phase = .closed) (moved : c.step action = some after) : c.born? action = none := by
  cases born : c.born? action with
  | none => rfl
  | some r =>
    obtain ⟨rfl, _⟩ := born?_some born
    rw [(closed_stops_reading closed).1] at moved
    cases moved

theorem step_shut (standing : Standing c) (moved : c.step action = some after) (open' : c.phase ≠ .closed)
    (closed : after.phase = .closed) : Shut c after := by
  cases step_change standing moved with
  | same same _ => exact absurd (same.symm.trans closed) open'
  | started _ _ listening _ => cases listening.symm.trans closed
  | closed _ _ shut => exact shut

theorem step_landed (standing : Standing c) (moved : c.step action = some after) (closed : after.phase = .closed) :
    after.inFlight = [] := by
  by_cases already : c.phase = .closed
  · have landed := standing.landed already
    have flight := step_flight moved
    generalize after.inFlight = table at flight
    cases flight with
    | kept => exact landed
    | emptied => rfl
    | entered born => cases (born?_of_closed already moved).symm.trans born
    | left _ _ latest => simp [landed] at latest
  · exact (step_shut standing moved already closed).inFlight

theorem step_standing (standing : Standing c) (moved : c.step action = some after) : Standing after := by
  have linked := step_linked standing.linked moved
  have awaited : after.phase ≠ .closed → Awaited after.correlator := by
    intro open'
    rw [step_correlator moved]
    exact Correlator.moveAll_awaited standing.linked (standing.awaited (step_open moved open')) (moves_stay moved open')
  have landed := step_landed standing moved
  cases step_change standing moved with
  | same phase starts =>
    refine ⟨by rw [phase, starts]; exact standing.unstarted, starts ▸ standing.once, linked, awaited, ?_, landed⟩
    intro closed
    rw [step_correlator moved]
    exact (Correlator.moveAll_finished (standing.finished (phase.symm.trans closed)) _).1
  | started _ created listening starts =>
    have once : after.starts ≤ 1 := by simp [starts, standing.unstarted created]
    have open' : after.phase ≠ .closed := by simp [listening]
    exact ⟨by simp [listening], once, linked, awaited, fun closed => absurd closed open', landed⟩
  | closed _ _ shut =>
    exact ⟨by simp [shut.phase], shut.starts ▸ standing.once, linked, awaited, fun _ => shut.finished, landed⟩

theorem runs_standing {config : Config} {served called : Registry} {handlers : List (String × MethodKind)}
    (runs : Runs (initial config served called handlers) actions c) : Standing c := by
  induction runs with
  | nil => exact initial_standing ..
  | snoc _ moved ih => exact step_standing ih moved

-- The way of a connection through its phases. It is closed unstarted only by its owner.
inductive Passes (c : Connection) (action : Action) (after : Connection) : Prop where
  | stays : after.phase = c.phase → after.starts = c.starts → Passes c action after
  | starts : action = .start → c.phase = .created → after.phase = .listening → after.starts = c.starts + 1 →
      Passes c action after
  | closes : c.phase = .listening → after.phase = .closed → after.starts = c.starts → Passes c action after
  | closesUnstarted : action = .close → c.phase = .created → after.phase = .closed → after.starts = c.starts →
      Passes c action after

-- What closes a connection: its owner, the end of the stream, a write that fails, and the
-- framing fault that uses up the budget.
inductive Closes (c : Connection) : Action → Prop where
  | owner : Closes c .close
  | streamEnd : Closes c .readEnd
  | writing : Closes c .failWrite
  | faults {fault : Framing.Fault} : c.decoder.next.1 = some (.fault fault) → c.faultBudget ≤ c.faultsInRow + 1 →
      Closes c .readNext

-- What closing ends: the calls that are open, and the requests of the peer in flight.
structure Ends (c after : Connection) : Prop where
  calls : ∀ (n : Nat) (k : Call), c.correlator.calls[n]? = some k → ∃ k', after.correlator.calls[n]? = some k' ∧
    Call.Same k k' ∧ k'.outcome = some (k.outcome.getD (.error .connectionClosed))
  tasks : ∀ id n, (id, n) ∈ c.inFlight → ∃ t, after.tasks[n]? = some t ∧ t.request.id = id ∧ t.cancelled = true

-- What holds of a closed connection.
structure Closed (c : Connection) : Prop where
  answered : ∀ (n : Nat) (k : Call), c.correlator.calls[n]? = some k → k.outcome ≠ none
  pending : c.pendingRequests = 0
  inFlight : c.inFlight = []
  start : c.start = .error .closed
  request : ∀ method spec params, c.called.lookup method = some spec → spec.kind = .request →
    (c.request method params).1 = .refused .connectionClosed
  notify : ∀ method spec params, c.called.lookup method = some spec → spec.kind = .notification →
    (c.notify method params).1 = .refused .connectionClosed
  cancel : ∀ id, (c.cancel id).1 = .notPending
  reading : c.step .readNext = none ∧ (∀ chunk, c.step (.receive chunk) = none) ∧ c.step .readEnd = none
  close : c.close = c

-- What a closed connection does later: it reads no frame, makes no call and gives none an outcome.
structure Rests (c later : Connection) : Prop where
  phase : later.phase = .closed
  frames : later.frames = c.frames
  calls : Still c.correlator later.correlator

theorem Standing.passes (standing : Standing c) (moved : c.step action = some after) : Passes c action after := by
  cases step_change standing moved with
  | same phase starts => exact .stays phase starts
  | started starts created listening more => exact .starts starts created listening more
  | closed open' first shut =>
    cases there : c.phase with
    | created => exact .closesUnstarted (first there) there shut.phase shut.starts
    | listening => exact .closes there shut.phase shut.starts
    | closed => exact absurd there open'

theorem step_closes (closes : Closes c action) (moved : c.step action = some after) : after.phase = .closed := by
  cases closes with
  | owner =>
    cases moved
    exact close_phase c
  | streamEnd =>
    obtain ⟨_, _, decoder, _, rfl⟩ := readEnd_cases moved
    exact close_phase _
  | writing =>
    obtain ⟨_, _, correlator, _, rfl⟩ := failWrite_cases moved
    exact close_phase { c with correlator := correlator }
  | faults frame spent =>
    obtain ⟨_, _, item, decoder, next, rfl⟩ := readNext_cases moved
    rw [next] at frame
    obtain rfl := Option.some.inj frame
    exact takeItem_spent _ spent

theorem Standing.closed (standing : Standing c) (closed : c.phase = .closed) : Closed c := by
  have finished := standing.finished closed
  refine ⟨finished.answered, ?_, standing.landed closed, by simp [start, closed], ?_, ?_, ?_,
    closed_stops_reading closed, close_of_closed closed⟩
  · simp [pendingRequests, Correlator.pendingCount, finished.empty]
  · intro method spec params declared kind
    simp [request, Registry.refusal?, declared, kind, Correlator.send, finished.closed]
  · intro method spec params declared kind
    simp [notify, Registry.refusal?, declared, kind, finished.closed]
  · intro id
    simp [cancel, Correlator.cancel, finished.empty]

theorem Standing.ends (standing : Standing c) (flying : Flying c) (distinct : (Table.keys c.inFlight).Nodup)
    (moved : c.step action = some after) (open' : c.phase ≠ .closed) (closed : after.phase = .closed) : Ends c after := by
  have shut := step_shut standing moved open' closed
  refine ⟨shut.calls, fun id n listed => ?_⟩
  obtain ⟨t, found, named⟩ := flying id n (Table.lookup_of_mem distinct listed)
  exact ⟨t.signalled, shut.tasks n t found (List.mem_map.mpr ⟨_, listed, rfl⟩), named, rfl⟩

theorem step_rests (standing : Standing c) (closed : c.phase = .closed) (moved : c.step action = some after) :
    Rests c after := by
  refine ⟨?_, ?_, ?_⟩
  · rcases (step_forward moved).phase with same | ⟨created, _⟩ | gone
    · exact same.trans closed
    · cases closed.symm.trans created
    · exact gone
  · have unread : c.frame? action = none := by
      cases action with
      | readNext =>
        rw [(closed_stops_reading closed).1] at moved
        cases moved
      | _ => rfl
    rw [step_frames moved, unread]
    exact List.append_nil _
  · rw [step_correlator moved]
    exact (Correlator.moveAll_finished (standing.finished closed) _).2

theorem runs_rests {more : List Action} {later : Connection} (standing : Standing c) (closed : c.phase = .closed)
    (runs : Runs c more later) : Standing later ∧ Rests c later := by
  induction runs with
  | nil => exact ⟨standing, closed, rfl, .refl _⟩
  | snoc _ moved ih =>
    obtain ⟨there, rests⟩ := ih
    have further := step_rests there rests.phase moved
    exact ⟨step_standing there moved, further.phase, further.frames.trans rests.frames, rests.calls.trans further.calls⟩

-- A connection goes through its phases in one direction and reads in one loop. Closing it,
-- whatever closes it, ends what is open on both sides, and nothing is taken up again.
theorem teardown_is_final {config : Config} {served called : Registry} {handlers : List (String × MethodKind)}
    {actions : List Action} (runs : Runs (initial config served called handlers) actions c) :
    c.starts ≤ 1 ∧
    (∀ action after, c.step action = some after → Passes c action after ∧
      (Closes c action → after.phase = .closed) ∧ (c.phase ≠ .closed → after.phase = .closed → Ends c after)) ∧
    (c.phase = .closed → Closed c ∧ ∀ more later, Runs c more later → Closed later ∧ Rests c later) := by
  have standing := runs_standing runs
  refine ⟨standing.once, fun action after moved => ⟨standing.passes moved, ?_, ?_⟩, fun closed => ⟨?_, ?_⟩⟩
  · exact fun closes => step_closes closes moved
  · exact standing.ends (runs_flying runs) (runs_distinct runs) moved
  · exact standing.closed closed
  · intro more later further
    obtain ⟨there, rests⟩ := runs_rests standing closed further
    exact ⟨there.closed rests.phase, rests⟩

-- Closed while one request waits for its answer, one for room in the queue, and one of the
-- peer runs.
theorem teardown_is_final_busy :
    ∃ (c after : Connection) (k : Call) (t : Task), Reachable c ∧ c.pendingRequests = 2 ∧ c.step .close = some after ∧
      after.correlator.calls[1]? = some k ∧ k.id = .number 2 ∧ k.outcome = some (.error .connectionClosed) ∧
      after.tasks[0]? = some t ∧ t.request.id = .number 1 ∧ t.cancelled = true ∧ after.pendingRequests = 0 := by
  let called : Registry := { methods := [("m", ⟨"m", .request, .any, .any⟩)] }
  -- A request object with method "m" and id 1.
  let call : List UInt8 := [123, 34, 109, 101, 116, 104, 111, 100, 34, 58, 34, 109, 34, 44, 34, 105, 100, 34, 58, 49, 125]
  let start : Connection := initial { outboundQueueCapacity := 1 } {} called []
  let actions : List Action :=
    [.start, .request "m" none, .request "m" none, .receive (Framing.encode none call), .readNext]
  have started : (start.runAll actions).isSome := by decide +kernel
  obtain ⟨c, run⟩ := Option.isSome_iff_exists.mp started
  have seen : (start.runAll actions).map (fun c => (c.phase, c.pendingRequests, c.inFlight,
      c.correlator.calls[1]?)) = some (.listening, 2, [(.number 1, 0)],
        some ⟨.number 2, "m", none, .waiting 0, none, false⟩) := by decide +kernel
  simp only [run, Option.map_some, Option.some.injEq, Prod.mk.injEq] at seen
  obtain ⟨listening, pending, inFlight, second⟩ := seen
  have runs := runs_of_runAll run
  have moved : c.step .close = some c.close := rfl
  obtain ⟨_, closes, ending⟩ := (teardown_is_final runs).2.1 .close c.close moved
  have ends := ending (by simp [listening]) (closes .owner)
  obtain ⟨k, found, same, outcome⟩ := ends.calls 1 _ second
  obtain ⟨t, task, asked, signal⟩ := ends.tasks (.number 1) 0 (by simp [inFlight])
  have closed := ((teardown_is_final (.snoc runs moved)).2.2 (close_phase c)).1
  exact ⟨c, c.close, k, t, .intro runs, pending, moved, found, same.id, outcome, task, asked, signal, closed.pending⟩

end DuplexRpc.Connection
