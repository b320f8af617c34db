import DuplexRpc.Proofs.Connection.InFlight

namespace DuplexRpc.Connection
variable {c after : Connection} {action : Action} {actions : List Action} {n : Nat} {t t' : Task} {id : RequestId}

-- The ids of the peer's requests, in the order in which they were accepted.
def accepted (c : Connection) : List RequestId := c.tasks.map fun t => t.request.id

-- The n-th request is the last one accepted under this id.
def Latest (c : Connection) (id : RequestId) (n : Nat) : Prop :=
  c.accepted[n]? = some id ∧ ∀ m, n < m → c.accepted[m]? ≠ some id

def Unfinished (c : Connection) (n : Nat) : Prop := ∃ t, c.tasks[n]? = some t ∧ t.response = none

-- The table of requests in flight says which request is the last one under its id and still
-- without an answer.
def Tracked (c : Connection) : Prop :=
  ∀ id n, c.inFlight.lookup id = some n ↔ Latest c id n ∧ Unfinished c n

theorem accepted_of_task (found : c.tasks[n]? = some t) : c.accepted[n]? = some t.request.id := by
  simp [accepted, found]

theorem accepted_length (c : Connection) : c.accepted.length = c.tasks.length := List.length_map _

theorem Latest.within (latest : Latest c id n) : n < c.tasks.length :=
  c.accepted_length ▸ (List.getElem?_eq_some_iff.mp latest.1).1

theorem Latest.id_eq (latest : Latest c id n) (found : c.tasks[n]? = some t) : t.request.id = id :=
  Option.some.inj ((accepted_of_task found).symm.trans latest.1)

theorem Tracked.id_eq (tracked : Tracked c) (listed : c.inFlight.lookup id = some n) (found : c.tasks[n]? = some t) :
    t.request.id = id :=
  ((tracked id n).mp listed).1.id_eq found

-- Requests are only ever added, at the end.
theorem step_accepted (moved : c.step action = some after) :
    after.accepted = c.accepted ++ (c.born? action).toList.map (·.id) := by
  have old : (after.tasks.take c.tasks.length).map (fun t => t.request.id) = c.accepted := by
    apply List.ext_getElem?
    intro n
    rw [accepted, List.getElem?_map, List.getElem?_map, List.getElem?_take]
    cases found : c.tasks[n]? with
    | none =>
      have past := List.getElem?_eq_none_iff.mp found
      simp [Nat.not_lt.mpr past]
    | some t =>
      obtain ⟨t', found', turn⟩ := step_task moved found
      have within := (List.getElem?_eq_some_iff.mp found).1
      simp [within, found', turn.request]
  have new : (after.tasks.drop c.tasks.length).map (fun t => t.request.id) = (c.born? action).toList.map (·.id) := by
    rw [step_born moved, List.map_map]
    rfl
  rw [← old, ← new, ← List.map_append, List.take_append_drop]
  rfl

theorem latest_kept (same : after.accepted = c.accepted) : Latest after id n ↔ Latest c id n := by
  rw [Latest, Latest, same]

-- Of all requests under the id of a new one, the new one is the latest.
theorem latest_snoc {new : RequestId} (more : after.accepted = c.accepted ++ [new]) :
    Latest after id n ↔ if id = new then n = c.accepted.length else Latest c id n := by
  have at_end : after.accepted[c.accepted.length]? = some new := by simp [more]
  have inside : ∀ {m}, m < c.accepted.length → after.accepted[m]? = c.accepted[m]? := by
    intro m within
    rw [more, List.getElem?_append_left within]
  have outside : ∀ {m}, c.accepted.length < m → after.accepted[m]? = none := by
    intro m beyond
    apply List.getElem?_eq_none
    simp only [more, List.length_append, List.length_singleton]
    omega
  split
  · rename_i same
    subst same
    constructor
    · rintro ⟨here, last⟩
      rcases Nat.lt_trichotomy n c.accepted.length with earlier | same | beyond
      · exact absurd at_end (last _ earlier)
      · exact same
      · cases (outside beyond).symm.trans here
    · rintro rfl
      refine ⟨at_end, fun m beyond => ?_⟩
      rw [outside beyond]
      nofun
  · rename_i other
    have unmoved : ∀ m : Nat, after.accepted[m]? = some id ↔ c.accepted[m]? = some id := by
      intro m
      rcases Nat.lt_trichotomy m c.accepted.length with earlier | rfl | beyond
      · rw [inside earlier]
      · rw [at_end, List.getElem?_eq_none (Nat.le_refl _)]
        simpa using Ne.symm other
      · rw [outside beyond, List.getElem?_eq_none (Nat.le_of_lt beyond)]
    simp only [Latest, ne_eq, unmoved]

-- Only a poll finishes a request.
theorem step_unfinished (moved : c.step action = some after) (within : n < c.tasks.length)
    (unpolled : ∀ handler, action ≠ .pollTask n handler) : Unfinished after n ↔ Unfinished c n := by
  obtain ⟨t, found⟩ : ∃ t, c.tasks[n]? = some t := ⟨_, List.getElem?_eq_getElem within⟩
  obtain ⟨t', found', turn⟩ := step_task moved found
  have same : t'.response = t.response := by
    cases turn with
    | @polled handler polls _ => exact absurd polls (unpolled handler)
    | _ => rfl
  simp [Unfinished, found, found', same]

theorem latest_unfinished (moved : c.step action = some after) (unpolled : ∀ handler, action ≠ .pollTask n handler) :
    Latest c id n ∧ Unfinished after n ↔ Latest c id n ∧ Unfinished c n :=
  and_congr_right fun latest => step_unfinished moved latest.within unpolled

theorem takeBody_request {body : List UInt8} {r : Request}
    (decoded : c.contract.decode c.correlator.pendingMethod body = .ok (.request r)) : c.takeBody body = c.takeRequest r := by
  simp only [takeBody, decoded]

-- A request read enters the table in the place of any other under its id.
theorem step_entered {r : Request} (moved : c.step action = some after) (born : c.born? action = some r) :
    after.inFlight = Table.put r.id c.tasks.length c.inFlight := by
  obtain ⟨rfl, body, next, decoded⟩ := born?_some born
  obtain ⟨_, _, item, decoder, next', rfl⟩ := readNext_cases moved
  obtain rfl : item = .body body := by simpa [next'] using next
  rw [takeItem_body]
  refine (congrArg inFlight (takeBody_request (r := r) ?_)).trans (takeRequest_inFlight _ r)
  exact decoded

-- A poll takes nothing out of the table but the task's own entry, and that when it has ended.
theorem poll_inFlight {handler : Option Outcome} (moved : c.step (.pollTask n handler) = some after)
    (found : c.tasks[n]? = some t) (other : RequestId) :
    after.inFlight.lookup other =
      if (c.dispatcher.poll t.request t.cancelled handler).isSome ∧ c.inFlight.lookup t.request.id = some n ∧
        other = t.request.id then none else c.inFlight.lookup other := by
  obtain ⟨k, present, _, outcome⟩ := pollTask_cases moved
  obtain rfl : k = t := Option.some.inj (present.symm.trans found)
  rcases outcome with ⟨r, answer, rfl⟩ | ⟨answer, rfl⟩
  · rw [finishTask_eq, handOver_fields]
    simp only [retire, markRun_get found, if_true, markRun_inFlight, answer, Option.isSome_some, true_and]
    by_cases listed : c.inFlight.lookup k.request.id = some n
    · simp [listed]
    · simp [listed]
  · simp [markRun_inFlight, answer]

theorem poll_unfinished {handler : Option Outcome} (moved : c.step (.pollTask n handler) = some after)
    (found : c.tasks[n]? = some t) :
    Unfinished after n ↔ c.dispatcher.poll t.request t.cancelled handler = none := by
  obtain ⟨k, present, _, tasks⟩ := pollTask_task moved
  obtain rfl : k = t := Option.some.inj (present.symm.trans found)
  simp [Unfinished, tasks, Task.polled]

theorem step_untouched (moved : c.step action = some after) (open' : after.phase ≠ .closed)
    (unborn : c.born? action = none) (unpolled : ∀ n handler, action ≠ .pollTask n handler) :
    after.inFlight = c.inFlight := by
  have flight := step_flight moved
  generalize after.inFlight = table at flight
  cases flight with
  | kept => rfl
  | emptied gone => exact absurd gone open'
  | entered born => cases unborn.symm.trans born
  | left polls _ _ => exact absurd polls (unpolled _ _)

theorem Tracked.born {r : Request} (tracked : Tracked c) (moved : c.step action = some after)
    (born : c.born? action = some r) : Tracked after := by
  have more : after.accepted = c.accepted ++ [r.id] := by simp [step_accepted moved, born]
  intro id n
  rw [step_entered moved born, Table.lookup_put, latest_snoc more, accepted_length]
  split
  · constructor
    · intro listed
      obtain ⟨t, found, fresh⟩ := step_born_task moved born
      obtain rfl : c.tasks.length = n := Option.some.inj listed
      exact ⟨rfl, t, found, by rw [fresh]⟩
    · rintro ⟨rfl, _⟩
      rfl
  · have reads := (born?_some born).1
    rw [latest_unfinished moved fun _ polls => by cases reads.symm.trans polls]
    exact tracked id n

theorem Tracked.polled {handler : Option Outcome} (tracked : Tracked c)
    (moved : c.step (.pollTask n handler) = some after) : Tracked after := by
  obtain ⟨t, found, unanswered, _⟩ := pollTask_task moved
  have same : after.accepted = c.accepted := by simp [step_accepted moved, born?]
  intro id m
  rw [poll_inFlight moved found, latest_kept same]
  by_cases mine : m = n
  · subst mine
    rw [poll_unfinished moved found]
    constructor
    · intro listed
      split at listed
      · cases listed
      · rename_i stays
        have named := tracked.id_eq listed found
        subst named
        refine ⟨((tracked _ m).mp listed).1, ?_⟩
        simpa [listed] using stays
    · rintro ⟨latest, unended⟩
      rw [unended]
      exact (tracked id m).mpr ⟨latest, t, found, unanswered⟩
  · have unpolled : ∀ other, Action.pollTask n handler ≠ .pollTask m other := by
      intro other same
      cases same
      exact mine rfl
    have listed : (if (c.dispatcher.poll t.request t.cancelled handler).isSome ∧ c.inFlight.lookup t.request.id = some n ∧
        id = t.request.id then none else c.inFlight.lookup id) = some m ↔ c.inFlight.lookup id = some m := by
      split
      · rename_i ended
        rw [ended.2.2, ended.2.1]
        simpa using Ne.symm mine
      · rfl
    rw [listed, latest_unfinished moved unpolled]
    exact tracked id m

theorem Tracked.untouched (tracked : Tracked c) (moved : c.step action = some after) (open' : after.phase ≠ .closed)
    (unborn : c.born? action = none) (unpolled : ∀ n handler, action ≠ .pollTask n handler) : Tracked after := by
  have same : after.accepted = c.accepted := by simp [step_accepted moved, unborn]
  intro id n
  rw [step_untouched moved open' unborn unpolled, latest_kept same, latest_unfinished moved (unpolled n)]
  exact tracked id n

theorem step_tracked (tracked : Tracked c) (moved : c.step action = some after) (open' : after.phase ≠ .closed) :
    Tracked after := by
  cases born : c.born? action with
  | some r => exact tracked.born moved born
  | none =>
    by_cases polls : ∃ n handler, action = .pollTask n handler
    · obtain ⟨n, handler, rfl⟩ := polls
      exact tracked.polled moved
    · exact tracked.untouched moved open' born fun n handler same => polls ⟨n, handler, same⟩

theorem runs_tracked {config : Config} {served called : Registry} {handlers : List (String × MethodKind)}
    (runs : Runs (initial config served called handlers) actions c) (open' : c.phase ≠ .closed) : Tracked c := by
  induction runs with
  | nil =>
    intro id n
    constructor
    · intro listed
      cases listed
    · rintro ⟨_, t, found, _⟩
      cases found
  | snoc _ moved ih => exact step_tracked (ih (step_open moved open')) moved open'

theorem step_distinct (distinct : (Table.keys c.inFlight).Nodup) (moved : c.step action = some after) :
    (Table.keys after.inFlight).Nodup := by
  have flight := step_flight moved
  generalize after.inFlight = table at flight
  cases flight with
  | kept => exact distinct
  | emptied _ => exact List.nodup_nil
  | entered _ => exact Table.distinct_put _ _ distinct
  | left _ _ _ => exact Table.distinct_erase _ distinct

theorem runs_distinct {config : Config} {served called : Registry} {handlers : List (String × MethodKind)}
    (runs : Runs (initial config served called handlers) actions c) : (Table.keys c.inFlight).Nodup := by
  induction runs with
  | nil => exact List.nodup_nil
  | snoc _ moved ih => exact step_distinct ih moved

-- What makes the connection give the cancellation signal of a request under this id.
inductive Signalled (c : Connection) (action : Action) (after : Connection) (id : RequestId) : Prop where
  | notice {body m} : action = .readNext → c.decoder.next.1 = some (.body body) →
      c.contract.decode c.correlator.pendingMethod body = .ok (.notification m) →
      c.served.isCancelMethod m.method = true → cancelledId? m = some id → Signalled c action after id
  | reused {body r} : action = .readNext → c.decoder.next.1 = some (.body body) →
      c.contract.decode c.correlator.pendingMethod body = .ok (.request r) → r.id = id → Signalled c action after id
  | closed : c.phase ≠ .closed → after.phase = .closed → Signalled c action after id

-- Only what stands in the table is ever signalled, unless a handler signals itself.
theorem Task.Turn.signalled (turn : Task.Turn c action after n t t') (tracked : Tracked c)
    (distinct : (Table.keys c.inFlight).Nodup) (found : c.tasks[n]? = some t) (before : t.cancelled = false)
    (now : t'.cancelled = true) (foreign : action ≠ .signalOwn n) :
    c.inFlight.lookup t.request.id = some n ∧ Signalled c action after t.request.id := by
  cases turn with
  | kept => cases before.symm.trans now
  | polled => cases before.symm.trans now
  | own signals => exact absurd signals foreign
  | closed opened gone entered =>
    obtain ⟨⟨id, _⟩, entry, rfl⟩ := List.mem_map.mp entered
    have listed := Table.lookup_of_mem distinct entry
    have named := tracked.id_eq listed found
    exact ⟨named ▸ listed, .closed opened gone⟩
  | notice reads next decoded cancels asked listed =>
    have named := tracked.id_eq listed found
    exact ⟨named ▸ listed, .notice reads next decoded cancels (named ▸ asked)⟩
  | reused reads next decoded listed =>
    have named := tracked.id_eq listed found
    exact ⟨named ▸ listed, .reused reads next decoded named.symm⟩

-- While a connection is open, its table of requests in flight holds the last request under
-- each id until that one ends, and through it alone are requests cancelled.
theorem inFlight_holds_latest (reachable : Reachable c) (open' : c.phase ≠ .closed) :
    (∀ id n, c.inFlight.lookup id = some n ↔ Latest c id n ∧ Unfinished c n) ∧
    (∀ n handler after id m, c.step (.pollTask n handler) = some after → c.inFlight.lookup id = some m → m ≠ n →
      after.inFlight.lookup id = some m) ∧
    (∀ action after n t t', c.step action = some after → c.tasks[n]? = some t → after.tasks[n]? = some t' →
      t.cancelled = false → t'.cancelled = true → action ≠ .signalOwn n →
      Latest c t.request.id n ∧ Unfinished c n ∧ Signalled c action after t.request.id) := by
  obtain ⟨runs⟩ := reachable
  have tracked := runs_tracked runs open'
  refine ⟨tracked, ?_, ?_⟩
  · intro n handler after id m moved listed other
    obtain ⟨t, found, _⟩ := pollTask_task moved
    rw [poll_inFlight moved found, if_neg]
    · exact listed
    · rintro ⟨_, mine, rfl⟩
      exact other (Option.some.inj (listed.symm.trans mine))
  · intro action after n t t' moved found found' before now foreign
    obtain ⟨t'', found'', turn⟩ := step_task moved found
    obtain rfl : t'' = t' := Option.some.inj (found''.symm.trans found')
    obtain ⟨listed, cause⟩ := turn.signalled tracked (runs_distinct runs) found before now foreign
    obtain ⟨latest, unfinished⟩ := (tracked _ n).mp listed
    exact ⟨latest, unfinished, cause⟩

-- An id is used again while the first request under it still waits, and then the first ends.
theorem inFlight_holds_latest_reused :
    ∃ c after, Reachable c ∧ c.phase ≠ .closed ∧ c.tasks.map (·.cancelled) = [true, false] ∧ Latest c (.number 7) 1 ∧
      c.step (.pollTask 0 none) = some after ∧ after.inFlight.lookup (.number 7) = some 1 := by
  -- The body is a request object with method "m" and id 7.
  let body : List UInt8 := [123, 34, 109, 101, 116, 104, 111, 100, 34, 58, 34, 109, 34, 44, 34, 105, 100, 34, 58, 55, 125]
  let frame := Framing.encode none body
  let actions : List Action := [.start, .receive (frame ++ frame), .readNext, .readNext]
  have started : ((initial {} {} {} []).runAll actions).isSome := by decide +kernel
  obtain ⟨c, run⟩ := Option.isSome_iff_exists.mp started
  have seen : ((initial {} {} {} []).runAll actions).map (fun c =>
      (c.phase, c.tasks.map (·.cancelled), c.inFlight, (c.step (.pollTask 0 none)).isSome)) =
        some (.listening, [true, false], [(.number 7, 1)], true) := by decide +kernel
  simp only [run, Option.map_some, Option.some.injEq, Prod.mk.injEq] at seen
  obtain ⟨listening, signals, table, polls⟩ := seen
  obtain ⟨after, moved⟩ := Option.isSome_iff_exists.mp polls
  have reachable : Reachable c := .intro (runs_of_runAll run)
  have open' : c.phase ≠ .closed := by simp [listening]
  have listed : c.inFlight.lookup (.number 7) = some 1 := by simp [table]
  obtain ⟨latest, stays, _⟩ := inFlight_holds_latest reachable open'
  exact ⟨c, after, reachable, open', signals, ((latest _ 1).mp listed).1, moved, stays 0 none after _ 1 moved listed (by decide)⟩

end DuplexRpc.Connection
