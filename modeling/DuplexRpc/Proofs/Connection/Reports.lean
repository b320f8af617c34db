import DuplexRpc.Proofs.Connection.Requests

namespace DuplexRpc

-- An answer is an issue if it answers neither a pending call nor one cancelled here.
theorem Correlator.resolve_issue (c : Correlator) (id : RequestId) (reply : Reply) :
    (c.resolve id reply).1 =
      if c.pending.lookup id = none ∧ id ∉ c.cancelled then some (unmatched id) else none := by
  cases pending : c.pending.lookup id with
  | some entry => simp [resolve, pending]
  | none => by_cases late : id ∈ c.cancelled <;> simp [resolve, pending, late]

namespace Connection
variable {c before after origin : Connection} {action : Action} {actions more : List Action} {item : Framing.Item}

def Event.item? : Event → Option Framing.Item
  | .took item => some item
  | _ => none

def Event.issue? : Event → Option Issue
  | .reported issue => some issue
  | _ => none

-- The items taken from the stream, and the issues that were reported.
def taken (c : Connection) : List Framing.Item := c.log.filterMap Event.item?
def reported (c : Connection) : List Issue := c.log.filterMap Event.issue?

-- What there is to object to an item that is read in this state.
def objection? (c : Connection) : Framing.Item → Option Issue
  | .fault fault => some (.make .parseError fault.message)
  | .body body =>
    match c.contract.decode c.correlator.pendingMethod body with
    | .error issue => some issue
    | .ok (.request _) => none
    | .ok (.notification n) =>
      if c.served.isCancelMethod n.method ∧ cancelledId? n = none then some (badCancel n) else none
    | .ok (.response ⟨none, reply⟩) => some (withoutId reply)
    | .ok (.response ⟨some id, _⟩) =>
      if c.correlator.pending.lookup id = none ∧ id ∉ c.correlator.cancelled then some (Correlator.unmatched id)
      else none

-- The item that an action reads, with the state it is read in.
def reading? (c : Connection) : Action → Option (Connection × Framing.Item)
  | .readNext => c.decoder.next.1.map fun item => (c, item)
  | _ => none

-- All items that a run reads, in order.
def readings (c : Connection) : List Action → List (Connection × Framing.Item)
  | [] => []
  | action :: rest => (c.reading? action).toList ++ match c.step action with
    | some after => after.readings rest
    | none => []

theorem reading?_some (read : c.reading? action = some (before, item)) :
    action = .readNext ∧ before = c ∧ c.decoder.next.1 = some item := by
  cases action with
  | readNext =>
    obtain ⟨_, next, same⟩ := Option.map_eq_some_iff.mp read
    obtain ⟨rfl, rfl⟩ := Prod.mk.inj same
    exact ⟨rfl, rfl, next⟩
  | _ => cases read

theorem bodyEvents_issues (c : Connection) (body : List UInt8) :
    (c.bodyEvents body).filterMap Event.issue? = (c.objection? (.body body)).toList := by
  simp only [bodyEvents, objection?]
  rcases c.contract.decode c.correlator.pendingMethod body with issue | r | n | ⟨_ | id, reply⟩
  · simp only [faultEvents, handing]
    repeat' split
    all_goals rfl
  · rfl
  · cases cancels : c.served.isCancelMethod n.method <;> cases named : cancelledId? n <;>
      simp [cancels, named, Event.issue?]
  · rfl
  · simp only [Correlator.resolve_issue]
    split <;> rfl

theorem itemEvents_issues (c : Connection) (item : Framing.Item) :
    (c.itemEvents item).filterMap Event.issue? = (c.objection? item).toList := by
  cases item with
  | fault fault => rfl
  | body body => exact bodyEvents_issues c body

theorem itemEvents_items (c : Connection) (item : Framing.Item) :
    (c.itemEvents item).filterMap Event.item? = [item] := by
  cases item with
  | fault fault => rfl
  | body body =>
    have quiet := bodyEvents_quiet Event.item? (fun _ => rfl) (fun _ => rfl) c body
    simp only [itemEvents, List.filterMap_cons, Event.item?, quiet]

-- Nothing is taken from the stream or reported but by reading.
theorem events_idle {β : Type} (f : Event → Option β) (handed : ∀ r, f (.handed r) = none)
    (invoked : ∀ n, f (.invoked n) = none) (dispatched : ∀ n, f (.dispatched n) = none) (ended : f .noteEnded = none)
    (wrote : ∀ m octets, f (.wrote m octets) = none) (elsewhere : action ≠ .readNext) :
    (c.events action).filterMap f = [] := by
  cases action with
  | readNext => exact absurd rfl elsewhere
  | takeNote => cases queued : c.notes <;> simp [events, queued, dispatched]
  | endNote => simp [events, ended]
  | pollTask task handler => exact pollEvents_quiet f invoked handed ..
  | write => simp only [events]; split <;> simp [wrote]
  | _ => rfl

theorem events_issues (c : Connection) (action : Action) :
    (c.events action).filterMap Event.issue? =
      (c.reading? action).toList.filterMap fun reading => reading.1.objection? reading.2 := by
  by_cases reads : action = .readNext
  · subst reads
    simp only [events, reading?]
    cases c.decoder.next.1 with
    | none => rfl
    | some item =>
      refine (itemEvents_issues c item).trans ?_
      cases objects : c.objection? item <;> simp [objects]
  · rw [events_idle Event.issue? (fun _ => rfl) (fun _ => rfl) (fun _ => rfl) rfl (fun _ _ => rfl) reads]
    cases action <;> first | rfl | exact absurd rfl reads

theorem events_items (c : Connection) (action : Action) :
    (c.events action).filterMap Event.item? = (c.reading? action).toList.map Prod.snd := by
  by_cases reads : action = .readNext
  · subst reads
    simp only [events, reading?]
    cases c.decoder.next.1 with
    | none => rfl
    | some item => exact itemEvents_items c item
  · rw [events_idle Event.item? (fun _ => rfl) (fun _ => rfl) (fun _ => rfl) rfl (fun _ _ => rfl) reads]
    cases action <;> first | rfl | exact absurd rfl reads

theorem runs_readings (runs : Runs origin actions c) (more : List Action) :
    origin.readings (actions ++ more) = origin.readings actions ++ c.readings more := by
  induction runs generalizing more with
  | nil => rfl
  | @snoc before after actions action _ moved ih =>
    rw [List.append_assoc, ih, ih [action]]
    simp [readings, moved]

theorem readings_snoc (runs : Runs origin actions c) (action : Action) :
    origin.readings (actions ++ [action]) = origin.readings actions ++ (c.reading? action).toList := by
  rw [runs_readings runs]
  cases moved : c.step action <;> simp [readings, moved]

-- Each item is read where the run has come to the state it is read in.
theorem readings_reached (runs : Runs origin actions c) (read : (before, item) ∈ origin.readings actions) :
    ∃ earlier later, actions = earlier ++ .readNext :: later ∧ Runs origin earlier before ∧
      before.decoder.next.1 = some item := by
  induction runs with
  | nil => cases read
  | @snoc middle after actions action prior moved ih =>
    rw [readings_snoc prior] at read
    rcases List.mem_append.mp read with old | new
    · obtain ⟨earlier, later, rfl, reached, next⟩ := ih old
      exact ⟨earlier, later ++ [action], by simp, reached, next⟩
    · obtain ⟨rfl, rfl, next⟩ := reading?_some (Option.mem_toList.mp new)
      exact ⟨actions, [], rfl, prior, next⟩

theorem runs_reported (runs : Runs origin actions c) : c.reported =
    origin.reported ++ (origin.readings actions).filterMap fun reading => reading.1.objection? reading.2 := by
  induction runs with
  | nil => exact (List.append_nil _).symm
  | snoc prior moved ih =>
    rw [reported, step_log moved, List.filterMap_append, events_issues, readings_snoc prior, List.filterMap_append,
      ← List.append_assoc, ← ih]
    rfl

theorem runs_taken (runs : Runs origin actions c) :
    c.taken = origin.taken ++ (origin.readings actions).map Prod.snd := by
  induction runs with
  | nil => exact (List.append_nil _).symm
  | snoc prior moved ih =>
    rw [taken, step_log moved, List.filterMap_append, events_items, readings_snoc prior, List.map_append,
      ← List.append_assoc, ← ih]
    rfl

-- What is reported is what there is to object to the items of the stream, each in the state
-- in which it is read: one issue for an item that is objected to, none for another, and none
-- that no item caused.
theorem issues_are_accounted_for {config : Config} {served called : Registry} {handlers : List (String × MethodKind)}
    (runs : Runs (initial config served called handlers) actions c) :
    let readings := (initial config served called handlers).readings actions
    c.taken = readings.map Prod.snd ∧
    c.reported = readings.filterMap (fun reading => reading.1.objection? reading.2) ∧
    ∀ before item, (before, item) ∈ readings →
      ∃ earlier later, actions = earlier ++ .readNext :: later ∧
        Runs (initial config served called handlers) earlier before ∧ before.decoder.next.1 = some item :=
  ⟨runs_taken runs, runs_reported runs, fun _ _ read => readings_reached runs read⟩

-- Five things to object to, one after another, and an answer that is in order.
theorem issues_are_accounted_for_each :
    ∃ (served called : Registry) (c : Connection) (actions : List Action),
      Runs (initial {} served called []) actions c ∧ c.taken.length = 6 ∧
      (((initial {} served called []).readings actions).filterMap fun reading =>
        (reading.1.objection? reading.2).map Issue.kind) =
          [.parseError, .parseError, .invalidRequest, .invalidRequest, .invalidParams] := by
  let served : Registry := Registry.declareCancellation {} ⟨"stop", 0⟩
  let called : Registry := { methods := [("m", ⟨"m", .request, .any, .any⟩)] }
  let bodies : List String := ["\x7b", "\x7b\"id\":null,\"error\":\x7b\"code\":1,\"message\":\"\"\x7d\x7d",
    "\x7b\"id\":5,\"result\":0\x7d", "\x7b\"method\":\"stop\"\x7d", "\x7b\"id\":1,\"result\":0\x7d"]
  let stream : List UInt8 := Utf8.encode "no colon\r\n\r\n".toList ++
    bodies.flatMap fun body => Framing.encode none (Utf8.encode body.toList)
  let actions : List Action := .start :: .request "m" none :: .receive stream :: List.replicate 6 .readNext
  have started : ((initial {} served called []).runAll actions).isSome := by decide +kernel
  obtain ⟨c, run⟩ := Option.isSome_iff_exists.mp started
  have seen : ((initial {} served called []).runAll actions).map (fun c => (c.taken.length, c.reported.map Issue.kind)) =
      some (6, [.parseError, .parseError, .invalidRequest, .invalidRequest, .invalidParams]) := by decide +kernel
  simp only [run, Option.map_some, Option.some.injEq, Prod.mk.injEq] at seen
  obtain ⟨six, kinds⟩ := seen
  have runs := runs_of_runAll run
  obtain ⟨_, reported, _⟩ := issues_are_accounted_for runs
  refine ⟨served, called, c, actions, runs, six, ?_⟩
  rw [← kinds, reported, List.map_filterMap]

end Connection
end DuplexRpc
