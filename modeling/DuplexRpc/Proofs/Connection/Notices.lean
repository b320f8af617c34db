import DuplexRpc.Proofs.Connection.Requests

namespace DuplexRpc

namespace Contract
variable {k : Contract} {pending other : RequestId → Option String} {body : List UInt8}

-- The notification that a frame brings for a handler. The one that cancels is not for them.
def notice? (k : Contract) (body : List UInt8) : Option Notification :=
  match k.decode (fun _ => none) body with
  | .ok (.notification n) => if k.served.isCancelMethod n.method then none else some n
  | _ => none

-- A notification is read in the same way whichever of our requests are pending.
theorem decode_notification_congr {n : Notification} (decoded : k.decode pending body = .ok (.notification n)) :
    k.decode other body = .ok (.notification n) := by
  obtain ⟨members, parses, read⟩ := decode_ok decoded
  have calls : Envelope.has members "method" = true := by
    cases calls : Envelope.has members "method" with
    | true => rfl
    | false =>
      obtain ⟨_, _, same⟩ := decodeResponse_ok (decodeMembers_response calls read)
      cases same
  have same : k.decodeMembers other members = k.decodeMembers pending members := by
    simp only [decodeMembers, calls, if_true]
  rw [decode_of_object parses, same, read]

theorem notice?_eq (k : Contract) (pending : RequestId → Option String) (body : List UInt8) :
    k.notice? body = match k.decode pending body with
      | .ok (.notification n) => if k.served.isCancelMethod n.method then none else some n
      | _ => none := by
  unfold notice?
  split
  · rename_i n decoded
    rw [decode_notification_congr decoded]
  · rename_i other
    split
    · rename_i n decoded
      exact absurd (decode_notification_congr decoded) (other n)
    · rfl

end Contract

namespace Connection
variable {c after : Connection} {action : Action} {actions : List Action} {body : List UInt8}

def Event.note? : Event → Option Notification
  | .dispatched n => some n
  | _ => none

-- What the worker does: a handler is begun, and it ends.
def Event.work? : Event → Option Event
  | .dispatched n => some (.dispatched n)
  | .noteEnded => some .noteEnded
  | _ => none

-- The notifications that came, in the order of their frames.
def notified (c : Connection) : List Notification := c.frames.filterMap c.contract.notice?

-- Those passed to the dispatcher, in that order.
def dispatched (c : Connection) : List Notification := c.log.filterMap Event.note?

def work (c : Connection) : List Event := c.log.filterMap Event.work?

-- Each notification begun and ended before the next.
def turns (notes : List Notification) : List Event :=
  notes.flatMap fun n => [.dispatched n, .noteEnded]

def arriving (c : Connection) (action : Action) : List Notification :=
  (c.frame? action).toList.filterMap c.contract.notice?

-- What a step does to the notifications on their way: which come, and what the worker does.
inductive Passing (c after : Connection) : List Notification → List Event → Prop where
  | idle : after.notes = c.notes → after.held = c.held → after.running = c.running → Passing c after [] []
  | read {n} : c.held = none → after.notes = c.notes → after.held = some n → after.running = c.running →
      Passing c after [n] []
  | queued {n} : c.held = some n → c.notes.length < c.noteCapacity → after.notes = c.notes ++ [n] →
      after.held = none → after.running = c.running → Passing c after [] []
  | taken {n rest} : c.notes = n :: rest → c.running = none → after.notes = rest → after.held = c.held →
      after.running = some n → Passing c after [] [.dispatched n]
  | ended {n} : c.running = some n → after.notes = c.notes → after.held = c.held → after.running = none →
      Passing c after [] [.noteEnded]

theorem dispatched_eq (c : Connection) : c.dispatched = c.work.filterMap Event.note? := by
  rw [dispatched, work, List.filterMap_filterMap]
  refine List.filterMap_congr fun event _ => ?_
  cases event <;> rfl

theorem Passing.rebase {base : Connection} {new : List Notification} {work : List Event}
    (passing : Passing base after new work) (notes : base.notes = c.notes) (held : base.held = c.held)
    (running : base.running = c.running) (config : base.config = c.config) : Passing c after new work := by
  cases passing with
  | idle notes' held' running' => exact .idle (notes'.trans notes) (held'.trans held) (running'.trans running)
  | read free notes' held' running' =>
    exact .read (held.symm.trans free) (notes'.trans notes) held' (running'.trans running)
  | queued held' room notes' free running' =>
    simp only [noteCapacity, notes, config] at room notes'
    exact .queued (held.symm.trans held') room notes' free (running'.trans running)
  | taken notes' idle rest held' running' =>
    exact .taken (notes.symm.trans notes') (running.symm.trans idle) rest (held'.trans held) running'
  | ended running' notes' held' idle =>
    exact .ended (running.symm.trans running') (notes'.trans notes) (held'.trans held) idle

-- A frame is held back for the queue if it is a notification for a handler.
theorem takeBody_passing (free : c.held = none) (body : List UInt8) :
    Passing c (c.takeBody body) (c.contract.notice? body).toList [] := by
  rw [Contract.notice?_eq c.contract c.correlator.pendingMethod]
  rcases c.takeBody_cases body with ⟨issue, decoded, same⟩ | ⟨r, decoded, same⟩ | ⟨n, decoded, cancels, same⟩ |
    ⟨n, decoded, plain, same⟩ | ⟨r, decoded, same⟩ <;> rw [same, decoded] <;> dsimp only
  · rcases c.takeFault_cases body issue with ⟨_, _, _, same⟩ | ⟨_, _, _, same⟩ | ⟨_, same⟩ <;> rw [same]
    · rw [handOver_fields]
      exact .idle rfl rfl rfl
    · exact .idle rfl rfl rfl
    · exact .idle rfl rfl rfl
  · unfold takeRequest
    split <;> exact .idle rfl rfl rfl
  · change Passing c _ (if c.served.isCancelMethod n.method then none else some n).toList []
    rw [if_pos cancels]
    unfold takeCancel
    repeat' split
    all_goals exact .idle rfl rfl rfl
  · change Passing c _ (if c.served.isCancelMethod n.method then none else some n).toList []
    rw [if_neg (by simp [plain])]
    exact .read free rfl rfl rfl
  · unfold takeResponse
    repeat' split
    all_goals exact .idle rfl rfl rfl

theorem arriving_body (frame : c.decoder.next.1 = some (.body body)) :
    c.arriving .readNext = (c.contract.notice? body).toList := by
  simp only [arriving, frame?, frame]
  cases named : c.contract.notice? body <;> simp [named]

theorem events_work (resting : action ≠ .takeNote) (running : action ≠ .endNote) :
    (c.events action).filterMap Event.work? = [] := by
  cases action with
  | takeNote => exact absurd rfl resting
  | endNote => exact absurd rfl running
  | readNext =>
    simp only [events]
    split
    · exact itemEvents_quiet Event.work? (fun _ => rfl) (fun _ => rfl) (fun _ => rfl) ..
    · rfl
  | pollTask task handler => exact pollEvents_quiet Event.work? (fun _ => rfl) (fun _ => rfl) ..
  | write => simp only [events]; split <;> rfl
  | _ => rfl

theorem step_passing (moved : c.step action = some after) :
    Passing c after (c.arriving action) ((c.events action).filterMap Event.work?) := by
  cases action with
  | readNext =>
    rw [events_work (by simp) (by simp)]
    obtain ⟨_, free, item, decoder, next, rfl⟩ := readNext_cases moved
    cases item with
    | fault fault =>
      simp only [arriving, frame?, next]
      rw [takeItem_fault]
      dsimp only
      split
      · rw [close_fields]
        exact .idle rfl rfl rfl
      · exact .idle rfl rfl rfl
    | body body =>
      rw [arriving_body (by rw [next]), takeItem_body]
      refine Passing.rebase (takeBody_passing ?_ body) rfl rfl rfl rfl
      exact free
  | queueHeld =>
    obtain ⟨n, held, _, room, rfl⟩ := queueHeld_cases moved
    exact .queued held room rfl rfl rfl
  | takeNote =>
    obtain ⟨n, rest, queued, _, idle, rfl⟩ := takeNote_cases moved
    simp only [events, queued]
    exact .taken queued idle rfl rfl rfl
  | endNote =>
    obtain ⟨n, running, rfl⟩ := endNote_cases moved
    exact .ended running rfl rfl rfl
  | _ =>
    rw [events_work (by simp) (by simp)]
    have footprint := step_footprint moved
    exact .idle ((congrArg notes footprint).trans rfl) ((congrArg held footprint).trans rfl)
      ((congrArg running footprint).trans rfl)

theorem step_notified (moved : c.step action = some after) : after.notified = c.notified ++ c.arriving action := by
  rw [notified, step_frames moved, (step_forward moved).contract, List.filterMap_append]
  rfl

theorem step_work (moved : c.step action = some after) :
    after.work = c.work ++ (c.events action).filterMap Event.work? := by
  rw [work, step_log moved, List.filterMap_append]
  rfl

-- Nothing is lost, doubled or overtaken between the stream and the handlers.
structure Orderly (c : Connection) : Prop where
  order : c.dispatched ++ (c.notes ++ c.held.toList) = c.notified
  room : c.notes.length ≤ c.noteCapacity
  -- Only the end of the handler that runs is still to come.
  turns : c.work ++ c.running.toList.map (fun _ => Event.noteEnded) = turns c.dispatched
  latest : ∀ n, c.running = some n → c.dispatched.getLast? = some n

theorem initial_orderly (config : Config) (served called : Registry) (handlers : List (String × MethodKind)) :
    Orderly (initial config served called handlers) :=
  ⟨rfl, Nat.zero_le _, rfl, nofun⟩

theorem step_orderly (orderly : Orderly c) (moved : c.step action = some after) : Orderly after := by
  obtain ⟨order, room, turns, latest⟩ := orderly
  have passing := step_passing moved
  have notified := step_notified moved
  have work := step_work moved
  have capacity : after.noteCapacity = c.noteCapacity := by rw [noteCapacity, (step_forward moved).config]; rfl
  generalize c.arriving action = new at passing notified
  generalize (c.events action).filterMap Event.work? = done at passing work
  have dispatched : after.dispatched = c.dispatched ++ done.filterMap Event.note? := by
    rw [dispatched_eq, work, List.filterMap_append, ← dispatched_eq]
  cases passing with
  | idle notes held running =>
    simp only [List.append_nil, List.filterMap_nil] at notified work dispatched
    exact ⟨by rw [dispatched, notes, held, notified, order], by rw [notes, capacity]; exact room,
      by rw [work, running, dispatched, turns], by rw [running, dispatched]; exact latest⟩
  | @read n free notes held running =>
    simp only [List.append_nil, List.filterMap_nil] at work dispatched
    refine ⟨?_, by rw [notes, capacity]; exact room, by rw [work, running, dispatched, turns],
      by rw [running, dispatched]; exact latest⟩
    rw [dispatched, notes, held, notified, ← order, free]
    simp
  | @queued n held free notes none' running =>
    simp only [List.append_nil, List.filterMap_nil] at notified work dispatched
    refine ⟨?_, ?_, by rw [work, running, dispatched, turns], by rw [running, dispatched]; exact latest⟩
    · rw [dispatched, notes, none', notified, ← order, held]
      simp
    · rw [notes, capacity, List.length_append]
      exact free
  | @taken n rest queued idle notes held running =>
    simp only [List.append_nil, List.filterMap_cons, List.filterMap_nil, Event.note?] at notified dispatched
    refine ⟨?_, ?_, ?_, ?_⟩
    · rw [dispatched, notes, held, notified, ← order, queued]
      simp
    · rw [queued, List.length_cons] at room
      rw [notes, capacity]
      omega
    · rw [idle] at turns
      simp only [Option.toList_none, List.map_nil, List.append_nil] at turns
      simp [work, running, dispatched, turns, Connection.turns]
    · rw [running, dispatched]
      simp
  | @ended n running notes held idle =>
    simp only [List.append_nil, List.filterMap_cons, List.filterMap_nil, Event.note?] at notified dispatched
    refine ⟨by rw [dispatched, notes, held, notified, order], by rw [notes, capacity]; exact room, ?_, ?_⟩
    · rw [running] at turns
      rw [work, idle, dispatched, ← turns]
      simp
    · rw [idle]
      nofun

theorem runs_orderly {config : Config} {served called : Registry} {handlers : List (String × MethodKind)}
    (runs : Runs (initial config served called handlers) actions c) : Orderly c := by
  induction runs with
  | nil => exact initial_orderly ..
  | snoc _ moved ih => exact step_orderly ih moved

-- While the read loop holds a notification it reads nothing.
theorem held_stops_reading {n : Notification} (held : c.held = some n) :
    c.step .readNext = none ∧ (∀ chunk, c.step (.receive chunk) = none) ∧ c.step .readEnd = none := by
  simp [step, readNext, receive, readEnd, held]

-- Handlers are told of the peer's notifications one after another and in the order in which
-- these came. What they were not told of yet is queued, but for one that waits for room in the
-- queue, and nothing is read until that one has it.
theorem notifications_keep_their_order {config : Config} {served called : Registry} {handlers : List (String × MethodKind)}
    (runs : Runs (initial config served called handlers) actions c) :
    c.dispatched <+: c.notified ∧
    (c.work ++ c.running.toList.map (fun _ => Event.noteEnded) = turns c.dispatched ∧
      ∀ n, c.running = some n → c.dispatched.getLast? = some n) ∧
    (c.phase ≠ .closed → c.dispatched ++ (c.notes ++ c.held.toList) = c.notified) ∧
    c.notes.length ≤ max config.notificationQueueCapacity.toNat 1 ∧
    (∀ n, c.held = some n →
      c.step .readNext = none ∧ (∀ chunk, c.step (.receive chunk) = none) ∧ c.step .readEnd = none) ∧
    (∀ after body, c.step .readNext = some after → c.decoder.next.1 = some (.body body) →
      after.notified = c.notified ++ (match c.contract.decode c.correlator.pendingMethod body with
        | .ok (.notification n) => if c.served.isCancelMethod n.method then none else some n
        | _ => none).toList) := by
  have orderly := runs_orderly runs
  refine ⟨⟨_, orderly.order⟩, ⟨orderly.turns, orderly.latest⟩, fun _ => orderly.order, ?_,
    fun n held => held_stops_reading held, ?_⟩
  · have room := orderly.room
    rw [noteCapacity, (runs_forward runs).config] at room
    exact room
  · intro after body moved frame
    rw [step_notified moved, arriving_body frame, Contract.notice?_eq c.contract c.correlator.pendingMethod]
    rfl

-- A queue of no capacity takes one notification, so of three the first runs, the second is
-- queued and the third held.
theorem notifications_keep_their_order_full :
    ∃ (c : Connection) (actions : List Action), Runs (initial { notificationQueueCapacity := 0 } {} {} []) actions c ∧
      c.running = some ⟨"a", none⟩ ∧ c.notes = [⟨"b", none⟩] ∧ c.held = some ⟨"c", none⟩ ∧
      c.notified = [⟨"a", none⟩, ⟨"b", none⟩, ⟨"c", none⟩] ∧ c.step .readNext = none := by
  -- The bodies are objects with a method alone.
  let body (method : UInt8) : List UInt8 := [123, 34, 109, 101, 116, 104, 111, 100, 34, 58, 34, method, 34, 125]
  let actions : List Action :=
    [.start, .receive ([97, 98, 99].flatMap fun method => Framing.encode none (body method)),
      .readNext, .queueHeld, .takeNote, .readNext, .queueHeld, .readNext]
  have started : ((initial { notificationQueueCapacity := 0 } {} {} []).runAll actions).isSome := by decide +kernel
  obtain ⟨c, run⟩ := Option.isSome_iff_exists.mp started
  have seen : ((initial { notificationQueueCapacity := 0 } {} {} []).runAll actions).map (fun c =>
      (c.phase, c.dispatched, c.running, c.notes, c.held)) =
        some (.listening, [⟨"a", none⟩], some ⟨"a", none⟩, [⟨"b", none⟩], some ⟨"c", none⟩) := by decide +kernel
  simp only [run, Option.map_some, Option.some.injEq, Prod.mk.injEq] at seen
  obtain ⟨listening, dispatched, running, queued, held⟩ := seen
  have runs := runs_of_runAll run
  obtain ⟨_, _, order, _, waits, _⟩ := notifications_keep_their_order runs
  refine ⟨c, actions, runs, running, queued, held, ?_, (waits _ held).1⟩
  rw [← order (by simp [listening]), dispatched, queued, held]
  rfl

end Connection
end DuplexRpc
