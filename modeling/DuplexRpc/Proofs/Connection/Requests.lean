import DuplexRpc.Proofs.Connection.Phases
import DuplexRpc.Proofs.Connection.Moves
import DuplexRpc.Proofs.Contract

namespace DuplexRpc.Connection
open Envelope (claim?)
variable {c after : Connection} {action : Action} {body : List UInt8} {id : RequestId} {n : Nat}

def Event.frame? : Event → Option (List UInt8)
  | .took (.body body) => some body
  | _ => none

def Event.response? : Event → Option Response
  | .handed r => some r
  | _ => none

-- The bodies that came, in the order of the stream.
def frames (c : Connection) : List (List UInt8) := c.log.filterMap Event.frame?

-- The responses handed over for writing, in that order.
def handed (c : Connection) : List Response := c.log.filterMap Event.response?

def frame? (c : Connection) : Action → Option (List UInt8)
  | .readNext => match c.decoder.next.1 with
    | some (.body body) => some body
    | _ => none
  | _ => none

-- The response that an action hands over.
def caused (c : Connection) : Action → Option Response
  | .readNext => match c.decoder.next.1 with
    | some (.body body) => match claim? body, c.contract.decode c.correlator.pendingMethod body with
      | some id, .error issue => some (rejection id issue)
      | _, _ => none
    | _ => none
  | .pollTask task handler => c.answered? task handler
  | _ => none

-- A frame that did not decode is answered exactly if it says that it wants an answer.
theorem claim?_iff_routed {k : Contract} {pending : RequestId → Option String} {issue : Issue}
    (failed : k.decode pending body = .error issue) :
    claim? body = some id ↔ issue.id = some id ∧ Envelope.kindOf? body = some .request := by
  constructor
  · intro claims
    obtain ⟨members, parses, calls, named⟩ := Envelope.claim?_some claims
    refine ⟨(Contract.decode_error_id parses failed).trans named, ?_⟩
    simp [Envelope.kindOf?_of_object parses, Envelope.kind, calls, Envelope.has_of_id named]
  · rintro ⟨carried, routed⟩
    unfold Envelope.kindOf? at routed
    split at routed
    · rename_i members parses
      have calls : Envelope.has members "method" = true := by
        cases calls : Envelope.has members "method" with
        | true => rfl
        | false => simp [Envelope.kind, calls] at routed
      simp [claim?, parses, calls, ← Contract.decode_error_id parses failed, carried]
    · cases routed

-- What claims an answer and decodes is a request under the id it claims.
theorem claim?_iff_request {k : Contract} {pending : RequestId → Option String} {m : Message}
    (decoded : k.decode pending body = .ok m) : claim? body = some id ↔ ∃ r, m = .request r ∧ r.id = id := by
  obtain ⟨members, parses, read⟩ := Contract.decode_ok decoded
  cases calls : Envelope.has members "method" with
  | false =>
    obtain ⟨reply, _, rfl⟩ := Contract.decodeResponse_ok (Contract.decodeMembers_response calls read)
    simp [claim?, parses, calls]
  | true =>
    obtain ⟨method, params, _, _, ⟨id', named, rfl⟩ | ⟨absent, rfl⟩⟩ :=
      Contract.decodeCall_ok (Contract.decodeMembers_call calls read)
    · simp [claim?, parses, calls, named]
    · simp [claim?, parses, calls, Envelope.id?, absent]

-- What a body adds to the log tells only of issues and answers.
theorem bodyEvents_quiet {β : Type} (f : Event → Option β) (reported : ∀ issue, f (.reported issue) = none)
    (handed : ∀ r, f (.handed r) = none) (c : Connection) (body : List UInt8) :
    (c.bodyEvents body).filterMap f = [] := by
  unfold bodyEvents
  split
  · unfold faultEvents handing
    repeat' split
    all_goals simp [reported, handed]
  · rfl
  · repeat' split
    all_goals simp [reported]
  · simp [reported]
  · apply List.filterMap_eq_nil_iff.mpr
    intro event present
    obtain ⟨issue, _, rfl⟩ := List.mem_map.mp present
    exact reported issue

theorem itemEvents_quiet {β : Type} (f : Event → Option β) (took : ∀ item, f (.took item) = none)
    (reported : ∀ issue, f (.reported issue) = none) (handed : ∀ r, f (.handed r) = none) (c : Connection)
    (item : Framing.Item) : (c.itemEvents item).filterMap f = [] := by
  cases item with
  | fault fault => simp [itemEvents, took, reported]
  | body body => rw [itemEvents, List.filterMap_cons, took, bodyEvents_quiet f reported handed]

theorem pollEvents_quiet {β : Type} (f : Event → Option β) (invoked : ∀ n, f (.invoked n) = none)
    (handed : ∀ r, f (.handed r) = none) (c : Connection) (task : Nat) (handler : Option Outcome) :
    (c.pollEvents task handler).filterMap f = [] := by
  unfold pollEvents
  split
  · split <;> rename_i t _ _ <;> cases c.dispatcher.poll t.request t.cancelled handler <;>
      cases alive : c.correlator.outbound.receiving <;> simp [handing, alive, invoked, handed]
  · rfl

theorem events_frames (c : Connection) (action : Action) :
    (c.events action).filterMap Event.frame? = (c.frame? action).toList := by
  cases action with
  | readNext =>
    simp only [events, frame?]
    rcases c.decoder.next.1 with _ | body | fault
    · rfl
    · have quiet := bodyEvents_quiet Event.frame? (fun _ => rfl) (fun _ => rfl) c body
      simp only [itemEvents, List.filterMap_cons, Event.frame?, quiet]
      rfl
    · rfl
  | takeNote => cases queued : c.notes <;> simp [events, queued, frame?, Event.frame?]
  | pollTask task handler => exact pollEvents_quiet Event.frame? (fun _ => rfl) (fun _ => rfl) ..
  | write => simp only [events, frame?]; split <;> rfl
  | _ => rfl

theorem bodyEvents_handed (alive : c.correlator.outbound.receiving = true) (body : List UInt8) :
    (c.bodyEvents body).filterMap Event.response? =
      (match claim? body, c.contract.decode c.correlator.pendingMethod body with
        | some id, .error issue => some (rejection id issue)
        | _, _ => none).toList := by
  unfold bodyEvents
  cases decoded : c.contract.decode c.correlator.pendingMethod body with
  | error issue =>
    cases claims : claim? body with
    | some id =>
      obtain ⟨carried, routed⟩ := (claim?_iff_routed decoded).mp claims
      simp only [faultEvents, carried, routed, handing, alive, if_true]
      rfl
    | none =>
      simp only [faultEvents]
      split
      · rename_i id carried routed
        cases claims.symm.trans ((claim?_iff_routed decoded).mpr ⟨carried, routed⟩)
      · rfl
  | ok m =>
    have none' : (match claim? body, (Except.ok m : Except Issue Message) with
        | some id, .error issue => some (rejection id issue)
        | _, _ => none) = none := by
      cases claim? body <;> rfl
    rw [none']
    rcases m with r | n | ⟨_ | id, reply⟩
    · rfl
    · dsimp only
      repeat' split
      all_goals simp [Event.response?]
    · rfl
    · apply List.filterMap_eq_nil_iff.mpr
      intro event present
      obtain ⟨issue, _, rfl⟩ := List.mem_map.mp present
      rfl

theorem events_handed (alive : c.correlator.outbound.receiving = true) (moved : c.step action = some after) :
    (c.events action).filterMap Event.response? = (c.caused action).toList := by
  cases action with
  | readNext =>
    simp only [events, caused]
    rcases c.decoder.next.1 with _ | body | fault
    · rfl
    · simp only [itemEvents, List.filterMap_cons, Event.response?]
      exact bodyEvents_handed alive body
    · rfl
  | takeNote => cases queued : c.notes <;> simp [events, queued, caused, Event.response?]
  | pollTask task handler =>
    obtain ⟨t, found, unanswered, _⟩ := pollTask_cases moved
    simp only [events, caused, pollEvents, answered?, found, unanswered]
    split <;> cases c.dispatcher.poll t.request t.cancelled handler <;> simp [handing, alive] <;> rfl
  | write => simp only [events, caused]; split <;> rfl
  | _ => rfl

theorem step_frames (moved : c.step action = some after) : after.frames = c.frames ++ (c.frame? action).toList := by
  rw [frames, step_log moved, List.filterMap_append, events_frames]
  rfl

theorem step_handed (alive : c.correlator.outbound.receiving = true) (moved : c.step action = some after) :
    after.handed = c.handed ++ (c.caused action).toList := by
  rw [handed, step_log moved, List.filterMap_append, events_handed alive moved]
  rfl

-- What became of a frame that claims an answer: refused at once, or a task.
inductive Fate where
  | rejected (issue : Issue)
  | task (n : Nat)

structure Entry where
  body : List UInt8
  id : RequestId
  fate : Fate

def Entry.task? (e : Entry) : Option Nat :=
  match e.fate with
  | .rejected _ => none
  | .task n => some n

-- The answer to a frame, once there is one.
def Entry.answer? (c : Connection) (e : Entry) : Option Response :=
  match e.fate with
  | .rejected issue => some (rejection e.id issue)
  | .task n => (c.tasks[n]?).bind (·.response)

def Entry.Decoded (c : Connection) (e : Entry) : Prop :=
  ∃ pending, match e.fate with
    | .rejected issue => c.contract.decode pending e.body = .error issue
    | .task n => ∃ t, c.tasks[n]? = some t ∧ t.request.id = e.id ∧
        c.contract.decode pending e.body = .ok (.request t.request)

-- One entry for every frame that claims an answer, in order, and one for every task; the
-- responses handed over are the answers of the entries.
structure Book (c : Connection) (book : List Entry) : Prop where
  frames : book.map Entry.body = c.frames.filter fun body => (claim? body).isSome
  ids : ∀ e ∈ book, claim? e.body = some e.id
  tasks : book.filterMap Entry.task? = List.range c.tasks.length
  decoded : ∀ e ∈ book, e.Decoded c
  answers : ∀ t ∈ c.tasks, ∀ r, t.response = some r → r.id = some t.request.id
  handed : c.handed.Perm (book.filterMap (Entry.answer? c))

theorem initial_book (config : Config) (served called : Registry) (handlers : List (String × MethodKind)) :
    Book (initial config served called handlers) [] :=
  ⟨rfl, by simp, rfl, by simp, by simp [initial], .nil⟩

theorem poll_id {d : Dispatcher} {r : Request} {cancelled : Bool} {handler : Option Outcome} {answer : Response}
    (answered : d.poll r cancelled handler = some answer) : answer.id = some r.id := by
  unfold Dispatcher.poll at answered
  split at answered
  · split at answered
    · cases answered
      rfl
    · obtain ⟨_, _, rfl⟩ := Option.map_eq_some_iff.mp answered
      rfl
  · cases answered
    rfl

-- One entry of the list gets an answer.
theorem filterMap_perm {α β : Type} {f g : α → Option β} {a : α} {b : β} {front back : List α} (new : f a = none)
    (now : g a = some b) (others : ∀ x ∈ front ++ back, g x = f x) :
    ((front ++ a :: back).filterMap f ++ [b]).Perm ((front ++ a :: back).filterMap g) := by
  have one : front.filterMap g = front.filterMap f :=
    List.filterMap_congr fun x present => others x (List.mem_append_left _ present)
  have two : back.filterMap g = back.filterMap f :=
    List.filterMap_congr fun x present => others x (List.mem_append_right _ present)
  simp only [List.filterMap_append, List.filterMap_cons, new, now, one, two, List.append_assoc]
  exact List.Perm.append_left _ (List.perm_append_singleton ..)

theorem Book.entry {book : List Entry} (booked : Book c book) (small : n < c.tasks.length) :
    ∃ front e back, book = front ++ e :: back ∧ e.fate = .task n ∧ ∀ x ∈ front ++ back, x.fate ≠ .task n := by
  have listed : n ∈ book.filterMap Entry.task? := booked.tasks ▸ List.mem_range.mpr small
  obtain ⟨e, present, named⟩ := List.mem_filterMap.mp listed
  obtain ⟨front, back, rfl⟩ := List.append_of_mem present
  have fate : e.fate = .task n := by
    unfold Entry.task? at named
    split at named
    · cases named
    · rename_i fate
      rw [fate, Option.some.inj named]
  refine ⟨front, e, back, rfl, fate, fun x elsewhere other => ?_⟩
  have distinct : (List.range c.tasks.length).Nodup := List.nodup_range
  rw [← booked.tasks, List.filterMap_append, List.filterMap_cons, named] at distinct
  have again : n ∈ front.filterMap Entry.task? ∨ n ∈ back.filterMap Entry.task? := by
    have mine : x.task? = some n := by simp [Entry.task?, other]
    rcases List.mem_append.mp elsewhere with before | behind
    · exact .inl (List.mem_filterMap.mpr ⟨x, before, mine⟩)
    · exact .inr (List.mem_filterMap.mpr ⟨x, behind, mine⟩)
  obtain ⟨_, later, apart⟩ := List.nodup_append.mp distinct
  rcases again with before | behind
  · exact apart n before n List.mem_cons_self rfl
  · exact (List.nodup_cons.mp later).1 behind

-- A task that is there stays, and gets an answer only by a poll of its own.
theorem step_answer {t : Task} (moved : c.step action = some after) (found : c.tasks[n]? = some t) :
    ∃ t', after.tasks[n]? = some t' ∧ t'.request = t.request ∧
      (t'.response = t.response ∨ ∃ handler r, action = .pollTask n handler ∧ c.caused action = some r ∧
        t.response = none ∧ t'.response = some r ∧ r.id = some t.request.id) := by
  obtain ⟨t', found', turn⟩ := step_task moved found
  refine ⟨t', found', turn.request, ?_⟩
  cases turn with
  | @polled handler polls unanswered =>
    subst polls
    cases answer : c.dispatcher.poll t.request t.cancelled handler with
    | none => exact .inl (answer.trans unanswered.symm)
    | some r =>
      refine .inr ⟨handler, r, rfl, ?_, unanswered, answer, poll_id answer⟩
      simp [caused, answered?, found, unanswered, answer]
  | _ => exact .inl rfl

theorem Entry.Decoded.step {e : Entry} (decoded : e.Decoded c) (moved : c.step action = some after) : e.Decoded after := by
  have forward := step_forward moved
  have same := forward.contract
  obtain ⟨pending, read⟩ := decoded
  refine ⟨pending, ?_⟩
  rw [same]
  cases fate : e.fate with
  | rejected issue => simpa only [fate] using read
  | task n =>
    simp only [fate] at read
    obtain ⟨t, found, named, read⟩ := read
    obtain ⟨t', found', request, _⟩ := step_answer moved found
    exact ⟨t', found', request ▸ named, request ▸ read⟩

theorem Entry.answer_kept {e : Entry} (decoded : e.Decoded c) (moved : c.step action = some after)
    (quiet : ∀ m handler, e.fate = .task m → action = .pollTask m handler → c.caused action = none) :
    e.answer? after = e.answer? c := by
  obtain ⟨_, read⟩ := decoded
  unfold answer?
  cases fate : e.fate with
  | rejected issue => rfl
  | task n =>
    simp only [fate] at read
    obtain ⟨t, found, _⟩ := read
    obtain ⟨t', found', _, same | ⟨handler, r, polls, handedOver, _⟩⟩ := step_answer moved found
    · simp [found, found', same]
    · cases (quiet n handler fate polls).symm.trans handedOver

theorem step_answers (moved : c.step action = some after)
    (answers : ∀ t ∈ c.tasks, ∀ r, t.response = some r → r.id = some t.request.id) :
    ∀ t ∈ after.tasks, ∀ r, t.response = some r → r.id = some t.request.id := by
  intro t' present r answered
  obtain ⟨n, found'⟩ := List.getElem?_of_mem present
  cases found : c.tasks[n]? with
  | none =>
    obtain ⟨_, _, fresh⟩ := step_new_task moved found' found
    rw [fresh] at answered
    cases answered
  | some t =>
    obtain ⟨t'', found'', request, same | ⟨_, r', _, _, _, now, named⟩⟩ := step_answer moved found
    all_goals
      obtain rfl : t'' = t' := Option.some.inj (found''.symm.trans found')
      rw [request]
    · exact answers t (List.mem_of_getElem? found) r (same ▸ answered)
    · obtain rfl : r' = r := Option.some.inj (now.symm.trans answered)
      exact named

-- An action that answers no task adds the entry, if any, of the frame it reads.
theorem Book.grow {book more : List Entry} (booked : Book c book) (alive : c.correlator.outbound.receiving = true)
    (moved : c.step action = some after) (quiet : ∀ m handler, action = .pollTask m handler → c.caused action = none)
    (frames : more.map Entry.body = (c.frame? action).toList.filter fun body => (claim? body).isSome)
    (ids : ∀ e ∈ more, claim? e.body = some e.id)
    (tasks : more.filterMap Entry.task? = (c.born? action).toList.map fun _ => c.tasks.length)
    (decoded : ∀ e ∈ more, e.Decoded after)
    (answer : more.filterMap (Entry.answer? after) = (c.caused action).toList) : Book after (book ++ more) := by
  refine ⟨?_, ?_, ?_, ?_, step_answers moved booked.answers, ?_⟩
  · rw [step_frames moved, List.map_append, List.filter_append, booked.frames, frames]
  · intro e present
    rcases List.mem_append.mp present with old | new
    · exact booked.ids e old
    · exact ids e new
  · rw [List.filterMap_append, booked.tasks, tasks, step_length moved]
    cases c.born? action with
    | none => simp
    | some r => exact List.range_succ.symm
  · intro e present
    rcases List.mem_append.mp present with old | new
    · exact (booked.decoded e old).step moved
    · exact decoded e new
  · rw [step_handed alive moved, List.filterMap_append, answer]
    have same : book.filterMap (Entry.answer? after) = book.filterMap (Entry.answer? c) :=
      List.filterMap_congr fun e present =>
        Entry.answer_kept (booked.decoded e present) moved fun m handler _ => quiet m handler
    rw [same]
    exact booked.handed.append_right _

theorem pollTask_answers {handler : Option Outcome} {r : Response} (moved : c.step (.pollTask n handler) = some after)
    (answered : c.caused (.pollTask n handler) = some r) :
    ∃ t t', c.tasks[n]? = some t ∧ t.response = none ∧ after.tasks[n]? = some t' ∧ t'.request = t.request ∧
      t'.response = some r := by
  obtain ⟨t, found, unanswered, tasks⟩ := pollTask_task moved
  have answer : c.dispatcher.poll t.request t.cancelled handler = some r := by
    simpa [caused, answered?, found, unanswered] using answered
  exact ⟨t, t.polled c handler, found, unanswered, (tasks n).trans (if_pos rfl), rfl, answer⟩

-- A poll that answers a task gives the answer to the entry of that task.
theorem Book.answer {book : List Entry} {handler : Option Outcome} {r : Response} (booked : Book c book)
    (alive : c.correlator.outbound.receiving = true) (moved : c.step (.pollTask n handler) = some after)
    (answered : c.caused (.pollTask n handler) = some r) : Book after book := by
  obtain ⟨t, t', found, unanswered, found', _, now⟩ := pollTask_answers moved answered
  obtain ⟨front, e, back, rfl, fate, others⟩ := booked.entry (List.getElem?_eq_some_iff.mp found).1
  refine ⟨?_, booked.ids, ?_, fun e present => (booked.decoded e present).step moved,
    step_answers moved booked.answers, ?_⟩
  · rw [step_frames moved, booked.frames]
    simp [frame?]
  · rw [booked.tasks, step_length moved]
    rfl
  · rw [step_handed alive moved, answered]
    refine (booked.handed.append_right _).trans (filterMap_perm ?_ ?_ fun x elsewhere => ?_)
    · simp [Entry.answer?, fate, found, unanswered]
    · simp [Entry.answer?, fate, found', now]
    · have present : x ∈ front ++ e :: back := by
        rcases List.mem_append.mp elsewhere with before | behind
        · exact List.mem_append_left _ before
        · exact List.mem_append_right _ (List.mem_cons_of_mem _ behind)
      apply Entry.answer_kept (booked.decoded x present) moved
      intro m handler' mine same
      obtain ⟨rfl, _⟩ := Action.pollTask.inj same
      exact absurd mine (others x elsewhere)

theorem step_book {book : List Entry} (booked : Book c book) (alive : c.correlator.outbound.receiving = true)
    (moved : c.step action = some after) : ∃ more, Book after (book ++ more) := by
  cases action with
  | readNext =>
    obtain ⟨_, _, item, decoder, next, _⟩ := readNext_cases moved
    have still : ∀ m handler, Action.readNext = .pollTask m handler → c.caused .readNext = none :=
      fun _ _ other => by cases other
    cases item with
    | fault fault =>
      exact ⟨[], booked.grow alive moved still (by simp [frame?, next]) (by simp) (by simp [born?, next]) (by simp)
        (by simp [caused, next])⟩
    | body body =>
      have frame : c.frame? .readNext = some body := by simp only [frame?, next]
      cases claims : claim? body with
      | none =>
        have nobody : c.born? .readNext = none := by
          cases born : c.born? .readNext with
          | none => rfl
          | some r =>
            obtain ⟨_, body', next', decoded⟩ := born?_some born
            obtain rfl : body = body' := by simpa [next] using next'
            cases claims.symm.trans ((claim?_iff_request decoded).mpr ⟨r, rfl, rfl⟩)
        exact ⟨[], booked.grow alive moved still (by simp [frame, claims]) (by simp) (by simp [nobody]) (by simp)
          (by simp [caused, next, claims])⟩
      | some id =>
        cases decoded : c.contract.decode c.correlator.pendingMethod body with
        | error issue =>
          have read : Entry.Decoded c ⟨body, id, .rejected issue⟩ := ⟨c.correlator.pendingMethod, decoded⟩
          refine ⟨[⟨body, id, .rejected issue⟩], booked.grow alive moved still ?_ ?_ ?_ ?_ ?_⟩
          · simp [frame, claims]
          · simpa using claims
          · simp [Entry.task?, born?, next, decoded]
          · simpa using read.step moved
          · simp [Entry.answer?, caused, next, claims, decoded]
        | ok m =>
          obtain ⟨r, rfl, named⟩ := (claim?_iff_request decoded).mp claims
          have born : c.born? .readNext = some r := by simp [born?, next, decoded]
          obtain ⟨t, found, fresh⟩ := step_born_task moved born
          have same : after.contract = c.contract := (step_forward moved).contract
          have read : Entry.Decoded after ⟨body, id, .task c.tasks.length⟩ :=
            ⟨c.correlator.pendingMethod, t, found, fresh ▸ named, by rw [same, fresh]; exact decoded⟩
          refine ⟨[⟨body, id, .task c.tasks.length⟩], booked.grow alive moved still ?_ ?_ ?_ ?_ ?_⟩
          · simp [frame, claims]
          · simpa using claims
          · simp [Entry.task?, born]
          · simpa using read
          · simp [Entry.answer?, found, fresh, caused, next, claims, decoded]
  | pollTask n handler =>
    cases handedOver : c.caused (.pollTask n handler) with
    | some r => exact ⟨[], (List.append_nil book).symm ▸ booked.answer alive moved handedOver⟩
    | none =>
      exact ⟨[], booked.grow alive moved (fun _ _ same => same ▸ handedOver) rfl (by simp) rfl (by simp)
        (by simp [handedOver])⟩
  | _ => exact ⟨[], booked.grow alive moved (fun _ _ other => by cases other) rfl (by simp) rfl (by simp) rfl⟩

theorem runs_book {config : Config} {served called : Registry} {handlers : List (String × MethodKind)}
    {actions : List Action} (runs : Runs (initial config served called handlers) actions c) (open' : c.phase ≠ .closed) :
    ∃ book, Book c book := by
  induction runs with
  | nil => exact ⟨[], initial_book ..⟩
  | snoc prior moved ih =>
    have open'' := step_open moved open'
    obtain ⟨book, booked⟩ := ih open''
    obtain ⟨more, grown⟩ := step_book booked (runs_receiving prior open'') moved
    exact ⟨book ++ more, grown⟩

theorem caused_moves {r : Response} (handedOver : c.caused action = some r) :
    c.moves action = [.offer (.response r) .arriving] := by
  cases action with
  | readNext =>
    simp only [caused] at handedOver
    split at handedOver
    · rename_i body next
      split at handedOver
      · rename_i id issue claims decoded
        cases handedOver
        obtain ⟨carried, routed⟩ := (claim?_iff_routed decoded).mp claims
        simp [moves, next, itemMoves, bodyMoves, decoded, faultMoves, carried, routed]
      · cases handedOver
    · cases handedOver
  | pollTask task handler =>
    simp only [caused] at handedOver
    simp [moves, handedOver]
  | _ => cases handedOver

-- A message that is queued, or whose sender waits for room in the queue.
def Held (q : Outbound) (m : Message) : Prop :=
  m ∈ q.queued ∨ ∃ w ∈ q.waiting, w.message = m

theorem held_of_offer {q : Outbound} (alive : q.receiving = true) (m : Message) (standing : Outbound.Standing) :
    Held (q.offer m standing).2 m := by
  rcases q.offer_cases m standing with ⟨gone, _⟩ | ⟨_, _, same⟩ | ⟨_, _, same⟩
  · cases gone.symm.trans alive
  · rw [same]
    exact .inl (List.mem_append_right _ List.mem_cons_self)
  · rw [same]
    exact .inr ⟨_, List.mem_append_right _ List.mem_cons_self, rfl⟩

theorem step_holds {r : Response} (alive : c.correlator.outbound.receiving = true) (moved : c.step action = some after)
    (handedOver : c.caused action = some r) : Held after.correlator.outbound (.response r) := by
  rw [step_correlator moved, caused_moves handedOver]
  exact held_of_offer alive _ _

-- A task is answered by the poll that finds its handler ended, its cancellation in force, or
-- nobody to handle it.
theorem poll_isSome (d : Dispatcher) (r : Request) (cancelled : Bool) (handler : Option Outcome) :
    (d.poll r cancelled handler).isSome ↔
      handler.isSome ∨ d.serves .request r.method = false ∨ d.preempts cancelled = true := by
  unfold Dispatcher.poll Dispatcher.preempts
  cases d.serves .request r.method <;> cases d.cancellation <;> cases cancelled <;> simp

theorem pollTask_possible {t : Task} (found : c.tasks[n]? = some t) (handler : Option Outcome) :
    (c.step (.pollTask n handler)).isSome ↔ t.response = none := by
  constructor
  · intro possible
    obtain ⟨after, moved⟩ := Option.isSome_iff_exists.mp possible
    obtain ⟨t', found', unanswered, _⟩ := pollTask_cases moved
    exact Option.some.inj (found'.symm.trans found) ▸ unanswered
  · intro unanswered
    simp only [step, pollTask, found, unanswered]
    split
    · rename_i other
      cases other
    · split <;> rfl

-- A frame that claims an answer is refused at once or becomes a task, and no other does either.
theorem read_claim (moved : c.step .readNext = some after) (frame : c.decoder.next.1 = some (.body body)) :
    match claim? body with
    | none => c.caused .readNext = none ∧ after.tasks.length = c.tasks.length
    | some id =>
      (∃ issue, c.contract.decode c.correlator.pendingMethod body = .error issue ∧
        c.caused .readNext = some (rejection id issue) ∧ after.tasks.length = c.tasks.length) ∨
      ∃ r, c.contract.decode c.correlator.pendingMethod body = .ok (.request r) ∧ r.id = id ∧
        c.caused .readNext = none ∧ after.tasks.length = c.tasks.length + 1 ∧
        after.tasks[c.tasks.length]? = some { request := r } := by
  have length := step_length moved
  cases claims : claim? body with
  | none =>
    refine ⟨by simp [caused, frame, claims], ?_⟩
    cases born : c.born? .readNext with
    | none => simpa [born] using length
    | some r =>
      obtain ⟨_, body', frame', decoded⟩ := born?_some born
      obtain rfl : body = body' := by simpa [frame] using frame'
      cases claims.symm.trans ((claim?_iff_request decoded).mpr ⟨r, rfl, rfl⟩)
  | some id =>
    cases decoded : c.contract.decode c.correlator.pendingMethod body with
    | error issue =>
      refine .inl ⟨issue, rfl, by simp [caused, frame, claims, decoded], ?_⟩
      simpa [born?, frame, decoded] using length
    | ok m =>
      obtain ⟨r, rfl, named⟩ := (claim?_iff_request decoded).mp claims
      have born : c.born? .readNext = some r := by simp [born?, frame, decoded]
      obtain ⟨t, found, fresh⟩ := step_born_task moved born
      exact .inr ⟨r, rfl, named, by simp [caused, frame, claims, decoded], by simpa [born] using length, fresh ▸ found⟩

theorem takeBody_notification {m : Notification}
    (decoded : c.contract.decode c.correlator.pendingMethod body = .ok (.notification m)) :
    (c.takeBody body).correlator = c.correlator := by
  rw [takeBody_correlator]
  simp [bodyMoves, decoded, Correlator.moveAll]

-- Every request of the peer is answered once, and nothing else is answered.
theorem requests_are_answered_once {config : Config} {served called : Registry} {handlers : List (String × MethodKind)}
    {actions : List Action} (runs : Runs (initial config served called handlers) actions c)
    (listening : c.phase = .listening) :
    (∃ book, Book c book) ∧
    (∀ action after, c.step action = some after →
      after.handed = c.handed ++ (c.caused action).toList ∧
      (∀ r, c.caused action = some r → Held after.correlator.outbound (.response r)) ∧
      (∀ (n : Nat) (t : Task) (r : Response), c.tasks[n]? = some t → t.response = some r →
        ∃ t', after.tasks[n]? = some t' ∧ t'.request = t.request ∧ t'.response = some r)) ∧
    (∀ after body, c.step .readNext = some after → c.decoder.next.1 = some (.body body) →
      match claim? body with
      | none => c.caused .readNext = none ∧ after.tasks.length = c.tasks.length
      | some id =>
        (∃ issue, c.contract.decode c.correlator.pendingMethod body = .error issue ∧
          c.caused .readNext = some (rejection id issue) ∧ after.tasks.length = c.tasks.length) ∨
        ∃ r, c.contract.decode c.correlator.pendingMethod body = .ok (.request r) ∧ r.id = id ∧
          c.caused .readNext = none ∧ after.tasks.length = c.tasks.length + 1 ∧
          after.tasks[c.tasks.length]? = some { request := r }) ∧
    (∀ (n : Nat) (t : Task) (handler : Option Outcome), c.tasks[n]? = some t →
      ((c.step (.pollTask n handler)).isSome ↔ t.response = none) ∧
      (t.response = none → ((c.caused (.pollTask n handler)).isSome ↔
        handler.isSome ∨ c.dispatcher.serves .request t.request.method = false ∨
          c.dispatcher.preempts t.cancelled = true)) ∧
      ∀ r after, c.caused (.pollTask n handler) = some r → c.step (.pollTask n handler) = some after →
        r.id = some t.request.id ∧ ∃ t', after.tasks[n]? = some t' ∧ t'.response = some r) ∧
    (∀ after body m, c.step .readNext = some after → c.decoder.next.1 = some (.body body) →
      c.contract.decode c.correlator.pendingMethod body = .ok (.notification m) →
      after.handed = c.handed ∧ after.correlator = c.correlator) := by
  have open' : c.phase ≠ .closed := by simp [listening]
  have alive := runs_receiving runs open'
  refine ⟨runs_book runs open', ?_, fun after body moved frame => read_claim moved frame, ?_, ?_⟩
  · intro action after moved
    refine ⟨step_handed alive moved, fun r handedOver => step_holds alive moved handedOver, ?_⟩
    intro n t r found answered
    obtain ⟨t', found', turn⟩ := step_task moved found
    exact ⟨t', found', turn.request, turn.response answered⟩
  · intro n t handler found
    refine ⟨pollTask_possible found handler, ?_, ?_⟩
    · intro unanswered
      simp only [caused, answered?, found, unanswered, Option.isSome_none]
      exact poll_isSome ..
    · intro r after handedOver moved
      obtain ⟨k, t', present, unanswered, found', _, now⟩ := pollTask_answers moved handedOver
      obtain rfl : k = t := Option.some.inj (present.symm.trans found)
      have answer : c.dispatcher.poll k.request k.cancelled handler = some r := by
        simpa [caused, answered?, found, unanswered] using handedOver
      exact ⟨poll_id answer, t', found', now⟩
  · intro after body m moved frame decoded
    have nothing : c.caused .readNext = none := by
      simp only [caused, frame, decoded]
      cases claim? body <;> rfl
    obtain ⟨_, _, item, decoder, next, rfl⟩ := readNext_cases moved
    obtain rfl : item = .body body := by simpa [next] using frame
    refine ⟨by simpa [nothing] using step_handed alive moved, ?_⟩
    exact takeBody_notification (m := m) decoded

-- A request that nobody handles, read and polled.
theorem requests_are_answered_once_unhandled :
    ∃ (c : Connection) (actions : List Action), Runs (initial {} {} {} []) actions c ∧ c.phase = .listening ∧
      c.handed.map (·.id) = [some (.number 7)] ∧ ∃ book, Book c book := by
  -- The body is a request object with method "m" and id 7.
  let body : List UInt8 := [123, 34, 109, 101, 116, 104, 111, 100, 34, 58, 34, 109, 34, 44, 34, 105, 100, 34, 58, 55, 125]
  let actions : List Action := [.start, .receive (Framing.encode none body), .readNext, .pollTask 0 none]
  have started : ((initial {} {} {} []).runAll actions).isSome := by decide +kernel
  obtain ⟨c, run⟩ := Option.isSome_iff_exists.mp started
  have seen : ((initial {} {} {} []).runAll actions).map (fun c => (c.phase, c.handed.map (·.id))) =
      some (.listening, [some (.number 7)]) := by decide +kernel
  simp only [run, Option.map_some, Option.some.injEq, Prod.mk.injEq] at seen
  obtain ⟨listening, answered⟩ := seen
  have runs := runs_of_runAll run
  exact ⟨c, actions, runs, listening, answered, (requests_are_answered_once runs listening).1⟩

end DuplexRpc.Connection
