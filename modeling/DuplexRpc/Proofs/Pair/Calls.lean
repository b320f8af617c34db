import DuplexRpc.Proofs.Pair.Account

namespace DuplexRpc.Pair
open Connection (Action Entry Task requested yielded)
variable {a b : Endpoint} {p : Pair} {moves : List Move} {n : Nat} {k : Call} {outcome : CallOutcome}
  {here there : MethodSpec} {book : List Entry}

-- Parameters that the peer lets through to the handler.
def Fits (shape : Shape) (params : Option Payload) : Prop :=
  ∀ p, params = some p → p.received = .null ∨ shape.Matches p.received

-- What a caller gets for what the handler ended with.
inductive Concludes (shape : Shape) (id : RequestId) (ended : Outcome) : CallOutcome → Prop where
  | result {sent got} : ended = .result sent → shape.Matches sent.received → sent.Arrives got →
      Concludes shape id ended (.result got)
  | misfit {sent cause} : ended = .result sent → ¬ shape.Matches sent.received →
      shape.decode sent.received = .error cause →
      Concludes shape id ended (.error (.invalidResponse ((Envelope.Fault.result id cause).toIssue (some id))))
  | error {e} : ended.reply = .error e → Concludes shape id ended (.error (.remote e.received))

theorem concludes {contract : Contract} {pending : RequestId → Option String} {id : RequestId} {method : String}
    {spec : MethodSpec} (declared : contract.called.lookup method = some spec) (awaited : pending id = some method)
    (ended : Outcome) : Concludes spec.result id ended (match contract.received pending id ended.reply with
      | .ok reply => .ofReply reply
      | .error fault => .error (.invalidResponse (fault.toIssue (some id)))) := by
  have shape : contract.resultShape pending id = spec.result := by
    simp [Contract.resultShape, awaited, declared]
  have failed : ∀ e, ended.reply = .error e → Concludes spec.result id ended (.error (.remote e.received)) :=
    fun e same => .error same
  cases ended with
  | result sent =>
    simp only [Outcome.reply, Contract.received, shape]
    cases read : spec.result.decode sent.toJson.reread with
    | ok got =>
      refine .result rfl ((Shape.decode_ok_iff _ _).mp ⟨got, read⟩) (Payload.arrives_of ?_)
      exact Shape.decode_toJson _ _ _ read
    | error cause =>
      refine .misfit rfl (fun fits => ?_) read
      obtain ⟨p, read'⟩ := (Shape.decode_ok_iff _ _).mpr fits
      cases read.symm.trans read'
  | failure e => exact failed e rfl
  | internal causes => exact failed _ rfl
  | panic text => exact failed _ rfl

theorem fits_arrive {shape : Shape} {params got : Option Payload} {contract : Contract} {method : String}
    (declared : contract.paramsShape method = shape)
    (decoded : contract.decodeParams method (params.map Payload.received) = .ok got) :
    Fits shape params ∧ Option.Rel Payload.Arrives params got := by
  constructor
  · rintro p rfl
    exact declared ▸ Contract.decodeParams_ok decoded _ rfl
  · have same := Contract.decodeParams_toJson decoded
    cases params with
    | none =>
      cases got with
      | none => exact .none
      | some q => cases same
    | some p =>
      cases got with
      | none => cases same
      | some q => exact .some (Payload.arrives_of (Option.some.inj same))

-- A request of the left side that has ended while both sides are open. No cancel notification
-- naming it was written, and its handler did not give its own cancellation signal.
structure Completed (a b : Endpoint) (moves : List Move) (p : Pair) (n : Nat) (k : Call) (outcome : CallOutcome)
    (here there : MethodSpec) : Prop where
  runs : Runs (joined a b) moves p
  leftOpen : p.left.phase ≠ .closed
  rightOpen : p.right.phase ≠ .closed
  named : k.method ≠ ""
  called : a.called.lookup k.method = some there
  served : b.served.lookup k.method = some here
  kinds : there.kind = .request ∧ here.kind = .request
  handled : b.handlers.lookup k.method = some .request
  found : p.left.correlator.calls[n]? = some k
  accepted : k.stage = .accepted
  ended : k.outcome = some outcome
  untold : ∀ note, .notification note ∈ p.left.wrote → b.served.isCancelMethod note.method = true →
    note.named? ≠ some k.id
  unfired : ∀ (task : Nat) (t : Task), p.right.tasks[task]? = some t → t.request.id = k.id →
    .signalOwn task ∉ rights moves

theorem Completed.shape (call : Completed a b moves p n k outcome here there) :
    p.right.contract.paramsShape k.method = here.params := by
  have table : p.right.contract.served.lookup k.method = some here := by
    rw [(Connection.runs_forward (runs_joined call.runs).rightRuns).contract]
    exact call.served
  simp [Contract.paramsShape, table]

-- What the peer refused at once, it refused for its parameters.
theorem Completed.refused {e : Entry} {issue : Issue} (call : Completed a b moves p n k outcome here there)
    (account : Account p.left p.right book) (present : e ∈ book) (same : e.id = k.id) (fate : e.fate = .rejected issue) :
    (∀ (task : Nat) (t : Task), p.right.tasks[task]? = some t → t.request.id ≠ k.id) ∧ ¬ Fits here.params k.params ∧
      ∃ sent cause, k.params = some sent ∧ here.params.decode sent.received = .error cause ∧
        issue = (Envelope.Fault.params k.method cause).toIssue (some k.id) := by
  have body := account.sent e present n k call.found same.symm
  have claims := account.booked.ids e present
  obtain ⟨pending, read⟩ := account.booked.decoded e present
  simp only [fate, body] at read
  rw [body] at claims
  obtain ⟨v, cause, received, some', refused, rfl⟩ := Contract.decode_refused call.named claims read
  obtain ⟨sent, params, rfl⟩ := Option.map_eq_some_iff.mp received
  have refused' : here.params.decode sent.received = .error cause := call.shape ▸ refused
  refine ⟨?_, ?_, sent, cause, params, refused', rfl⟩
  · intro task t found other
    obtain ⟨e', present', serves, id⟩ := account.booked.task found
    obtain rfl := account.same present' present (id.trans (other.trans same.symm))
    cases serves.symm.trans fate
  · intro fits
    rcases fits sent params with null | fits
    · exact some' null
    · obtain ⟨got, read'⟩ := (Shape.decode_ok_iff _ _).mpr fits
      cases refused'.symm.trans read'

-- What became a task was run as it was sent, once, and answered by what its handler ended with.
theorem Completed.serviced {e : Entry} {task : Nat} {t : Task} {answer : Response}
    (call : Completed a b moves p n k outcome here there) (plain : a.Plain) (account : Account p.left p.right book)
    (present : e ∈ book) (same : e.id = k.id) (fate : e.fate = .task task) (found : p.right.tasks[task]? = some t)
    (mine : t.request.id = k.id) (answered : t.response = some answer) :
    Fits here.params k.params ∧ t.request.method = k.method ∧ Option.Rel Payload.Arrives k.params t.request.params ∧
      p.right.invocations.count task = 1 ∧
      ∃ result, yielded task (rights moves) = some result ∧ answer.reply = result.reply := by
  have joined := runs_joined call.runs
  have body := account.sent e present n k call.found same.symm
  obtain ⟨pending, read⟩ := account.booked.decoded e present
  simp only [fate, body] at read
  obtain ⟨t', found', _, read⟩ := read
  obtain rfl : t' = t := Option.some.inj (found'.symm.trans found)
  obtain ⟨_, method, decoded⟩ := Contract.decode_request call.named read
  obtain ⟨fits, arrive⟩ := fits_arrive call.shape decoded
  have calm : t'.cancelled = false := by
    refine joined.uncancelled plain call.rightOpen account present fate found (mine.trans same.symm) ?_
      (call.unfired task t' found mine)
    rw [same]
    exact call.untold
  have able : p.right.dispatcher.serves .request t'.request.method = true := by
    have handled : b.connection.handlers.lookup k.request.method = some .request := call.handled
    rw [(Connection.runs_forward joined.rightRuns).dispatcher, method]
    simp [Dispatcher.serves, Connection.dispatcher, handled]
  have service := Connection.runs_served joined.rightRuns found
  obtain ⟨invoked, result, yields, reply⟩ := service.answered _ answered calm able
  exact ⟨fits, method, arrive, by rw [service.once, if_pos invoked], result, yields, reply⟩

-- Such a call ends as its one task at the peer did, or was refused there for its parameters; that is
-- what its caller is given.
theorem calls_end_as_served (call : Completed a b moves p n k outcome here there) (plainLeft : a.Plain)
    (plainRight : b.Plain) (few : requested (lefts moves) < 0x10000000000000000)
    (kept : outcome ≠ .error (.cancelled k.id)) :
    (Fits here.params k.params → ∃ (task : Nat) (t : Task) (result : Outcome), p.right.tasks[task]? = some t ∧
      t.request.id = k.id ∧ t.request.method = k.method ∧ Option.Rel Payload.Arrives k.params t.request.params ∧
      (∀ (other : Nat) (t' : Task), p.right.tasks[other]? = some t' → t'.request.id = k.id → other = task) ∧
      p.right.invocations.count task = 1 ∧ yielded task (rights moves) = some result ∧
      Concludes there.result k.id result outcome) ∧
    (¬ Fits here.params k.params →
      (∀ (task : Nat) (t : Task), p.right.tasks[task]? = some t → t.request.id ≠ k.id) ∧
      ∃ sent cause, k.params = some sent ∧ here.params.decode sent.received = .error cause ∧
        outcome = .error (.remote ⟨-32602, "Invalid params for method '" ++ k.method ++ "'",
          some (.string (cause.toIssue "params").display)⟩)) ∧
    (k.taken = false → (p.left.pollCall n).1 = .done outcome) := by
  rw [← and_assoc]
  refine ⟨?_, fun unread => (Correlator.poll_done call.found unread call.ended).1⟩
  have joined := runs_joined call.runs
  have few' : requested (lefts moves) ≤ 0x10000000000000000 := Nat.le_of_lt few
  obtain ⟨book, account⟩ := joined.account plainLeft call.leftOpen call.rightOpen few'
  obtain ⟨reply, pending, handed, awaited, ends⟩ :=
    joined.answered plainRight call.leftOpen call.rightOpen few' call.found (by simp [call.accepted]) call.ended kept
  obtain ⟨e, present, same, fate⟩ := account.booked.answer_entry handed
  rcases fate with ⟨issue, fate, answer⟩ | ⟨task, t, fate, found, mine, answered⟩
  · obtain ⟨idle, unfit, sent, cause, params, refused, rfl⟩ := call.refused account present same fate
    obtain rfl : reply = _ := (Response.mk.inj answer).2.symm
    exact ⟨fun fits => absurd fits unfit, fun _ => ⟨idle, sent, cause, params, refused, ends⟩⟩
  · obtain ⟨fits, method, arrive, once, result, yields, rfl⟩ :=
      call.serviced plainLeft account present same fate found mine answered
    have declared : p.left.contract.called.lookup k.method = some there := by
      rw [(Connection.runs_forward joined.leftRuns).contract]
      exact call.called
    refine ⟨fun _ => ⟨task, t, result, found, mine, method, arrive, ?_, once, yields, ?_⟩, fun unfit => absurd fits unfit⟩
    · intro other t' found' another
      exact account.only_task present fate found' (another.trans same.symm)
    · rw [ends]
      exact concludes declared awaited result

def anything : MethodSpec := ⟨"m", .request, .any, .any⟩

def caller (contentType : Option String) : Endpoint :=
  ⟨{ contentType := contentType }, {}, { methods := [("m", anything)] }, []⟩

def callee (contentType : Option String) : Endpoint :=
  ⟨{ contentType := contentType }, { methods := [("m", anything)] }, {}, [("m", .request)]⟩

def callOf (params : Option Payload) (outcome : CallOutcome) : Call :=
  ⟨.number 1, "m", params, .accepted, some outcome, false⟩

-- One request of the caller, served and answered.
def exchange (asks answers : Option String) (params : Option Payload) (result : Payload) : List Move :=
  [.left .start, .right .start, .left (.request "m" params), .left .write,
    .right (.receive (Framing.encode asks (Message.request ⟨.number 1, "m", params⟩).encode)), .right .readNext,
    .right (.pollTask 0 (some (.result result))), .right .write,
    .left (.receive (Framing.encode answers (Message.response ⟨some (.number 1), .result result⟩).encode)),
    .left .readNext]

theorem completed_of_run (asks answers : Option String) (moves : List Move) (params : Option Payload)
    (outcome : CallOutcome) (tasks : List (Option Payload))
    (seen : ((joined (caller asks) (callee answers)).runAll moves).map (fun p =>
      ((p.left.phase, p.right.phase, p.left.correlator.calls, p.left.wrote.all (·.kind ≠ .notification)),
        p.right.tasks.map (·.request.params))) =
      some ((.listening, .listening, [callOf params outcome], true), tasks))
    (unfired : ∀ task, Action.signalOwn task ∉ rights moves) :
    ∃ p, Completed (caller asks) (callee answers) moves p 0 (callOf params outcome) outcome anything anything ∧
      p.right.tasks.map (·.request.params) = tasks := by
  obtain ⟨p, run, same⟩ := Option.map_eq_some_iff.mp seen
  simp only [Prod.mk.injEq] at same
  obtain ⟨⟨left, right, calls, wrote⟩, served⟩ := same
  refine ⟨p, ⟨runs_of_runAll run, by simp [left], by simp [right], by simp [callOf], rfl, rfl, ⟨rfl, rfl⟩, rfl,
    by rw [calls]; rfl, rfl, rfl, ?_, fun task _ _ _ => unfired task⟩, served⟩
  intro note written
  have other := List.all_eq_true.mp wrote _ written
  simp [Message.kind] at other

theorem exchange_unfired (asks answers : Option String) (params : Option Payload) (result : Payload) :
    ∀ task, Action.signalOwn task ∉ rights (exchange asks answers params result) := by
  simp [rights, exchange, Move.right?]

theorem calls_end_as_served_once :
    let moves := exchange none none none (.json (.bool true))
    let outcome := CallOutcome.result (.json (.bool true))
    ∃ p, Completed (caller none) (callee none) moves p 0 (callOf none outcome) outcome anything anything ∧
      (∃ task result, p.right.invocations.count task = 1 ∧ yielded task (rights moves) = some result ∧
        Concludes .any (.number 1) result outcome) ∧ (p.left.pollCall 0).1 = .done outcome := by
  intro moves outcome
  obtain ⟨p, call, _⟩ := completed_of_run none none moves none outcome [none] (by decide +kernel)
    (exchange_unfired _ _ _ _)
  have absent : Fits Shape.any none := fun _ other => by cases other
  obtain ⟨served, _, given⟩ := calls_end_as_served call (by decide) (by decide) (by decide) (by decide)
  obtain ⟨task, _, result, _, _, _, _, _, once, yields, concludes⟩ := served absent
  exact ⟨p, call, ⟨task, result, once, yields, concludes⟩, given rfl⟩

-- A content type that ends the header and holds a body as long as the one announced.
def misleading (m : Message) : String := "t\r\n\r\n" ++ m.toJson.text

-- A real whose text reads as its neighbour.
def unstable : Payload := .json (.number (.real ⟨0x3af357c299a88ea8⟩))
def neighbour : Payload := .json (.number (.real ⟨0x3af357c299a88ea7⟩))

section Overrun
open Correlator (run Ledger runs_ledger sends)

-- The caller's correlator after some requests that nobody has answered.
def asked (times : Nat) : Correlator := run (caller none).connection.correlator (List.replicate times (.send "m" none))

theorem asked_succ (times : Nat) : asked (times + 1) = ((asked times).send "m" none).2 := by
  rw [asked, List.replicate_succ', Correlator.run_append]
  rfl

theorem asked_ledger {times : Nat} (few : times ≤ 0x10000000000000000) : Ledger (asked times) times := by
  have total : sends (List.replicate times (.send "m" none)) = times := by
    simp [sends, List.countP_replicate, Correlator.Action.isSend]
  have ledger := runs_ledger none (max (caller none).config.outboundQueueCapacity.toNat 1)
    (List.replicate times (.send "m" none)) (by rw [total]; exact few)
  rw [total] at ledger
  exact ledger

theorem asked_closed (times : Nat) : (asked times).closed = false := by
  induction times with
  | zero => rfl
  | succ times ih =>
    rw [asked_succ]
    have recorded : ((asked times).recorded "m").closed = false := (Correlator.record_closed ..).trans ih
    rcases (asked times).send_cases "m" none with ⟨closed, _⟩ | ⟨_, _, same⟩ | ⟨_, _, _, same⟩ | ⟨_, _, _, same⟩
    · cases ih.symm.trans closed
    all_goals
      rw [same]
      exact recorded

def firstCall : Call := ⟨.number 1, "m", none, .accepted, none, false⟩

theorem asked_first (times : Nat) (few : times < 0x10000000000000000) :
    (asked (times + 1)).calls[0]? = some firstCall := by
  induction times with
  | zero => decide
  | succ times ih =>
    rw [asked_succ]
    exact (asked_ledger (Nat.le_of_lt few)).send_calls few "m" none (ih (by omega))

-- A send under an id that is still pending ends the call that has it.
theorem send_over {c : Correlator} {k : Call} {n : Nat} {entry : PendingEntry} (method : String) (params : Option Payload)
    (open' : c.closed = false) (found : c.calls[n]? = some k) (pending : c.pending.lookup c.fresh = some entry)
    (mine : entry.call = n) :
    (c.send method params).2.calls[n]? = some (k.finish (.error .connectionClosed)) := by
  have ended : (c.recorded method).calls[n]? = some (k.finish (.error .connectionClosed)) := by
    have listed : (c.pending.lookup (.number c.nextId)).map PendingEntry.call = some n :=
      (congrArg (Option.map PendingEntry.call) pending).trans (congrArg some mine)
    rw [Correlator.recorded, Correlator.record_calls]
    simp [found, listed]
  have bound := (List.getElem?_eq_some_iff.mp ended).1
  rcases c.send_cases method params with ⟨closed, _⟩ | ⟨_, _, same⟩ | ⟨_, _, _, same⟩ | ⟨_, _, _, same⟩
  · cases open'.symm.trans closed
  all_goals rw [same]
  · exact ended
  all_goals exact (List.getElem?_append_left bound).trans ended

-- When the ids have come round, the first call is ended though nothing has happened to it.
theorem asked_round : (asked (0x10000000000000000 + 1)).calls[0]? =
    some (firstCall.finish (.error .connectionClosed)) := by
  have ledger := asked_ledger (Nat.le_refl 0x10000000000000000)
  have first : (asked 0x10000000000000000).calls[0]? = some firstCall := asked_first 0xffffffffffffffff (by decide)
  have round : (asked 0x10000000000000000).fresh = firstCall.id := ledger.counted.trans (by decide)
  have awaited := ledger.awaited 0 firstCall first (by decide) rfl
  rw [← round] at awaited
  rw [asked_succ]
  exact send_over "m" none (asked_closed _) first awaited rfl

def asking (times : Nat) : Pair where
  left := { (caller none).connection with phase := .listening, starts := 1, correlator := asked times }
  right := { (callee none).connection with phase := .listening, starts := 1 }

def overrun (times : Nat) : List Move :=
  [.left .start, .right .start] ++ List.replicate times (.left (.request "m" none))

theorem asking_step (times : Nat) : (asking times).step (.left (.request "m" none)) = some (asking (times + 1)) := by
  have sent := Connection.request_correlator (asking times).left "m" none
  have fields := Connection.request_fields (asking times).left "m" none
  have next : ((asking times).left.request "m" none).2 = (asking (times + 1)).left := by
    rw [fields, sent, asking, asking, asked_succ]
    rfl
  simp only [step, Connection.step, next, Action.chunk, List.nil_prefix, if_true]
  rfl

theorem asking_runs (times : Nat) : Runs (joined (caller none) (callee none)) (overrun times) (asking times) := by
  induction times with
  | zero => exact runs_of_runAll rfl
  | succ times ih =>
    rw [overrun, List.replicate_succ', ← List.append_assoc]
    exact ih.snoc (asking_step times)

theorem overran : Completed (caller none) (callee none) (overrun (0x10000000000000000 + 1))
    (asking (0x10000000000000000 + 1)) 0 (firstCall.finish (.error .connectionClosed)) (.error .connectionClosed) anything anything where
  runs := asking_runs _
  leftOpen := by simp [asking]
  rightOpen := by simp [asking]
  named := by decide
  called := rfl
  served := rfl
  kinds := ⟨rfl, rfl⟩
  handled := rfl
  found := asked_round
  accepted := rfl
  ended := rfl
  untold note written := by cases written
  unfired task t found := by cases found

end Overrun

-- What was asked of a completed call cannot be left out. It may have been given up, a content
-- type may have misled the reader on either side, reals may have been unstable, and its id may
-- have come round.
theorem completed_calls_may_differ :
    (∃ moves p k, Completed (caller none) (callee none) moves p 0 k (.error (.cancelled k.id)) anything anything ∧
      k.params = none ∧ p.right.tasks.map (·.request.params) = []) ∧
    (∃ asks moves p k outcome sent got, Completed (caller asks) (callee none) moves p 0 k outcome anything anything ∧
      k.params = some sent ∧ p.right.tasks.map (·.request.params) = [some got] ∧ got.value ≠ sent.value) ∧
    (∃ answers moves p k sent got, Completed (caller none) (callee answers) moves p 0 k (.result got) anything anything ∧
      yielded 0 (rights moves) = some (.result sent) ∧ got.value ≠ sent.value) ∧
    (∃ moves p k sent got, Completed (caller none) (callee none) moves p 0 k (.result got) anything anything ∧
      k.params = some sent ∧ p.right.tasks.map (·.request.params) = [some got] ∧
      yielded 0 (rights moves) = some (.result sent) ∧ got.value ≠ sent.value) ∧
    (∃ moves p k, Completed (caller none) (callee none) moves p 0 k (.error .connectionClosed) anything anything ∧
      k.params = none ∧ p.right.tasks.map (·.request.params) = []) := by
  refine ⟨?_, ?_, ?_, ?_, ?_⟩
  · let moves : List Move := [.left .start, .right .start, .left (.request "m" none), .left (.cancel (.number 1))]
    obtain ⟨p, call, idle⟩ := completed_of_run none none moves none (.error (.cancelled (.number 1))) []
      (by decide +kernel) (by simp [rights, moves, Move.right?])
    exact ⟨moves, p, _, call, rfl, idle⟩
  · let other : Payload := .json (.ofInt64 8)
    let asks := misleading (.request ⟨.number 1, "m", some other⟩)
    let moves := exchange (some asks) none (some (.json (.ofInt64 7))) .null
    obtain ⟨p, call, served⟩ := completed_of_run (some asks) none moves (some (.json (.ofInt64 7))) (.result .null)
      [some other] (by decide +kernel) (exchange_unfired _ _ _ _)
    exact ⟨some asks, moves, p, _, _, _, other, call, rfl, served, by decide⟩
  · let other : Payload := .json (.ofInt64 1234)
    let answers := misleading (.response ⟨some (.number 1), .result other⟩)
    let moves := exchange none (some answers) none (.json (.bool true))
    obtain ⟨p, call, _⟩ := completed_of_run none (some answers) moves none (.result other) [none] (by decide +kernel)
      (exchange_unfired _ _ _ _)
    exact ⟨some answers, moves, p, _, _, other, call, rfl, by decide⟩
  · let moves := exchange none none (some unstable) unstable
    obtain ⟨p, call, served⟩ := completed_of_run none none moves (some unstable) (.result neighbour) [some neighbour]
      (by decide +kernel) (exchange_unfired _ _ _ _)
    exact ⟨moves, p, _, _, neighbour, call, rfl, served, rfl, by decide⟩
  · exact ⟨_, _, _, overran, rfl, rfl⟩

end DuplexRpc.Pair
