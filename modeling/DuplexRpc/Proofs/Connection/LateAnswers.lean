import DuplexRpc.Proofs.Connection.Outbox
import DuplexRpc.Proofs.Connection.Reports
import DuplexRpc.Proofs.Correlator.Remembered

namespace DuplexRpc

namespace Contract
open Envelope

-- A response in order as far as can be said without knowing the request: a result, whatever its
-- value, or an error that can be read.
structure Acceptable (k : Contract) (members : Members) (id : RequestId) : Prop where
  noMethod : members.lookup "method" = none
  named : id? members = some id
  version : k.validate = true → members.lookup "jsonrpc" = some Message.version
  outcome : (members.lookup "error" = none ∧ ∃ v, members.lookup "result" = some v) ∨
    (members.lookup "result" = none ∧ ∃ v e, members.lookup "error" = some v ∧ ResponseError.ofJson v = .ok e)

-- Where no request is pending, any result will do.
theorem Acceptable.decodeReply {k : Contract} {members : Members} {id : RequestId} {pending : RequestId → Option String}
    (acceptable : k.Acceptable members id) (absent : pending id = none) :
    ∃ reply, k.decodeReply pending members = .ok reply := by
  rcases acceptable.outcome with ⟨noError, v, found⟩ | ⟨noResult, v, e, found, read⟩
  · have shape : k.resultShape pending id = .any := by simp [resultShape, absent]
    exact ⟨.result (.json v), by simp [Contract.decodeReply, noError, found, acceptable.named, shape, Shape.decode]⟩
  · exact ⟨.error e, by simp [Contract.decodeReply, noResult, found, read]⟩

theorem Acceptable.decode {k : Contract} {members : Members} {id : RequestId} {pending : RequestId → Option String}
    {body : List UInt8} (acceptable : k.Acceptable members id) (absent : pending id = none)
    (parses : Json.read body = .ok (.object members)) :
    ∃ reply, k.decode pending body = .ok (.response ⟨some id, reply⟩) := by
  obtain ⟨reply, read⟩ := acceptable.decodeReply absent
  have answers : has members "method" = false := by simp [has, acceptable.noMethod]
  have current : ¬ (k.validate = true ∧ members.lookup "jsonrpc" ≠ some Message.version) :=
    fun other => other.2 (acceptable.version other.1)
  have decoded : k.decodeMembers pending members = .ok (.response ⟨some id, reply⟩) := by
    rw [decodeMembers, if_neg current, if_neg (by simp [answers]), if_pos (by simp [has_of_id acceptable.named]),
      decodeResponse, acceptable.named, read]
    split <;> first | rfl | simp_all
  exact ⟨reply, by rw [decode_of_object parses, decoded]⟩

end Contract

namespace Connection
open Correlator (Move Window Withdrawn asked)
variable {c before after origin : Connection} {action : Action} {actions : List Action} {id : RequestId} {move : Move}
  {config : Config} {served called : Registry} {handlers : List (String × MethodKind)}

-- What a run does to the correlator.
def operations (c : Connection) : List Action → List Move
  | [] => []
  | action :: rest => c.moves action ++ match c.step action with
    | some after => after.operations rest
    | none => []

theorem runs_operations (runs : Runs origin actions c) (more : List Action) :
    origin.operations (actions ++ more) = origin.operations actions ++ c.operations more := by
  induction runs generalizing more with
  | nil => rfl
  | @snoc before after actions action _ moved ih =>
    rw [List.append_assoc, ih, ih [action]]
    simp [operations, moved]

theorem operations_snoc (runs : Runs origin actions c) (action : Action) :
    origin.operations (actions ++ [action]) = origin.operations actions ++ c.moves action := by
  rw [runs_operations runs]
  cases moved : c.step action <;> simp [operations, moved]

theorem runs_correlator (runs : Runs origin actions c) :
    c.correlator = origin.correlator.moveAll (origin.operations actions) := by
  induction runs with
  | nil => rfl
  | snoc prior moved ih => rw [operations_snoc prior, Correlator.moveAll_append, ← ih, step_correlator moved]

-- No action asks for more than one request.
theorem closeMoves_asked (c : Connection) : asked c.closeMoves = 0 := by
  unfold closeMoves
  cases c.phase <;> rfl

theorem itemMoves_asked (c : Connection) (item : Framing.Item) : asked (c.itemMoves item) = 0 := by
  cases item with
  | fault fault =>
    simp only [itemMoves]
    split
    · exact closeMoves_asked c
    · rfl
  | body body =>
    simp only [itemMoves, bodyMoves]
    rcases c.contract.decode c.correlator.pendingMethod body with issue | r | n | ⟨_ | id, reply⟩
    · simp only [faultMoves]
      split <;> rfl
    all_goals rfl

theorem moves_asked (c : Connection) (action : Action) :
    asked (c.moves action) ≤ if action.isRequest then 1 else 0 := by
  cases action with
  | close | readEnd => exact Nat.le_of_eq (closeMoves_asked c)
  | failWrite =>
    simp only [moves, List.cons_append, Correlator.asked_cons, Correlator.asked_append, closeMoves_asked]
    exact Nat.le_refl 0
  | readNext =>
    simp only [moves]
    split
    · exact Nat.le_of_eq (itemMoves_asked c _)
    · exact Nat.le_refl 0
  | pollTask task handler =>
    simp only [moves]
    cases c.answered? task handler <;> exact Nat.le_refl 0
  | request method params =>
    simp only [moves]
    split
    · exact Nat.zero_le 1
    · exact Nat.le_refl 1
  | notify method params =>
    have silent : asked (c.moves (.notify method params)) = 0 := by
      simp only [moves]
      repeat' split
      all_goals rfl
    exact Nat.le_of_eq silent
  | _ => exact Nat.zero_le 0

theorem runs_asked (runs : Runs origin actions c) : asked (origin.operations actions) ≤ requested actions := by
  induction runs with
  | nil => exact Nat.le_refl 0
  | @snoc before after actions action prior moved ih =>
    have here := before.moves_asked action
    rw [operations_snoc prior, Correlator.asked_append, requested, List.countP_append, List.countP_singleton]
    exact Nat.add_le_add ih here

theorem runs_window (runs : Runs (initial config served called handlers) actions c)
    (few : requested actions ≤ 0x10000000000000000) : ∃ sent, Window c.correlator sent := by
  have asks := Nat.le_trans (runs_asked runs) few
  rw [runs_correlator runs]
  exact ⟨_, Correlator.runs_window _ _ _ asks⟩

-- As long as the connection is open nothing ends all its requests.
theorem operations_open (runs : Runs origin actions c) (open' : c.phase ≠ .closed) :
    .act .failAll ∉ origin.operations actions := by
  induction runs with
  | nil => nofun
  | @snoc before after actions action prior moved ih =>
    rw [operations_snoc prior]
    intro present
    rcases List.mem_append.mp present with earlier | now
    · exact ih (step_open moved open') earlier
    · rcases moves_does moved open' with nothing | ⟨move, one, does⟩
      · cases nothing ▸ now
      · rw [one, List.mem_singleton] at now
        subst now
        cases does

-- A response to a request cancelled here, not answered yet and still remembered, is read and dropped.
theorem takeBody_dropped {body : List UInt8} {members : Envelope.Members} (remembered : id ∈ c.correlator.cancelled)
    (absent : c.correlator.pending.lookup id = none) (parses : Json.read body = .ok (.object members))
    (acceptable : c.contract.Acceptable members id) :
    c.takeBody body =
      { c with correlator := { c.correlator with cancelled := c.correlator.cancelled.erase id } } := by
  have unasked : c.correlator.pendingMethod id = none := by simp [Correlator.pendingMethod, absent]
  obtain ⟨reply, decoded⟩ := acceptable.decode unasked parses
  simp only [takeBody, decoded, takeResponse, Correlator.resolve_remembered remembered absent reply]

theorem readNext_dropped {body : List UInt8} {members : Envelope.Members} (remembered : id ∈ c.correlator.cancelled)
    (absent : c.correlator.pending.lookup id = none) (moved : c.step .readNext = some after)
    (frame : c.decoder.next.1 = some (.body body)) (parses : Json.read body = .ok (.object members))
    (acceptable : c.contract.Acceptable members id) :
    after = { c with
      decoder := c.decoder.next.2
      log := c.log ++ [.took (.body body)]
      faultsInRow := 0
      correlator := { c.correlator with cancelled := c.correlator.cancelled.erase id } } := by
  obtain ⟨_, _, item, decoder, next, rfl⟩ := readNext_cases moved
  obtain rfl : item = .body body := by simpa [next] using frame
  rw [takeItem_body, next]
  exact takeBody_dropped remembered absent parses acceptable

-- A request cancelled in a run is remembered until it is answered, or as many others were cancelled as there
-- is room for.
theorem runs_withdrawn {earlier later : List Action}
    (first : Runs (initial config served called handlers) earlier before)
    (pending : (before.correlator.pending.lookup id).isSome) (rest : Runs (before.cancel id).2 later c)
    (open' : c.phase ≠ .closed)
    (unanswered : ∀ reply, .act (.resolve id reply) ∉ (before.cancel id).2.operations later)
    (room : ((before.cancel id).2.correlator.withdrawn ((before.cancel id).2.operations later)).length ≤ 255) :
    id ∈ c.correlator.cancelled := by
  let origin := initial config served called handlers
  have now : before.correlator = origin.correlator.moveAll (origin.operations earlier) := runs_correlator first
  have cancels : (before.cancel id).2.correlator = before.correlator.move (.act (.cancel id)) := rfl
  have withdrawn : Withdrawn origin.correlator id (origin.operations earlier) ((before.cancel id).2.operations later) :=
    ⟨now ▸ pending, unanswered, operations_open rest open'⟩
  have remembered := withdrawn.remembered (by
    rw [Correlator.moveAll_append, ← now]
    exact Nat.lt_succ_of_le room)
  rw [Correlator.moveAll_append, ← now] at remembered
  rw [runs_correlator rest, cancels]
  exact remembered

-- The window of cancelled ids, and what it is for. Left to any moves, a correlator drops one answer to each
-- request it cancelled, as long as fewer than 256 others were cancelled since, and no further one. A connection
-- reads such an answer and does nothing else about it. The counter of ids has 64 bits: with more requests than
-- it can number an id would be given to a second one, which is why they are counted.
theorem late_answers_are_dropped (cancellation : Option CancelSettings) (capacity : Nat) (config : Config)
    (served called : Registry) (handlers : List (String × MethodKind)) :
    let origin := Correlator.initial cancellation capacity
    (∀ moves, let c := origin.moveAll moves
      c.cancelled.length ≤ 256 ∧ c.cancelled.Sublist (origin.withdrawn moves) ∧
      (asked moves ≤ 0x10000000000000000 →
        c.cancelled.Nodup ∧ (∀ id ∈ c.cancelled, c.pending.lookup id = none) ∧
        (∀ id ∈ c.cancelled, ∃ earlier later, moves = earlier ++ .act (.cancel id) :: later ∧
          Withdrawn origin id earlier later) ∧
        ∀ earlier id later, moves = earlier ++ .act (.cancel id) :: later → Withdrawn origin id earlier later →
          ((origin.moveAll (earlier ++ [.act (.cancel id)])).withdrawn later).length ≤ 255 →
          (∀ reply, c.resolve id reply = (none, { c with cancelled := c.cancelled.erase id })) ∧
          ∀ first more next, asked (moves ++ more) ≤ 0x10000000000000000 →
            let c := (c.resolve id first).2.moveAll more
            ∃ issue, c.resolve id next = (some issue, c) ∧ issue.id = some id)) ∧
    ∀ earlier later before c after id body members,
      Runs (initial config served called handlers) earlier before → (before.correlator.pending.lookup id).isSome →
      Runs (before.cancel id).2 later c → requested (earlier ++ .cancel id :: later) ≤ 0x10000000000000000 →
      (∀ reply, .act (.resolve id reply) ∉ (before.cancel id).2.operations later) →
      ((before.cancel id).2.correlator.withdrawn ((before.cancel id).2.operations later)).length ≤ 255 →
      c.step .readNext = some after → c.decoder.next.1 = some (.body body) →
      Json.read body = .ok (.object members) → c.contract.Acceptable members id →
      after.reported = c.reported ∧
      after = { c with
        decoder := c.decoder.next.2
        log := c.log ++ [.took (.body body)]
        faultsInRow := 0
        correlator := { c.correlator with cancelled := c.correlator.cancelled.erase id } } := by
  intro origin
  constructor
  · intro moves c
    refine ⟨Correlator.moveAll_length (Nat.zero_le _) moves, origin.moveAll_sublist moves, fun few => ?_⟩
    have window := Correlator.runs_window cancellation capacity moves few
    refine ⟨window.distinct, window.ended, fun id => Correlator.runs_remembered few, ?_⟩
    rintro earlier id later rfl withdrawn room
    have remembered : id ∈ c.cancelled := withdrawn.remembered (Nat.lt_succ_of_le room)
    refine ⟨Correlator.resolve_remembered remembered (window.ended id remembered), fun first more next few => ?_⟩
    rw [Correlator.asked_append] at few
    exact ⟨_, window.answered_twice few remembered first next, rfl⟩
  · intro earlier later before c after id body members first pending rest few unanswered room moved frame parses
      acceptable
    have runs : Runs (initial config served called handlers) (earlier ++ .cancel id :: later) c :=
      first.append (.cons rfl rest)
    have open' : c.phase ≠ .closed := by
      rw [(readNext_cases moved).1]
      nofun
    have remembered := runs_withdrawn first pending rest open' unanswered room
    obtain ⟨sent, window⟩ := runs_window runs few
    obtain rfl := readNext_dropped remembered (window.ended id remembered) moved frame parses acceptable
    exact ⟨by simp [reported, Event.issue?], rfl⟩

-- A number where a string was promised, and the request was cancelled before it came.
theorem late_answers_are_dropped_misshapen :
    ∃ (c after : Connection) (body : List UInt8) (members : Envelope.Members), Reachable c ∧
      c.step .readNext = some after ∧ c.decoder.next.1 = some (.body body) ∧
      Json.read body = .ok (.object members) ∧ members.lookup "result" = some (.ofInt64 5) ∧
      ¬ Shape.Matches .string (.ofInt64 5) ∧ c.correlator.cancelled = [.number 1] ∧
      after.reported = c.reported ∧ after.correlator.cancelled = [] := by
  let called : Registry := { methods := [("m", ⟨"m", .request, .any, .string⟩)] }
  let body : List UInt8 := Utf8.encode "\x7b\"id\":1,\"result\":5\x7d".toList
  let members : Envelope.Members := [("id", .ofInt64 1), ("result", .ofInt64 5)]
  let chunk := Framing.encode none body
  have started : ((initial {} {} called []).runAll [.start, .request "m" none]).isSome := by decide +kernel
  obtain ⟨before, run⟩ := Option.isSome_iff_exists.mp started
  have asked : ((initial {} {} called []).runAll [.start, .request "m" none]).map (fun c =>
      (c.correlator.pending.lookup (.number 1)).isSome) = some true := by decide +kernel
  have answered : (((initial {} {} called []).runAll [.start, .request "m" none]).bind fun c =>
      (c.cancel (.number 1)).2.receive chunk).map (fun c =>
        (c.decoder.next.1, c.correlator.cancelled, c.readNext.isSome, c.contract.validate)) =
          some (some (.body body), [.number 1], true, false) := by decide +kernel
  rw [run] at asked answered
  have pending : (before.correlator.pending.lookup (.number 1)).isSome := Option.some.inj asked
  obtain ⟨c, receives, look⟩ := Option.map_eq_some_iff.mp answered
  simp only [Prod.mk.injEq] at look
  obtain ⟨frame, cancelled, goes, unchecked⟩ := look
  obtain ⟨after, moved⟩ := Option.isSome_iff_exists.mp goes
  have parsed : (Json.read body).toOption = some (.object members) := by decide +kernel
  have parses : Json.read body = .ok (.object members) := by
    cases answer : Json.read body with
    | error _ => simp [answer, Except.toOption] at parsed
    | ok v => simpa [answer, Except.toOption] using parsed
  have acceptable : c.contract.Acceptable members (.number 1) :=
    ⟨by decide, by decide, by simp [unchecked], .inl ⟨by decide, _, rfl⟩⟩
  have first := runs_of_runAll run
  have rest : Runs (before.cancel (.number 1)).2 [.receive chunk] c := .cons receives .nil
  have cancels : before.step (.cancel (.number 1)) = some (before.cancel (.number 1)).2 := rfl
  have silent : (before.cancel (.number 1)).2.operations [.receive chunk] = [] := by
    simp only [operations, moves, List.nil_append]
    split <;> rfl
  obtain ⟨quiet, dropped⟩ := (late_answers_are_dropped none 1 {} {} called []).2 _ _ before c after (.number 1) body
    members first pending rest (by decide) (by simp [silent]) (by simp [silent, Correlator.withdrawn]) moved frame parses
    acceptable
  refine ⟨c, after, body, members, .intro (first.append (.cons cancels rest)), moved, frame, parses, rfl,
    by simp [Shape.Matches, Json.ofInt64], cancelled, quiet, ?_⟩
  rw [dropped, cancelled]
  rfl

end Connection
end DuplexRpc
