import DuplexRpc.Proofs.Connection.Requests

namespace DuplexRpc

namespace Envelope
variable {body : List UInt8} {members : Members}

-- A frame is a call if it is an object with a method; what the method or the id looks like
-- does not matter.
def Calls (body : List UInt8) : Prop :=
  ∃ members, Json.read body = .ok (.object members) ∧ has members "method" = true

theorem calls_of_object (parses : Json.read body = .ok (.object members)) :
    Calls body ↔ has members "method" = true := by
  constructor
  · rintro ⟨members', parses', calls⟩
    rw [parses] at parses'
    exact (Json.object.inj (Except.ok.inj parses')) ▸ calls
  · exact fun calls => ⟨members, parses, calls⟩

-- A frame is routed by what it claims to be, so a call is never routed as a response.
theorem calls_of_kindOf? {kind : MessageKind} (routed : kindOf? body = some kind) : Calls body ↔ kind ≠ .response := by
  unfold kindOf? at routed
  split at routed
  · rename_i members parses
    cases routed
    rw [calls_of_object parses, Envelope.kind]
    cases has members "method" <;> cases has members "id" <;> simp
  · cases routed

end Envelope

-- A frame that decodes is what it claims to be.
theorem Contract.calls_of_decode {k : Contract} {pending : RequestId → Option String} {body : List UInt8} {m : Message}
    (decoded : k.decode pending body = .ok m) : Envelope.Calls body ↔ m.kind ≠ .response := by
  obtain ⟨members, parses, read⟩ := decode_ok decoded
  rw [Envelope.calls_of_object parses]
  cases calls : Envelope.has members "method" with
  | false =>
    obtain ⟨reply, _, rfl⟩ := decodeResponse_ok (decodeMembers_response calls read)
    simp [Message.kind]
  | true =>
    obtain ⟨method, params, _, _, ⟨id, _, rfl⟩ | ⟨_, rfl⟩⟩ := decodeCall_ok (decodeMembers_call calls read) <;>
      simp [Message.kind]

namespace Connection
variable {c after : Connection} {body : List UInt8}

-- Our requests are as they were.
structure OwnKept (c after : Connection) : Prop where
  pending : after.correlator.pending = c.correlator.pending
  cancelled : after.correlator.cancelled = c.correlator.cancelled
  calls : after.correlator.calls = c.correlator.calls

-- The peer's requests and notifications are as they were, and nothing goes out.
structure PeerKept (c after : Connection) : Prop where
  inFlight : after.inFlight = c.inFlight
  tasks : after.tasks = c.tasks
  notes : after.notes = c.notes
  held : after.held = c.held
  running : after.running = c.running
  outbound : after.correlator.outbound = c.correlator.outbound
  handed : after.handed = c.handed

-- A call answers nothing of ours: at most it is refused, and the refusal handed over.
theorem bodyMoves_call (calls : Envelope.Calls body) :
    c.bodyMoves body = [] ∨ ∃ r, c.bodyMoves body = [.offer (.response r) .arriving] := by
  unfold bodyMoves
  cases decoded : c.contract.decode c.correlator.pendingMethod body with
  | error issue =>
    simp only [faultMoves]
    split
    · exact .inr ⟨_, rfl⟩
    · rename_i routed
      exact absurd rfl ((Envelope.calls_of_kindOf? routed).mp calls)
    · exact .inl rfl
  | ok m =>
    cases m with
    | response r => exact absurd rfl ((Contract.calls_of_decode decoded).mp calls)
    | _ => exact .inl rfl

theorem takeBody_call (calls : Envelope.Calls body) : OwnKept c (c.takeBody body) := by
  have queued : (c.takeBody body).correlator =
      { c.correlator with outbound := (c.takeBody body).correlator.outbound } := by
    rw [takeBody_correlator]
    rcases c.bodyMoves_call calls with idle | ⟨r, refusal⟩
    · rw [idle]
      rfl
    · rw [refusal]
      rfl
  exact ⟨by rw [queued], by rw [queued], by rw [queued]⟩

theorem takeResponse_kept (c : Connection) (r : Response) : PeerKept c (c.takeResponse r) := by
  have outbound : (c.takeResponse r).correlator.outbound = c.correlator.outbound := by
    rw [takeResponse_correlator]
    split
    · rw [Correlator.resolve_fields]
      exact Correlator.settle_outbound ..
    · rfl
  have handed : (c.takeResponse r).handed = c.handed := by
    rw [Connection.handed, takeResponse_log, List.filterMap_append]
    cases r.id with
    | none => simp [Connection.handed, Event.response?]
    | some id => cases (c.correlator.resolve id r.reply).1 <;> simp [Connection.handed, Event.response?]
  refine ⟨?_, takeResponse_tasks c r, ?_, ?_, ?_, outbound, handed⟩ <;>
    (unfold takeResponse; split; rfl; split <;> rfl)

-- What is no call makes no task, tells no handler anything and is not answered.
theorem takeBody_answer (answers : ¬ Envelope.Calls body) : PeerKept c (c.takeBody body) := by
  rcases c.takeBody_cases body with ⟨issue, decoded, same⟩ | ⟨r, decoded, same⟩ | ⟨n, decoded, _, same⟩ |
    ⟨n, decoded, _, same⟩ | ⟨r, decoded, same⟩
  · have handed : (c.report issue).handed = c.handed := by
      simp [Connection.handed, report, record, Event.response?]
    rw [same]
    rcases c.takeFault_cases body issue with ⟨id, _, routed, same⟩ | ⟨id, _, _, same⟩ | ⟨_, same⟩
    · exact absurd ((Envelope.calls_of_kindOf? routed).mpr (by simp)) answers
    · rw [same]
      refine ⟨rfl, rfl, rfl, rfl, rfl, ?_, handed⟩
      rw [Correlator.fail_eq]
      exact Correlator.settle_outbound ..
    · rw [same]
      exact ⟨rfl, rfl, rfl, rfl, rfl, rfl, handed⟩
  · exact absurd ((Contract.calls_of_decode decoded).mpr (by simp [Message.kind])) answers
  · exact absurd ((Contract.calls_of_decode decoded).mpr (by simp [Message.kind])) answers
  · exact absurd ((Contract.calls_of_decode decoded).mpr (by simp [Message.kind])) answers
  · rw [same]
    exact takeResponse_kept c r

-- Both sides number their requests from 1, yet a frame never touches the requests of the
-- other direction: a call leaves ours alone, any other frame those of the peer.
theorem directions_do_not_interfere (moved : c.step .readNext = some after)
    (frame : c.decoder.next.1 = some (.body body)) :
    (Envelope.Calls body → OwnKept c after) ∧ (¬ Envelope.Calls body → PeerKept c after) := by
  obtain ⟨_, _, item, decoder, next, rfl⟩ := readNext_cases moved
  obtain rfl : item = .body body := by simpa [next] using frame
  let handled : Connection := { { c with decoder := decoder }.record (.took (.body body)) with faultsInRow := 0 }
  have handed : handled.handed = c.handed := by simp [handled, Connection.handed, record, Event.response?]
  constructor
  · intro calls
    obtain ⟨pending, cancelled, same⟩ := takeBody_call (c := handled) calls
    exact ⟨pending, cancelled, same⟩
  · intro answers
    obtain ⟨inFlight, tasks, notes, held, running, outbound, still⟩ := takeBody_answer (c := handled) answers
    exact ⟨inFlight, tasks, notes, held, running, outbound, still.trans handed⟩

-- The peer's request and its answer come under one id, 1, which a request of ours has too.
theorem directions_do_not_interfere_shared :
    ∃ (c after later : Connection) (call answer : List UInt8), Reachable c ∧ c.step .readNext = some after ∧
      c.decoder.next.1 = some (.body call) ∧ Envelope.Calls call ∧ after.step .readNext = some later ∧
      after.decoder.next.1 = some (.body answer) ∧ ¬ Envelope.Calls answer ∧
      after.correlator.pending.lookup (.number 1) = some ⟨"m", 0⟩ ∧ later.inFlight.lookup (.number 1) = some 0 := by
  let called : Registry := { methods := [("m", ⟨"m", .request, .any, .any⟩)] }
  -- The bodies are a request object with method "m" and id 1, and an object with id 1 alone.
  let call : List UInt8 := [123, 34, 109, 101, 116, 104, 111, 100, 34, 58, 34, 109, 34, 44, 34, 105, 100, 34, 58, 49, 125]
  let answer : List UInt8 := [123, 34, 105, 100, 34, 58, 49, 125]
  let actions : List Action :=
    [.start, .request "m" none, .receive (Framing.encode none call ++ Framing.encode none answer)]
  have started : ((initial {} {} called []).runAll actions).isSome := by decide +kernel
  obtain ⟨c, run⟩ := Option.isSome_iff_exists.mp started
  have seen : ((initial {} {} called []).runAll actions).bind (fun c => (c.step .readNext).bind fun after =>
      (after.step .readNext).map fun later => (c.decoder.next.1, c.correlator.pending.lookup (.number 1),
        after.decoder.next.1, after.inFlight.lookup (.number 1))) =
      some (some (.body call), some ⟨"m", 0⟩, some (.body answer), some 0) := by decide +kernel
  rw [run, Option.bind_some] at seen
  obtain ⟨after, moved, seen⟩ := Option.bind_eq_some_iff.mp seen
  obtain ⟨later, moved', seen⟩ := Option.map_eq_some_iff.mp seen
  simp only [Prod.mk.injEq] at seen
  obtain ⟨frame, pending, frame', listed⟩ := seen
  have asks : Envelope.Calls call := ⟨[("id", .ofInt64 1), ("method", .string "m")], rfl, rfl⟩
  have parses : Json.read answer = .ok (.object [("id", .ofInt64 1)]) := rfl
  have answers : ¬ Envelope.Calls answer := (Envelope.calls_of_object parses).not.mpr (by decide)
  have own := (directions_do_not_interfere moved frame).1 asks
  have peer := (directions_do_not_interfere moved' frame').2 answers
  exact ⟨c, after, later, call, answer, .intro (runs_of_runAll run), moved, frame, asks, moved', frame', answers,
    own.pending ▸ pending, peer.inFlight ▸ listed⟩

end Connection
end DuplexRpc
