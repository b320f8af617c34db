import DuplexRpc.Proofs.Connection.Outbox

namespace DuplexRpc.Connection
open Correlator (Move Ledger)
variable {c after : Connection} {action : Action} {actions : List Action} {move : Move} {n sent : Nat} {k k' : Call}
  {outcome : CallOutcome}

-- What ended a call while the connection was open: its own caller, or a frame of the peer
-- that was read while the call was pending.
inductive Origin (c : Connection) (k : Call) : CallOutcome → Prop where
  | cancelled : Origin c k (.error (.cancelled k.id))
  | answered {body pending reply} : body ∈ c.frames → pending k.id = some k.method →
      c.contract.decode pending body = .ok (.response ⟨some k.id, reply⟩) → Origin c k (.ofReply reply)
  | unreadable {body pending issue} : body ∈ c.frames → pending k.id = some k.method →
      c.contract.decode pending body = .error issue → issue.id = some k.id →
      Envelope.kindOf? body = some .response → Origin c k (.error (.invalidResponse issue))

theorem Origin.step (origin : Origin c k outcome) (same : Call.Same k k') (moved : c.step action = some after) :
    Origin after k' outcome := by
  have contract := (step_forward moved).contract
  have frames : ∀ {body}, body ∈ c.frames → body ∈ after.frames := by
    intro body present
    rw [step_frames moved]
    exact List.mem_append_left _ present
  cases origin with
  | cancelled => exact same.id ▸ .cancelled
  | answered present method decoded =>
    exact .answered (frames present) (by rw [same.id, same.method]; exact method)
      (by rw [contract, same.id]; exact decoded)
  | unreadable present method decoded carried routed =>
    exact .unreadable (frames present) (by rw [same.id, same.method]; exact method) (contract ▸ decoded)
      (carried.trans (congrArg some same.id.symm)) routed

theorem read_frame {body : List UInt8} (moved : c.step .readNext = some after)
    (frame : c.decoder.next.1 = some (.body body)) : body ∈ after.frames := by
  rw [step_frames moved]
  simp [frame?, frame]

theorem Does.origin (does : Does c action move) (moved : c.step action = some after)
    (pending : c.correlator.pending.lookup k.id = some ⟨k.method, n⟩) (settles : move.settled k.id = some outcome) :
    Origin after k outcome := by
  have method : c.correlator.pendingMethod k.id = some k.method := by simp [Correlator.pendingMethod, pending]
  have contract := (step_forward moved).contract
  cases does with
  | @cancels id =>
    have settled : (if id = k.id then some (CallOutcome.error (.cancelled k.id)) else none) = some outcome := settles
    split at settled <;> cases settled
    exact .cancelled
  | @resolves body id reply frame decoded =>
    have settled : (if id = k.id then some (CallOutcome.ofReply reply) else none) = some outcome := settles
    split at settled <;> cases settled
    rename_i named
    exact .answered (read_frame moved frame) method (by rw [contract, ← named]; exact decoded)
  | @fails body id issue frame decoded carried routed =>
    have settled : (if id = k.id then some (CallOutcome.error (.invalidResponse issue)) else none) = some outcome :=
      settles
    split at settled <;> cases settled
    rename_i named
    exact .unreadable (read_frame moved frame) method (contract ▸ decoded) (named ▸ carried) routed
  | _ => cases settles

theorem move_new (found : (c.correlator.move move).calls[n]? = some k)
    (new : c.correlator.calls[n]? = none) : k.outcome = none := by
  cases move with
  | act action' =>
    obtain ⟨_, _, _, _, _, _, _, unanswered⟩ := Correlator.step_new found new
    exact unanswered
  | offer m standing => cases new.symm.trans found

theorem runs_origin {config : Config} {served called : Registry} {handlers : List (String × MethodKind)}
    (runs : Runs (initial config served called handlers) actions c) (open' : c.phase ≠ .closed)
    (few : requested actions ≤ 0x10000000000000000) (found : c.correlator.calls[n]? = some k)
    (sentOut : k.stage ≠ .refused) (ended : k.outcome = some outcome) : Origin c k outcome := by
  induction runs generalizing k with
  | nil => simp [initial, Correlator.initial] at found
  | @snoc before after actions action prior moved ih =>
    have total : requested (actions ++ [action]) = requested actions + if action.isRequest then 1 else 0 := by
      simp [requested, List.countP_append, List.countP_singleton]
    rw [total] at few
    have open'' := step_open moved open'
    obtain ⟨sent, bound, outbox⟩ := runs_outbox prior open'' (by omega)
    rcases step_does moved open' with ⟨_, same⟩ | ⟨move, does, correlator⟩
    · exact (ih open'' (by omega) (same ▸ found) sentOut ended).step (.refl k) moved
    · have sends : move.isSend → sent < 0x10000000000000000 := fun sends => by
        rw [if_pos (does.isSend sends)] at few
        omega
      rw [correlator] at found
      cases there : before.correlator.calls[n]? with
      | none => cases (move_new found there).symm.trans ended
      | some k' =>
        obtain ⟨k'', found', carried⟩ := outbox.ledger.move_carried sends there
        obtain rfl : k'' = k := Option.some.inj (found'.symm.trans found)
        obtain ⟨sentOut', outcome'⟩ := carried.outcome sentOut
        cases answer : k'.outcome with
        | some other =>
          obtain rfl : other = outcome := by simpa [answer, ended] using outcome'.symm
          exact (ih open'' (by omega) there sentOut' answer).step carried.same moved
        | none =>
          have pending := outbox.ledger.awaited n k' there sentOut' answer
          have settles : move.settled k'.id = some outcome := by simpa [answer, ended] using outcome'.symm
          have same := carried.same
          refine does.origin moved (n := n) ?_ (same.id ▸ settles)
          rw [same.id, same.method]
          exact pending

end DuplexRpc.Connection
