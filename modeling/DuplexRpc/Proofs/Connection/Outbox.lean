import DuplexRpc.Proofs.Connection.Stream
import DuplexRpc.Proofs.Correlator.Line

namespace DuplexRpc.Connection
open Correlator (Move Ledger)
open List (Subperm)
variable {c after : Connection} {action : Action} {actions : List Action} {move : Move} {m : Message} {n sent : Nat}
  {k : Call}

-- The one thing that an action of an open connection does to its correlator.
inductive Does (c : Connection) : Action → Move → Prop where
  | answers {action r} : c.caused action = some r → Does c action (.offer (.response r) .arriving)
  | notifies {method params} : Does c (.notify method params) (.offer (.notification ⟨method, params⟩) .inLine)
  | asks {method params} : Does c (.request method params) (.act (.send method params))
  | cancels {id} : Does c (.cancel id) (.act (.cancel id))
  | resolves {body id reply} : c.decoder.next.1 = some (.body body) →
      c.contract.decode c.correlator.pendingMethod body = .ok (.response ⟨some id, reply⟩) →
      Does c .readNext (.act (.resolve id reply))
  | fails {body id issue} : c.decoder.next.1 = some (.body body) →
      c.contract.decode c.correlator.pendingMethod body = .error issue → issue.id = some id →
      Envelope.kindOf? body = some .response → Does c .readNext (.act (.fail id (.invalidResponse issue)))
  | writes : Does c .write (.act .take)
  | turns {ticket} : Does c (.turn ticket) (.act (.turn ticket))
  | abandons {ticket} : Does c (.abandon ticket) (.act (.abandon ticket))
  | looks {call} : Does c (.pollCall call) (.act (.poll call))
  | forgets {call} : Does c (.forgetCall call) (.act (.forget call))

theorem bodyMoves_does {body : List UInt8} (frame : c.decoder.next.1 = some (.body body)) :
    c.bodyMoves body = [] ∨ ∃ move, c.bodyMoves body = [move] ∧ Does c .readNext move := by
  unfold bodyMoves
  cases decoded : c.contract.decode c.correlator.pendingMethod body with
  | error issue =>
    simp only [faultMoves]
    split
    · rename_i id carried routed
      have claims := (claim?_iff_routed decoded).mpr ⟨carried, routed⟩
      exact .inr ⟨_, rfl, .answers (by simp [caused, frame, claims, decoded])⟩
    · rename_i id carried routed
      exact .inr ⟨_, rfl, .fails frame decoded carried routed⟩
    · exact .inl rfl
  | ok m =>
    rcases m with r | note | ⟨_ | id, reply⟩
    · exact .inl rfl
    · exact .inl rfl
    · exact .inl rfl
    · exact .inr ⟨_, rfl, .resolves frame decoded⟩

theorem moves_does (moved : c.step action = some after) (open' : after.phase ≠ .closed) :
    c.moves action = [] ∨ ∃ move, c.moves action = [move] ∧ Does c action move := by
  cases action with
  | start | receive chunk | queueHeld | takeNote | endNote | signalOwn task => exact .inl rfl
  | close =>
    cases moved
    exact absurd (close_phase c) open'
  | readEnd =>
    obtain ⟨_, _, decoder, _, rfl⟩ := readEnd_cases moved
    exact absurd (close_phase _) open'
  | failWrite =>
    obtain ⟨_, _, correlator, _, rfl⟩ := failWrite_cases moved
    exact absurd (close_phase { c with correlator := correlator }) open'
  | stopWriter =>
    obtain ⟨_, closed, _, rfl⟩ := stopWriter_cases moved
    exact absurd closed open'
  | readNext =>
    obtain ⟨_, _, item, decoder, next, rfl⟩ := readNext_cases moved
    simp only [moves, next]
    cases item with
    | body body => exact bodyMoves_does (by rw [next])
    | fault fault =>
      refine .inl ?_
      simp only [itemMoves]
      split
      · rename_i spent
        exact (open' (takeItem_spent fault spent)).elim
      · rfl
  | pollTask task handler =>
    simp only [moves]
    cases answer : c.answered? task handler with
    | none => exact .inl rfl
    | some r => exact .inr ⟨_, rfl, .answers answer⟩
  | write => exact .inr ⟨_, rfl, .writes⟩
  | turn ticket => exact .inr ⟨_, rfl, .turns⟩
  | abandon ticket => exact .inr ⟨_, rfl, .abandons⟩
  | request method params =>
    simp only [moves]
    split
    · exact .inl rfl
    · exact .inr ⟨_, rfl, .asks⟩
  | notify method params =>
    simp only [moves]
    repeat' split
    · exact .inl rfl
    · exact .inl rfl
    · exact .inr ⟨_, rfl, .notifies⟩
  | cancel id => exact .inr ⟨_, rfl, .cancels⟩
  | pollCall call => exact .inr ⟨_, rfl, .looks⟩
  | forgetCall call => exact .inr ⟨_, rfl, .forgets⟩

theorem step_does (moved : c.step action = some after) (open' : after.phase ≠ .closed) :
    (c.moves action = [] ∧ after.correlator = c.correlator) ∨
    ∃ move, Does c action move ∧ after.correlator = c.correlator.move move := by
  have correlator := step_correlator moved
  rcases moves_does moved open' with none' | ⟨move, one, does⟩
  · exact .inl ⟨none', by rw [correlator, none']; rfl⟩
  · exact .inr ⟨move, does, by rw [correlator, one]; rfl⟩

theorem Does.plain (does : Does c action move) : move.IsPlain := by
  intro r standing other
  cases does <;> cases other

def Action.isRequest : Action → Bool
  | .request .. => true
  | _ => false

def requested (actions : List Action) : Nat := actions.countP (·.isRequest)

theorem Does.isSend (does : Does c action move) (sends : move.isSend) : action.isRequest := by
  cases does <;> first | rfl | cases sends

-- A response is offered exactly by the action that causes it.
theorem Does.responses (does : Does c action move) :
    (c.correlator.offered move).filterMap Message.response? = (c.caused action).toList := by
  cases does with
  | answers handedOver => rw [handedOver]; rfl
  | asks =>
    simp only [Correlator.offered]
    split <;> rfl
  | cancels =>
    simp only [Correlator.offered]
    split <;> rfl
  | resolves frame decoded =>
    have nothing : c.caused .readNext = none := by
      simp only [caused, frame, decoded]
      cases Envelope.claim? _ <;> rfl
    rw [nothing]
    rfl
  | @fails body id issue frame decoded carried routed =>
    have claims : Envelope.claim? body = none := by
      cases claims : Envelope.claim? body with
      | none => rfl
      | some other => cases routed.symm.trans ((claim?_iff_routed decoded).mp claims).2
    have nothing : c.caused .readNext = none := by simp [caused, frame, claims]
    rw [nothing]
    rfl
  | _ => rfl

-- All messages that were written and all that may still be.
def sending (c : Connection) : List Message := c.wrote ++ c.correlator.outbound.line

theorem wrote?_of_quiet (nothing : c.moves action = []) : c.wrote? action = none := by
  cases action <;> first | rfl | cases nothing

theorem Does.sending (does : Does c action move) (moved : c.step action = some after)
    (correlator : after.correlator = c.correlator.move move) :
    Subperm after.sending (c.sending ++ c.correlator.offered move) := by
  rw [Connection.sending, step_wrote moved, Connection.sending, List.append_assoc, List.append_assoc]
  refine (List.subperm_append_left _).mpr ?_
  have unwritten : c.wrote? action = none → Subperm ((c.wrote? action).toList ++ after.correlator.outbound.line)
      (c.correlator.outbound.line ++ c.correlator.offered move) := by
    intro none'
    rw [none', correlator]
    exact c.correlator.move_line move
  cases does with
  | writes =>
    obtain ⟨_, m, correlator', taken, rfl⟩ := write_cases moved
    obtain ⟨⟨m', outbound⟩, out, same⟩ := Option.map_eq_some_iff.mp taken
    obtain ⟨rfl, rfl⟩ := Prod.mk.inj same
    obtain ⟨rest, queued, _⟩ := Correlator.queued_of_take taken
    rw [Outbound.take_line out]
    simp only [wrote?, queued, Correlator.offered, List.append_nil]
    exact .refl _
  | answers handedOver =>
    apply unwritten
    cases action <;> first | rfl | cases handedOver
  | _ => exact unwritten rfl

theorem subperm_filterMap {α β : Type} (f : α → Option β) {one two : List α} (less : Subperm one two) :
    Subperm (one.filterMap f) (two.filterMap f) := by
  obtain ⟨middle, perm, sub⟩ := less
  exact ⟨middle.filterMap f, perm.filterMap f, sub.filterMap f⟩

-- What is on its way after an action was on its way before or is offered by the action.
theorem step_sending (moved : c.step action = some after) (open' : after.phase ≠ .closed) :
    (c.moves action = [] ∧ after.correlator = c.correlator ∧ c.caused action = none ∧ after.sending = c.sending) ∨
    ∃ move, Does c action move ∧ after.correlator = c.correlator.move move ∧
      Subperm after.sending (c.sending ++ c.correlator.offered move) := by
  rcases step_does moved open' with ⟨nothing, same⟩ | ⟨move, does, correlator⟩
  · refine .inl ⟨nothing, same, ?_, ?_⟩
    · cases handedOver : c.caused action with
      | none => rfl
      | some r => cases nothing.symm.trans (caused_moves handedOver)
    · rw [Connection.sending, step_wrote moved, wrote?_of_quiet nothing, same]
      simp [Connection.sending]
  · exact .inr ⟨move, does, correlator, does.sending moved correlator⟩

-- Every response on its way was handed over, and none is on its way twice.
theorem runs_responses {config : Config} {served called : Registry} {handlers : List (String × MethodKind)}
    (runs : Runs (initial config served called handlers) actions c) (open' : c.phase ≠ .closed) :
    Subperm (c.sending.filterMap Message.response?) c.handed := by
  induction runs with
  | nil => exact List.nil_subperm
  | @snoc before after actions action prior moved ih =>
    have open'' := step_open moved open'
    rw [step_handed (runs_receiving prior open'') moved]
    rcases step_sending moved open' with ⟨_, _, uncaused, sending⟩ | ⟨move, does, _, sending⟩
    · rw [sending, uncaused, Option.toList_none, List.append_nil]
      exact ih open''
    · have responses := subperm_filterMap Message.response? sending
      rw [List.filterMap_append, does.responses] at responses
      exact responses.trans ((List.subperm_append_right _).mpr (ih open''))

-- Every request on its way is that of a call, and none is on its way twice.
structure Outbox (c : Connection) (sent : Nat) : Prop where
  ledger : Ledger c.correlator sent
  requests : Subperm (c.sending.filterMap Message.request?) (c.correlator.calls.map Call.request)

theorem initial_outbox (config : Config) (served called : Registry) (handlers : List (String × MethodKind)) :
    Outbox (initial config served called handlers) 0 :=
  ⟨Correlator.initial_ledger .., List.nil_subperm⟩

theorem step_outbox (outbox : Outbox c sent) (moved : c.step action = some after) (open' : after.phase ≠ .closed)
    (few : action.isRequest → sent < 0x10000000000000000) :
    ∃ sent' ≤ sent + (if action.isRequest then 1 else 0), Outbox after sent' := by
  rcases step_sending moved open' with ⟨_, same, _, sending⟩ | ⟨move, does, correlator, sending⟩
  · refine ⟨sent, Nat.le_add_right .., same ▸ outbox.ledger, ?_⟩
    rw [sending, same]
    exact outbox.requests
  · have sends : move.isSend → sent < 0x10000000000000000 := fun sends => few (does.isSend sends)
    refine ⟨sent + if move.isSend then 1 else 0, ?_, ?_, ?_⟩
    · have asked := does.isSend
      split <;> split <;> simp_all
    · rw [correlator]
      exact outbox.ledger.move does.plain sends
    · have requests := subperm_filterMap Message.request? sending
      rw [List.filterMap_append] at requests
      rw [correlator]
      exact (requests.trans ((List.subperm_append_right _).mpr outbox.requests)).trans
        (outbox.ledger.move_requests does.plain sends)

theorem runs_outbox {config : Config} {served called : Registry} {handlers : List (String × MethodKind)}
    (runs : Runs (initial config served called handlers) actions c) (open' : c.phase ≠ .closed)
    (few : requested actions ≤ 0x10000000000000000) : ∃ sent ≤ requested actions, Outbox c sent := by
  induction runs with
  | nil => exact ⟨0, Nat.zero_le _, initial_outbox ..⟩
  | @snoc before after actions action prior moved ih =>
    have total : requested (actions ++ [action]) = requested actions + if action.isRequest then 1 else 0 := by
      simp [requested, List.countP_append, List.countP_singleton]
    rw [total] at few ⊢
    have open'' := step_open moved open'
    obtain ⟨sent, bound, outbox⟩ := ih open'' (by omega)
    obtain ⟨sent', bound', outbox'⟩ := step_outbox outbox moved open' fun asks => by
      rw [if_pos asks] at few
      omega
    exact ⟨sent', by omega, outbox'⟩

end DuplexRpc.Connection
