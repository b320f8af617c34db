import Mathlib.Data.List.Perm.Subperm
import DuplexRpc.Proofs.Connection.Moves

namespace DuplexRpc

def Message.request? : Message → Option Request
  | .request r => some r
  | _ => none

def Message.response? : Message → Option Response
  | .response r => some r
  | _ => none

-- The request that a call sends.
def Call.request (k : Call) : Request := ⟨k.id, k.method, k.params⟩

namespace Outbound
open List (Subperm)

-- All messages that may still be written: those queued, then those whose senders wait.
def line (q : Outbound) : List Message := q.queued ++ q.waiting.map (·.message)

theorem offer_line (q : Outbound) (m : Message) (standing : Standing) :
    Subperm (q.offer m standing).2.line (q.line ++ [m]) := by
  rcases q.offer_cases m standing with ⟨_, same⟩ | ⟨_, _, same⟩ | ⟨_, _, same⟩ <;> rw [same]
  · exact (List.sublist_append_left ..).subperm
  · apply List.Perm.subperm
    simp only [enter, line, List.append_assoc]
    exact List.Perm.append_left _ List.perm_append_comm
  · simp only [line, List.map_append, List.map_cons, List.map_nil, List.append_assoc]
    exact .refl _

theorem remove_line {q : Outbound} {ticket : Nat} {w : Waiter} (present : w ∈ q.waiting) (named : w.ticket = ticket) :
    Subperm (w.message :: (q.remove ticket).waiting.map (·.message)) (q.waiting.map (·.message)) := by
  have parted := List.filter_append_perm (·.ticket = ticket) q.waiting
  have mine : [w.message].Sublist ((q.waiting.filter (·.ticket = ticket)).map (·.message)) :=
    List.singleton_sublist.mpr (List.mem_map_of_mem (List.mem_filter.mpr ⟨present, by simp [named]⟩))
  have both := (mine.append_right ((q.waiting.filter fun w => !decide (w.ticket = ticket)).map (·.message))).subperm
  rw [← List.map_append] at both
  refine Subperm.trans ?_ (both.trans (parted.map _).subperm)
  simp only [remove, ne_eq, decide_not, List.singleton_append]
  exact .refl _

-- A sender that steps into the line changes its place there, and nothing else.
theorem standInLine_messages (q : Outbound) (ticket : Nat) :
    ((q.standInLine ticket).waiting.map (·.message)).Perm (q.waiting.map (·.message)) := by
  have parted := (List.filter_append_perm (·.ticket = ticket) q.waiting).map (·.message)
  refine List.Perm.trans ?_ parted
  simp only [standInLine, remove, List.map_append, List.map_map, ne_eq, decide_not]
  exact List.perm_append_comm

theorem turn_line (q : Outbound) (ticket : Nat) : Subperm (q.turn ticket).2.line q.line := by
  rcases q.turn_cases ticket with ⟨w, present, named, same⟩ | same | same <;> rw [same]
  · have entered := (List.subperm_append_left q.queued).mpr (remove_line present named)
    simpa [enter, line, remove] using entered
  · exact ((standInLine_messages q ticket).append_left q.queued).subperm

theorem abandon_line (q : Outbound) (ticket : Nat) : Subperm (q.abandon ticket).line q.line := by
  rw [abandon, line, admitNext_messages, admitNext_queued]
  exact ((List.filter_sublist.map _).append_left q.queued).subperm

theorem take_line {q after : Outbound} {m : Message} (taken : q.take = some (m, after)) : q.line = m :: after.line := by
  obtain ⟨rest, queued, rfl⟩ := take_cases taken
  rw [line, line, admitNext_messages, admitNext_queued, queued]
  rfl

end Outbound

namespace Correlator
open List (Subperm)
variable {c : Correlator} {m : Message} {sent : Nat} {k : Call} {n : Nat}

-- What a move offers for writing.
def offered (c : Correlator) : Move → List Message
  | .offer m _ => [m]
  | .act (.send method params) =>
    if (c.send method params).1 = .closed then [] else [.request ⟨c.fresh, method, params⟩]
  | .act (.cancel id) => match c.pending.lookup id, c.cancellation with
    | some _, some settings => [cancelNotification settings id]
    | _, _ => []
  | .act _ => []

-- What a move does to the queue.
inductive Queues (c : Correlator) : Move → Outbound → Prop where
  | keeps {move : Move} : Queues c move c.outbound
  | offers {action : Action} {m : Message} : c.offered (.act action) = [m] →
      Queues c (.act action) (c.outbound.offer m .inLine).2
  | passes {m : Message} {standing : Outbound.Standing} : Queues c (.offer m standing) (c.outbound.offer m standing).2
  | turns {ticket : Nat} : Queues c (.act (.turn ticket)) (c.outbound.turn ticket).2
  | abandons {ticket : Nat} : Queues c (.act (.abandon ticket)) (c.outbound.abandon ticket)
  | takes {m : Message} {after : Outbound} : c.outbound.take = some (m, after) → Queues c (.act .take) after
  | ends : Queues c (.act .disconnect) c.outbound.disconnect

theorem send_queues (c : Correlator) (method : String) (params : Option Payload) :
    Queues c (.act (.send method params)) (c.send method params).2.outbound := by
  have same : (c.recorded method).outbound = c.outbound := record_outbound ..
  have offer : c.offered (.act (.send method params)) = [.request ⟨c.fresh, method, params⟩] →
      Queues c (.act (.send method params)) (c.outbound.offer (.request ⟨c.fresh, method, params⟩) .inLine).2 :=
    Queues.offers
  rcases c.send_cases method params with ⟨_, sending⟩ | ⟨_, _, sending⟩ | ⟨_, alive, room, sending⟩ |
    ⟨_, alive, room, sending⟩ <;> simp only [sending]
  · exact .keeps
  · change Queues c _ (c.recorded method).outbound
    rw [same]
    exact .keeps
  · simpa [offered, sending, Outbound.offer, alive, room] using offer
  · simpa [offered, sending, Outbound.offer, alive, room] using offer

theorem turn_outbound (c : Correlator) (ticket : Nat) : (c.turn ticket).outbound = (c.outbound.turn ticket).2 := by
  unfold turn
  split <;> rename_i turned <;> rw [turned]

theorem move_queues (c : Correlator) (move : Move) : Queues c move (c.move move).outbound := by
  cases move with
  | offer m standing => exact .passes
  | act action =>
    cases action with
    | send method params => exact send_queues c method params
    | turn ticket =>
      change Queues c _ (c.turn ticket).outbound
      rw [turn_outbound]
      exact .turns
    | abandon ticket => exact .abandons
    | resolve id reply =>
      change Queues c _ (c.resolve id reply).2.outbound
      rw [resolve_fields, settle_outbound]
      exact .keeps
    | fail id error =>
      change Queues c _ (c.fail id error).2.outbound
      rw [fail_eq, settle_outbound]
      exact .keeps
    | cancel id =>
      change Queues c _ (c.cancel id).2.outbound
      rcases c.cancel_outbound id with same | ⟨entry, settings, pending, told, same⟩ <;> rw [same]
      · exact .keeps
      · exact .offers (by simp only [offered, pending, told])
    | failAll =>
      change Queues c _ c.failAll.2.outbound
      rw [failAll_eq]
      exact .keeps
    | take =>
      change Queues c _ (c.step .take).outbound
      rcases c.step_take with ⟨_, same⟩ | ⟨_, _, taken, same⟩ <;> rw [same]
      · exact .keeps
      · exact .takes (take_outbound taken)
    | disconnect => exact .ends
    | poll call =>
      change Queues c _ (c.poll call).2.outbound
      rw [poll_fields]
      exact .keeps
    | forget call => exact .keeps

theorem move_line (c : Correlator) (move : Move) :
    Subperm (c.move move).outbound.line (c.outbound.line ++ c.offered move) := by
  have less : ∀ {q : Outbound}, Subperm q.line c.outbound.line → Subperm q.line (c.outbound.line ++ c.offered move) :=
    fun fewer => fewer.trans (List.sublist_append_left ..).subperm
  have queues := move_queues c move
  generalize (c.move move).outbound = after at queues ⊢
  cases queues with
  | keeps => exact less (.refl _)
  | offers offered =>
    rw [offered]
    exact Outbound.offer_line ..
  | passes => exact Outbound.offer_line ..
  | turns => exact less (Outbound.turn_line ..)
  | abandons => exact less (Outbound.abandon_line ..)
  | takes taken =>
    apply less
    rw [Outbound.take_line taken]
    exact (List.sublist_cons_self ..).subperm
  | ends => exact less List.nil_subperm

def Move.isSend : Move → Bool
  | .act action => action.isSend
  | .offer .. => false

-- The outcome that a move gives to the call with an id, if it ends that call.
def Move.settled (id : RequestId) : Move → Option CallOutcome
  | .act action => Correlator.settled id action
  | .offer .. => none

-- Requests go out by a send, never past the table.
def Move.IsPlain (move : Move) : Prop := ∀ r standing, move ≠ .offer (.request r) standing

theorem Ledger.offer (ledger : Ledger c sent) (plain : ∀ r, m ≠ .request r) (standing : Outbound.Standing) :
    Ledger (c.offer m standing).2 sent := by
  refine ⟨offer_linked ledger.linked m standing, ledger.counted, ledger.ids, ledger.apart, ?_, ledger.awaited⟩
  intro w present r asks
  rcases mem_offer (q := c.outbound) present with old | new
  · exact ledger.lines w old r asks
  · exact absurd (new.symm.trans asks) (plain r)

theorem Ledger.move {move : Move} (ledger : Ledger c sent) (plain : move.IsPlain)
    (few : move.isSend → sent < 0x10000000000000000) : Ledger (c.move move) (sent + if move.isSend then 1 else 0) := by
  cases move with
  | act action => exact ledger.step few
  | offer m standing => exact ledger.offer (fun r same => plain r standing (same ▸ rfl)) standing

-- What a move leaves of a call.
structure Move.Carried (move : Move) (k k' : Call) : Prop where
  same : Call.Same k k'
  accepted : k.stage = .accepted → k'.stage = .accepted
  outcome : k'.stage ≠ .refused → k.stage ≠ .refused ∧ k'.outcome = (k.outcome <|> move.settled k.id)

theorem Ledger.move_carried {move : Move} (ledger : Ledger c sent) (few : move.isSend → sent < 0x10000000000000000)
    (found : c.calls[n]? = some k) : ∃ k', (c.move move).calls[n]? = some k' ∧ move.Carried k k' := by
  cases move with
  | act action =>
    obtain ⟨k', found', same, carried⟩ := ledger.step_carried action few found
    exact ⟨k', found', same, carried.accepted, carried.outcome⟩
  | offer m standing =>
    refine ⟨k, found, .refl k, id, fun sentOut => ⟨sentOut, ?_⟩⟩
    cases k.outcome <;> rfl

-- A send that is not refused makes a call of what it offers.
theorem Ledger.send_requests (ledger : Ledger c sent) (few : sent < 0x10000000000000000) (method : String)
    (params : Option Payload) :
    (c.send method params).2.calls.map Call.request =
      c.calls.map Call.request ++ (c.offered (.act (.send method params))).filterMap Message.request? := by
  have kept := recorded_calls (ledger.fresh_absent few) method
  rcases c.send_cases method params with ⟨_, sending⟩ | ⟨_, _, sending⟩ | ⟨_, _, _, sending⟩ | ⟨_, _, _, sending⟩ <;>
    simp [offered, sending, kept, forgetPending, Call.request, Message.request?]

theorem Ledger.move_requests {move : Move} (ledger : Ledger c sent) (plain : move.IsPlain)
    (few : move.isSend → sent < 0x10000000000000000) :
    Subperm (c.calls.map Call.request ++ (c.offered move).filterMap Message.request?)
      ((c.move move).calls.map Call.request) := by
  have later : c.calls.map Call.request <+: (c.move move).calls.map Call.request := by
    apply List.prefix_iff_getElem?.mpr
    intro n bound
    rw [List.length_map] at bound
    obtain ⟨k', found', carried⟩ := ledger.move_carried few (List.getElem?_eq_getElem bound)
    have same := carried.same
    simp [found', Call.request, same.id, same.method, same.params]
  have silent : (c.offered move).filterMap Message.request? = [] → Subperm
      (c.calls.map Call.request ++ (c.offered move).filterMap Message.request?)
      ((c.move move).calls.map Call.request) := by
    intro nothing
    rw [nothing, List.append_nil]
    exact later.sublist.subperm
  cases move with
  | offer m standing =>
    apply silent
    cases m with
    | request r => exact absurd rfl (plain r standing)
    | _ => rfl
  | act action =>
    cases action with
    | send method params =>
      rw [← ledger.send_requests (few rfl)]
      exact .refl _
    | cancel id =>
      apply silent
      simp only [offered]
      split <;> rfl
    | _ => exact silent rfl

end Correlator
end DuplexRpc
