import DuplexRpc.Proofs.Connection.Tasks
import DuplexRpc.Proofs.Correlator.Line

namespace DuplexRpc

namespace Correlator
variable {c : Correlator}

theorem offer_receiving (q : Outbound) (m : Message) (standing : Outbound.Standing) :
    (q.offer m standing).2.receiving = q.receiving := by
  rcases q.offer_cases m standing with ⟨_, same⟩ | ⟨_, _, same⟩ | ⟨_, _, same⟩ <;> simp [same, Outbound.enter]

theorem turn_receiving (q : Outbound) (ticket : Nat) : (q.turn ticket).2.receiving = q.receiving := by
  rcases q.turn_cases ticket with ⟨_, _, _, same⟩ | same | same <;>
    simp [same, Outbound.enter, Outbound.remove, Outbound.standInLine]

-- Only the end of the queue's receiver ends it.
theorem move_receiving {m : Move} (stays : m ≠ .act .disconnect) :
    (c.move m).outbound.receiving = c.outbound.receiving := by
  have queues := move_queues c m
  generalize (c.move m).outbound = after at queues ⊢
  cases queues with
  | keeps => rfl
  | offers _ => exact offer_receiving ..
  | passes => exact offer_receiving ..
  | turns => exact turn_receiving ..
  | abandons => exact Outbound.admitNext_receiving _
  | takes taken =>
    obtain ⟨rest, _, rfl⟩ := Outbound.take_cases taken
    exact Outbound.admitNext_receiving _
  | ends => exact absurd rfl stays

theorem moveAll_receiving {moves : List Move} (stays : .act .disconnect ∉ moves) :
    (c.moveAll moves).outbound.receiving = c.outbound.receiving := by
  induction moves generalizing c with
  | nil => rfl
  | cons m rest ih =>
    obtain ⟨here, later⟩ := not_or.mp (List.mem_cons.not.mp stays)
    exact (ih later).trans (move_receiving (Ne.symm here))

end Correlator

namespace Connection
variable {c after : Connection} {action : Action}

-- What a step never changes, and the way the phase goes.
structure Forward (c after : Connection) : Prop where
  config : after.config = c.config
  served : after.served = c.served
  called : after.called = c.called
  handlers : after.handlers = c.handlers
  phase : after.phase = c.phase ∨ c.phase = .created ∧ after.phase = .listening ∨ after.phase = .closed

theorem Forward.refl (c : Connection) : Forward c c := ⟨rfl, rfl, rfl, rfl, .inl rfl⟩

theorem Forward.trans {later : Connection} (one : Forward c after) (two : Forward after later) : Forward c later := by
  refine ⟨two.config.trans one.config, two.served.trans one.served, two.called.trans one.called,
    two.handlers.trans one.handlers, ?_⟩
  rcases two.phase with same | ⟨created, listening⟩ | closed
  · rw [same]
    exact one.phase
  · rcases one.phase with same | ⟨_, other⟩ | other
    · exact .inr (.inl ⟨same.symm.trans created, listening⟩)
    · cases created.symm.trans other
    · cases created.symm.trans other
  · exact .inr (.inr closed)

theorem Forward.contract (forward : Forward c after) : after.contract = c.contract := by
  simp [Connection.contract, forward.served, forward.called, forward.config]

theorem Forward.dispatcher (forward : Forward c after) : after.dispatcher = c.dispatcher := by
  simp [Connection.dispatcher, forward.served, forward.handlers]

theorem step_phase (moved : c.step action = some after) :
    after.phase = c.phase ∨ c.phase = .created ∧ after.phase = .listening ∨ after.phase = .closed := by
  cases action with
  | start =>
    obtain ⟨created, rfl⟩ := start_cases moved
    exact .inr (.inl ⟨created, rfl⟩)
  | close =>
    cases moved
    exact .inr (.inr (close_phase c))
  | readNext =>
    obtain ⟨_, _, item, decoder, _, rfl⟩ := readNext_cases moved
    cases item with
    | fault fault =>
      rw [takeItem_fault]
      dsimp only
      split
      · exact .inr (.inr (close_phase _))
      · exact .inl rfl
    | body body =>
      rw [takeItem_body, takeBody_fields]
      exact .inl rfl
  | readEnd =>
    obtain ⟨_, _, decoder, _, rfl⟩ := readEnd_cases moved
    exact .inr (.inr (close_phase _))
  | failWrite =>
    obtain ⟨_, _, correlator, _, rfl⟩ := failWrite_cases moved
    exact .inr (.inr (close_phase { c with correlator := correlator }))
  | _ => exact .inl ((congrArg phase (step_footprint moved)).trans rfl)

theorem step_forward (moved : c.step action = some after) : Forward c after := by
  have phase := step_phase moved
  rw [step_footprint moved] at phase ⊢
  cases action <;> exact ⟨rfl, rfl, rfl, rfl, phase⟩

theorem runs_forward {origin : Connection} {actions : List Action} (runs : Runs origin actions c) : Forward origin c := by
  induction runs with
  | nil => exact .refl _
  | snoc _ moved ih => exact ih.trans (step_forward moved)

theorem step_open (moved : c.step action = some after) (open' : after.phase ≠ .closed) : c.phase ≠ .closed := by
  intro closed
  rcases (step_forward moved).phase with same | ⟨created, _⟩ | gone
  · exact open' (same.trans closed)
  · cases created.symm.trans closed
  · exact open' gone

theorem takeItem_spent (fault : Framing.Fault) (spent : c.faultBudget ≤ c.faultsInRow + 1) :
    (c.takeItem (.fault fault)).phase = .closed := by
  rw [takeItem_fault]
  dsimp only
  rw [if_pos spent]
  exact close_phase _

-- A frame ends a call of ours or is answered, and does nothing else to the correlator.
theorem bodyMoves_other {other : Correlator.Action} (resolves : ∀ id reply, other ≠ .resolve id reply)
    (fails : ∀ id error, other ≠ .fail id error) (body : List UInt8) : .act other ∉ c.bodyMoves body := by
  unfold bodyMoves
  split
  · unfold faultMoves
    split <;> simp [fails]
  · simp [resolves]
  · simp

theorem closeMoves_stay (started : c.phase ≠ .created) : .act .disconnect ∉ c.closeMoves := by
  unfold closeMoves
  split
  · exact absurd ‹_› started
  · simp
  · simp

-- A connection that was started keeps its queue until the writer stops.
theorem moves_stay_started (moved : c.step action = some after) (writing : action ≠ .stopWriter)
    (sound : action ≠ .failWrite) (started : action = .close → c.phase ≠ .created) :
    .act .disconnect ∉ c.moves action := by
  cases action with
  | stopWriter => exact absurd rfl writing
  | failWrite => exact absurd rfl sound
  | close => exact closeMoves_stay (started rfl)
  | readEnd =>
    obtain ⟨listening, _⟩ := readEnd_cases moved
    exact closeMoves_stay (by simp [listening])
  | readNext =>
    obtain ⟨listening, _, item, decoder, next, _⟩ := readNext_cases moved
    simp only [moves, next]
    cases item with
    | body body => exact bodyMoves_other (by simp) (by simp) body
    | fault fault =>
      simp only [itemMoves]
      split
      · exact closeMoves_stay (by simp [listening])
      · simp
  | request method params => simp only [moves]; split <;> simp
  | notify method params => simp only [moves]; split <;> (try split) <;> simp
  | _ => simp [moves]

theorem moves_stay (moved : c.step action = some after) (open' : after.phase ≠ .closed) :
    .act .disconnect ∉ c.moves action := by
  refine moves_stay_started moved ?_ ?_ ?_
  · rintro rfl
    obtain ⟨_, closed, _, rfl⟩ := stopWriter_cases moved
    exact open' closed
  · rintro rfl
    obtain ⟨_, _, correlator, _, rfl⟩ := failWrite_cases moved
    exact open' (close_phase { c with correlator := correlator })
  · rintro rfl
    cases moved
    exact absurd (close_phase c) open'

-- The queue's receiver stays as long as the connection is open.
theorem step_receiving (moved : c.step action = some after) (open' : after.phase ≠ .closed) :
    after.correlator.outbound.receiving = c.correlator.outbound.receiving := by
  rw [step_correlator moved]
  exact Correlator.moveAll_receiving (moves_stay moved open')

theorem runs_receiving {config : Config} {served called : Registry} {handlers : List (String × MethodKind)}
    {actions : List Action} (runs : Runs (initial config served called handlers) actions c) (open' : c.phase ≠ .closed) :
    c.correlator.outbound.receiving = true := by
  induction runs with
  | nil => rfl
  | snoc _ moved ih => exact (step_receiving moved open').trans (ih (step_open moved open'))

end Connection
end DuplexRpc
