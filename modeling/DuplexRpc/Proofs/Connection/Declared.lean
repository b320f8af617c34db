import DuplexRpc.Proofs.Connection.Phases
import DuplexRpc.Proofs.Connection.Moves
import DuplexRpc.Proofs.Correlator.Order

namespace DuplexRpc

namespace Registry
variable {r : Registry} {method : String} {kind : MethodKind} {error : CallError}

def Declares (r : Registry) (method : String) (kind : MethodKind) : Prop :=
  ∃ spec, r.lookup method = some spec ∧ spec.kind = kind

-- Why a method cannot be called as what it is called.
inductive Refuses (r : Registry) (method : String) (kind : MethodKind) : CallError → Prop where
  | unknown : r.lookup method = none → Refuses r method kind (.unknownMethod method)
  | otherKind {spec : MethodSpec} : r.lookup method = some spec → spec.kind ≠ kind →
      Refuses r method kind (.wrongKind method spec.kind)

theorem refusal?_cases (r : Registry) (method : String) (kind : MethodKind) :
    (r.refusal? method kind = none ∧ r.Declares method kind) ∨
      ∃ error, r.refusal? method kind = some error ∧ r.Refuses method kind error := by
  cases found : r.lookup method with
  | none => exact .inr ⟨_, by simp [refusal?, found], .unknown found⟩
  | some spec =>
    by_cases same : spec.kind = kind
    · exact .inl ⟨by simp [refusal?, found, same], spec, found, same⟩
    · exact .inr ⟨_, by simp [refusal?, found, same], .otherKind found same⟩

theorem Refuses.undeclared (refuses : r.Refuses method kind error) : ¬ r.Declares method kind := by
  rintro ⟨spec, found, same⟩
  cases refuses with
  | unknown absent => cases found.symm.trans absent
  | otherKind other different =>
    rw [Option.some.inj (other.symm.trans found)] at different
    exact different same

theorem Refuses.unique {other : CallError} (refuses : r.Refuses method kind error)
    (refuses' : r.Refuses method kind other) : error = other := by
  cases refuses with
  | unknown absent =>
    cases refuses' with
    | unknown _ => rfl
    | otherKind found _ => cases found.symm.trans absent
  | otherKind found _ =>
    cases refuses' with
    | unknown absent => cases found.symm.trans absent
    | otherKind found' _ => rw [Option.some.inj (found.symm.trans found')]

-- What may be written to a peer: its own methods as what they are declared, its cancel
-- notification, and answers.
def Sanctions (r : Registry) : Message → Prop
  | .request q => r.Declares q.method .request
  | .notification n => r.Declares n.method .notification ∨
      ∃ settings id, r.cancellation = some settings ∧ .notification n = Correlator.cancelNotification settings id
  | .response _ => True

end Registry

namespace Correlator
variable {called : Registry} {c : Correlator} {moves : List Move} {m : Message}

-- A move that makes nothing go out but what the peer may get.
def Move.Within (called : Registry) : Move → Prop
  | .act (.send method _) => called.Declares method .request
  | .offer m _ => called.Sanctions m
  | .act _ => True

theorem offered_sanctioned {move : Move} (told : c.cancellation = called.cancellation) (within : move.Within called)
    (offered : m ∈ c.offered move) : called.Sanctions m := by
  cases move with
  | offer message standing => exact List.mem_singleton.mp offered ▸ within
  | act action =>
    cases action with
    | send method params =>
      simp only [Correlator.offered] at offered
      split at offered
      · cases offered
      · rw [List.mem_singleton.mp offered]
        exact within
    | cancel id =>
      simp only [Correlator.offered, told] at offered
      split at offered
      · rename_i settings _ given
        rw [List.mem_singleton.mp offered]
        exact .inr ⟨settings, id, given, rfl⟩
      · cases offered
    | _ => cases offered

-- What the queue has seen, and what it will see of cancellations.
structure Sanctioned (called : Registry) (c : Correlator) : Prop where
  told : c.cancellation = called.cancellation
  messages : ∀ m ∈ c.outbound.history, called.Sanctions m

theorem Sanctioned.move {move : Move} (sanctioned : Sanctioned called c) (within : move.Within called) :
    Sanctioned called (c.move move) := by
  refine ⟨(move_cancellation c move).trans sanctioned.told, fun m present => ?_⟩
  rcases mem_move_history present with before | now
  · exact sanctioned.messages m before
  · exact offered_sanctioned sanctioned.told within now

theorem Sanctioned.moveAll (sanctioned : Sanctioned called c) (within : ∀ move ∈ moves, move.Within called) :
    Sanctioned called (c.moveAll moves) := by
  induction moves generalizing c with
  | nil => exact sanctioned
  | cons move rest ih =>
    obtain ⟨here, later⟩ := List.forall_mem_cons.mp within
    exact ih (sanctioned.move here) later

end Correlator

namespace Connection
open Correlator (Move Sanctioned)
variable {called : Registry} {c : Connection} {actions : List Action} {method : String} {params : Option Payload}
  {error : CallError}

theorem closeMoves_within (c : Connection) : ∀ move ∈ c.closeMoves, move.Within called := by
  unfold closeMoves
  split <;> simp [Move.Within]

-- A frame of the peer makes nothing go out but a rejection.
theorem bodyMoves_within (c : Connection) (body : List UInt8) : ∀ move ∈ c.bodyMoves body, move.Within called := by
  unfold bodyMoves
  split
  · unfold faultMoves
    split <;> simp [Move.Within, Registry.Sanctions]
  · simp [Move.Within]
  · simp

theorem itemMoves_within (c : Connection) (item : Framing.Item) :
    ∀ move ∈ c.itemMoves item, move.Within called := by
  cases item with
  | body body => exact bodyMoves_within c body
  | fault fault =>
    simp only [itemMoves]
    split
    · exact closeMoves_within c
    · simp

theorem moves_within (c : Connection) (action : Action) : ∀ move ∈ c.moves action, move.Within c.called := by
  cases action with
  | request method params =>
    rcases c.called.refusal?_cases method .request with ⟨none', declared⟩ | ⟨error, some', _⟩
    · simpa [moves, none', Move.Within] using declared
    · simp [moves, some']
  | notify method params =>
    rcases c.called.refusal?_cases method .notification with ⟨none', declared⟩ | ⟨error, some', _⟩
    · simp only [moves, none']
      split
      · simp
      · simpa [Move.Within] using .inl declared
    · simp [moves, some']
  | readNext =>
    simp only [moves]
    split
    · exact itemMoves_within c _
    · simp
  | close | readEnd => exact closeMoves_within c
  | failWrite =>
    intro move present
    rcases List.mem_append.mp present with earlier | last
    · rcases List.mem_cons.mp earlier with rfl | closes
      · trivial
      · exact closeMoves_within c move closes
    · rw [List.mem_singleton.mp last]
      trivial
  | pollTask task handler => simp [moves, Move.Within, Registry.Sanctions]
  | _ => simp [moves, Move.Within]

theorem runs_sanctioned {config : Config} {served : Registry} {handlers : List (String × MethodKind)}
    (runs : Runs (initial config served called handlers) actions c) : Sanctioned called c.correlator := by
  induction runs with
  | nil => exact ⟨rfl, by simp [initial, Correlator.initial, Outbound.history]⟩
  | @snoc before _ _ action earlier moved ih =>
    have same : before.called = called := (runs_forward earlier).called
    rw [step_correlator moved]
    exact ih.moveAll (same ▸ moves_within before action)

-- What comes of a request: it is sent, or it leaves no trace. Once it passes, only the end of
-- the connection refuses it.
inductive Asks (c : Connection) (method : String) (params : Option Payload) : Requesting × Connection → Prop where
  | passes {answer : Requesting} : c.called.Declares method .request →
      (∀ error, answer = .refused error → error = .connectionClosed) →
      Asks c method params (answer, { c with correlator := (c.correlator.send method params).2 })
  | refused {error : CallError} : c.called.Refuses method .request error → Asks c method params (.refused error, c)

theorem Asks.of_refuses {outcome : Requesting × Connection} (asks : Asks c method params outcome)
    (refuses : c.called.Refuses method .request error) : outcome = (.refused error, c) := by
  cases asks with
  | passes declared _ => exact absurd declared refuses.undeclared
  | refused refuses' => rw [refuses'.unique refuses]

theorem request_asks (c : Connection) (method : String) (params : Option Payload) :
    Asks c method params (c.request method params) := by
  rcases c.called.refusal?_cases method .request with ⟨none', declared⟩ | ⟨error, some', refuses⟩
  · have sent : (c.request method params).2 = { c with correlator := (c.correlator.send method params).2 } := by
      rw [request_fields, request_correlator]
      simp only [moves, none']
      rfl
    have answer : ∀ error, (c.request method params).1 = .refused error → error = .connectionClosed := by
      intro error refused
      simp only [request, none'] at refused
      split at refused <;> cases refused
      rfl
    have passes : Asks c method params _ := .passes declared answer
    rwa [← sent] at passes
  · simp only [request, some']
    exact .refused refuses

-- What comes of a notification, which the end of the connection keeps out of the queue.
inductive Tells (c : Connection) (method : String) (params : Option Payload) : Notifying × Connection → Prop where
  | passes {answer : Notifying} : c.called.Declares method .notification → c.correlator.closed = false →
      (∀ error, answer = .refused error → error = .connectionClosed) →
      Tells c method params
        (answer, { c with correlator := (c.correlator.offer (.notification ⟨method, params⟩) .inLine).2 })
  | closed : c.called.Declares method .notification → c.correlator.closed = true →
      Tells c method params (.refused .connectionClosed, c)
  | refused {error : CallError} : c.called.Refuses method .notification error →
      Tells c method params (.refused error, c)

theorem Tells.of_refuses {outcome : Notifying × Connection} (tells : Tells c method params outcome)
    (refuses : c.called.Refuses method .notification error) : outcome = (.refused error, c) := by
  cases tells with
  | passes declared _ _ | closed declared _ => exact absurd declared refuses.undeclared
  | refused refuses' => rw [refuses'.unique refuses]

theorem notify_tells (c : Connection) (method : String) (params : Option Payload) :
    Tells c method params (c.notify method params) := by
  rcases c.called.refusal?_cases method .notification with ⟨none', declared⟩ | ⟨error, some', refuses⟩
  · cases closed : c.correlator.closed with
    | true =>
      simp only [notify, none', closed, if_true]
      exact .closed declared closed
    | false =>
      have sent : (c.notify method params).2 =
          { c with correlator := (c.correlator.offer (.notification ⟨method, params⟩) .inLine).2 } := by
        rw [notify_fields, notify_correlator]
        simp only [moves, none', closed, Bool.false_eq_true, if_false]
        rfl
      have answer : ∀ error, (c.notify method params).1 = .refused error → error = .connectionClosed := by
        intro error refused
        simp only [notify, none', closed, Bool.false_eq_true, if_false] at refused
        split at refused <;> cases refused
        rfl
      have passes : Tells c method params _ := .passes declared closed answer
      rwa [← sent] at passes
  · simp only [notify, some']
    exact .refused refuses

-- Only what the peer declares is called: anything else fails here and leaves everything as it
-- was. So whatever happens, a request that entered the queue, or waits to enter it, is one that the
-- peer declares, and a notification too, if it is not the one by which the peer is told of
-- a cancellation.
theorem declared_methods_are_called {config : Config} {served : Registry} {handlers : List (String × MethodKind)}
    (runs : Runs (initial config served called handlers) actions c) :
    c.called = called ∧
    (∀ method params, Asks c method params (c.request method params)) ∧
    (∀ method params, Tells c method params (c.notify method params)) ∧
    ∀ m ∈ c.correlator.outbound.accepted ++ c.correlator.outbound.waiting.map (·.message), called.Sanctions m :=
  ⟨(runs_forward runs).called, request_asks c, notify_tells c, (runs_sanctioned runs).messages⟩

-- Whatever is asked of a peer that has one method of each kind and a cancel notification.
theorem declared_methods_are_called_each :
    ∃ c : Connection, Reachable c ∧ c.correlator.outbound.accepted = [.request ⟨.number 1, "r", none⟩,
        .notification ⟨"n", none⟩, Correlator.cancelNotification ⟨"x", 0⟩ (.number 1)] ∧
      c.request "n" none = (.refused (.wrongKind "n" .notification), c) ∧
      c.notify "z" none = (.refused (.unknownMethod "z"), c) ∧
      ∀ m ∈ c.correlator.outbound.accepted, c.called.Sanctions m := by
  let called := Registry.ofSteps [.request "r" .any .any, .notification "n" .any, .cancellation ⟨"x", 0⟩]
  let start : Connection := initial {} {} called []
  let actions : List Action := [.start, .request "r" none, .notify "n" none, .cancel (.number 1), .notify "r" none]
  have possible : (start.runAll actions).isSome := by decide +kernel
  obtain ⟨c, run⟩ := Option.isSome_iff_exists.mp possible
  have seen : (start.runAll actions).map (·.correlator.outbound.accepted) = some [.request ⟨.number 1, "r", none⟩,
      .notification ⟨"n", none⟩, Correlator.cancelNotification ⟨"x", 0⟩ (.number 1)] := by decide +kernel
  simp only [run, Option.map_some, Option.some.injEq] at seen
  have runs := runs_of_runAll run
  obtain ⟨same, asks, tells, messages⟩ := declared_methods_are_called runs
  have note : c.called.lookup "n" = some ⟨"n", .notification, .any, .any⟩ := same ▸ rfl
  have absent : c.called.lookup "z" = none := same ▸ rfl
  refine ⟨c, .intro runs, seen, ?_, ?_, fun m present => same ▸ messages m (List.mem_append_left _ present)⟩
  · exact (asks "n" none).of_refuses (.otherKind note (by decide))
  · exact (tells "z" none).of_refuses (.unknown absent)

end Connection
end DuplexRpc
