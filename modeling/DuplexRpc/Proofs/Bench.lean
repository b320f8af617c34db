import DuplexRpc.Handler.Bench
import DuplexRpc.Proofs.Verdict

namespace DuplexRpc.Bench
open Dispatcher (Event Progress Service)
variable {b : Bench} {slot n : Nat} {r : Request} {plan : Option (Plan Outcome)} {cancelled : Bool} {work : Work}
  {s : Slot}

-- What is done to a bench from outside, one message to a slot.
inductive Operation where
  | start (message : Message) (cancelled : Bool)
  | cancel (slot : Nat)
  | release (permits : Nat)
  | poll (slot : Nat)

def operate (b : Bench) : Operation → Bench
  | .start message cancelled => b.start message cancelled
  | .cancel slot => b.cancel slot
  | .release permits => b.release permits
  | .poll slot => (b.poll slot).2

-- What an operation is to the request in a slot.
def event? (slot : Nat) : Operation → Option Event
  | .cancel n => if n = slot then some .cancel else none
  | .poll n => if n = slot then some .poll else none
  | _ => none

def answer? (b : Bench) (slot : Nat) : Operation → Option Response
  | .poll n => if n = slot then match (b.poll n).1 with
      | .answer response => some response
      | _ => none
    else none
  | _ => none

-- The responses that the polls of a slot give.
def answers (slot : Nat) (b : Bench) : List Operation → List Response
  | [] => []
  | operation :: rest => (b.answer? slot operation).toList ++ answers slot (b.operate operation) rest

-- A scripted handler as a machine. Its state is what it has still to do, and the gate as each of its
-- polls will find it: others come and go there meanwhile.
def machine (scripts : Scripts) (slot : Nat) (r : Request) :
    Option (Plan Outcome) × List (Gate Nat) → Bool → Progress (Option (Plan Outcome) × List (Gate Nat))
  | (plan, []), _ => .pending (plan, [])
  | (plan, gate :: gates), cancelled =>
    let plan := plan <|> scripts.requestPlan? r cancelled
    match plan.bind fun plan => (plan.poll gate slot cancelled).1 with
    | some outcome => .ended outcome
    | none => .pending (plan, gates)

-- The gate as the polls of a slot find it.
def gatesFound (slot : Nat) (b : Bench) : List Operation → List (Gate Nat)
  | [] => []
  | operation :: rest =>
    let later := gatesFound slot (b.operate operation) rest
    if event? slot operation = some .poll then b.gate :: later else later

-- The slot of a request that is served, before and after its answer.
def Holds (b : Bench) (slot : Nat) (r : Request) (s : Service (Option (Plan Outcome) × List (Gate Nat))) : Prop :=
  b.slots[slot]? = some ⟨if s.answers = [] then .request r s.state.1 else .finished, s.cancelled⟩

theorem setWork_get (b : Bench) (slot n : Nat) (work : Work) :
    (b.setWork slot work).slots[n]? = (b.slots[n]?).map fun s => if slot = n then { s with work := work } else s := by
  simp only [setWork, List.getElem?_modify]
  rfl

-- A poll that runs the handler passes on what it yields; one that does not answers by itself.
theorem poll_of_runs {d : Dispatcher} (runs : d.runsHandler r cancelled = true) (handler : Option Outcome) :
    d.poll r cancelled handler = handler.map fun outcome => ⟨some r.id, outcome.reply⟩ := by
  simp only [Dispatcher.runsHandler, Dispatcher.preempts, Bool.and_eq_true, Bool.not_eq_true', Bool.and_eq_false_iff] at runs
  obtain ⟨served, calm⟩ := runs
  cases cancelled <;> cases declared : d.cancellation <;> simp_all [Dispatcher.poll]

theorem poll_of_idle {d : Dispatcher} (idle : d.runsHandler r cancelled = false) :
    ∃ response, d.poll r cancelled none = some response := by
  simp only [Dispatcher.runsHandler, Dispatcher.preempts, Bool.and_eq_false_iff, Bool.not_eq_false', Bool.and_eq_true] at idle
  cases served : d.serves .request r.method with
  | false => exact ⟨_, by simp [Dispatcher.poll, served]; rfl⟩
  | true =>
    cases declared : d.cancellation with
    | none => simp [served, declared] at idle
    | some settings =>
      obtain rfl : cancelled = true := by simpa [served, declared] using idle
      exact ⟨_, by simp [Dispatcher.poll, served, declared]; rfl⟩

-- What a poll of the bench answers, the dispatcher answers of the handler's machine.
theorem pollRequest_serves (found : b.slots[slot]? = some ⟨work, cancelled⟩) (plan : Option (Plan Outcome))
    (gates : List (Gate Nat)) (runs : Nat) :
    let after := b.dispatcher.serve (machine b.scripts slot r) r ⟨(plan, b.gate :: gates), cancelled, runs, []⟩ .poll
    let polled := b.pollRequest slot r plan cancelled
    Holds polled.2 slot r after ∧ (after.answers = [] → after.state.2 = gates) ∧
      after.answers = match polled.1 with
        | .answer response => [response]
        | _ => [] := by
  have finishes (gate : Gate Nat) (next : Work) : ({ b with gate := gate }.setWork slot next).slots[slot]? =
      some ⟨next, cancelled⟩ := by
    rw [setWork_get]
    simp [found]
  have same (gate : Gate Nat) : ({ b with gate := gate } : Bench).dispatcher = b.dispatcher := rfl
  dsimp only
  cases ran : b.dispatcher.runsHandler r cancelled with
  | false =>
    obtain ⟨response, answer⟩ := poll_of_idle ran
    simp only [pollRequest, same, ran, Dispatcher.serve, answer, Holds]
    simp [answer, finishes]
  | true =>
    have passes := poll_of_runs (r := r) ran
    simp only [pollRequest, same, ran, Dispatcher.serve, passes, Holds, machine]
    cases plan <|> b.scripts.requestPlan? r cancelled with
    | none => simp [finishes]
    | some plan =>
      rcases polled : plan.poll b.gate slot cancelled with ⟨_ | outcome, gate⟩ <;>
        simp [polled, finishes]

-- A poll touches the gate, the notes and the work of its own slot.
theorem pollRequest_touches (b : Bench) (slot : Nat) (r : Request) (plan : Option (Plan Outcome)) (cancelled : Bool) :
    ∃ gate notes work, (b.pollRequest slot r plan cancelled).2 = { b with gate := gate, notes := notes }.setWork slot work := by
  dsimp only [pollRequest]
  split <;> exact ⟨_, _, _, rfl⟩

theorem pollNotification_touches (b : Bench) (slot : Nat) (n : Notification) (plan : Option (Plan (Option Note)))
    (cancelled : Bool) :
    ∃ gate notes work, (b.pollNotification slot n plan cancelled).2 =
      { b with gate := gate, notes := notes }.setWork slot work := by
  dsimp only [pollNotification]
  split <;> exact ⟨_, _, _, rfl⟩

theorem poll_cases (b : Bench) (slot : Nat) : (b.poll slot).2 = b ∨
    ∃ gate notes work, (b.poll slot).2 = { b with gate := gate, notes := notes }.setWork slot work := by
  rw [poll]
  cases b.slots[slot]? with
  | none => exact .inl rfl
  | some s =>
    rcases s with ⟨work, cancelled⟩
    cases work with
    | finished => exact .inl rfl
    | response => exact .inr ⟨b.gate, b.notes, .finished, rfl⟩
    | request r plan => exact .inr (pollRequest_touches b slot r plan cancelled)
    | notification n plan => exact .inr (pollNotification_touches b slot n plan cancelled)

theorem poll_settings (b : Bench) (slot : Nat) :
    (b.poll slot).2.scripts = b.scripts ∧ (b.poll slot).2.cancellation = b.cancellation := by
  obtain same | ⟨gate, notes, work, polled⟩ := poll_cases b slot
  · rw [same]
    exact ⟨rfl, rfl⟩
  · rw [polled]
    exact ⟨rfl, rfl⟩

theorem operate_settings (b : Bench) (operation : Operation) :
    (b.operate operation).scripts = b.scripts ∧ (b.operate operation).cancellation = b.cancellation := by
  cases operation with
  | poll slot => exact poll_settings b slot
  | _ => exact ⟨rfl, rfl⟩

theorem operate_dispatcher (b : Bench) (operation : Operation) : (b.operate operation).dispatcher = b.dispatcher := by
  obtain ⟨scripts, cancellation⟩ := operate_settings b operation
  rw [dispatcher, scripts, cancellation]
  rfl

theorem poll_other (other : n ≠ slot) (b : Bench) : (b.poll n).2.slots[slot]? = b.slots[slot]? := by
  obtain same | ⟨gate, notes, work, polled⟩ := poll_cases b n
  · rw [same]
  · rw [polled, setWork_get]
    simp [other]

-- What is done to the other slots leaves this one alone.
theorem operate_elsewhere {operation : Operation} (other : event? slot operation = none) (found : b.slots[slot]? = some s) :
    (b.operate operation).slots[slot]? = some s ∧ b.answer? slot operation = none := by
  cases operation with
  | start message cancelled =>
    exact ⟨(List.getElem?_append_left (List.getElem?_eq_some_iff.mp found).1).trans found, rfl⟩
  | release permits => exact ⟨found, rfl⟩
  | cancel n =>
    have apart : n ≠ slot := by simpa [event?] using other
    simp [operate, cancel, apart, found, answer?]
  | poll n =>
    have apart : n ≠ slot := by simpa [event?] using other
    exact ⟨(poll_other apart b).trans found, if_neg apart⟩

theorem cancel_get (found : b.slots[slot]? = some s) : (b.cancel slot).slots[slot]? = some { s with cancelled := true } := by
  simp [cancel, found]

theorem event?_cases (slot : Nat) (operation : Operation) :
    event? slot operation = none ∨ operation = .cancel slot ∨ operation = .poll slot := by
  cases operation with
  | cancel n | poll n => by_cases here : n = slot <;> simp [event?, here]
  | _ => exact .inl rfl

-- A slot that is finished answers no more.
theorem answers_finished (operations : List Operation) (found : b.slots[slot]? = some ⟨.finished, cancelled⟩) :
    answers slot b operations = [] := by
  induction operations generalizing b cancelled with
  | nil => rfl
  | cons operation rest ih =>
    rw [answers]
    rcases event?_cases slot operation with other | rfl | rfl
    · obtain ⟨still, silent⟩ := operate_elsewhere other found
      rw [silent, ih still]
      rfl
    · exact ih (cancel_get found)
    · have taken : b.poll slot = (.taken, b) := by simp [poll, found]
      have silent : b.answer? slot (.poll slot) = none := by simp [answer?, taken]
      rw [silent, operate, taken, ih found]
      rfl

-- Whatever is done to a bench, the polls of a request answer what the dispatcher answers for the
-- machine of its handler, event by event.
theorem answers_serveAll (operations : List Operation) (runs : Nat)
    (found : b.slots[slot]? = some ⟨.request r plan, cancelled⟩) :
    (b.dispatcher.serveAll (machine b.scripts slot r) r ⟨(plan, gatesFound slot b operations), cancelled, runs, []⟩
      (operations.filterMap (event? slot))).answers = answers slot b operations := by
  induction operations generalizing b plan cancelled runs with
  | nil => rfl
  | cons operation rest ih =>
    have scripts := (operate_settings b operation).1
    have same := operate_dispatcher b operation
    rw [answers, gatesFound]
    rcases event?_cases slot operation with other | rfl | rfl
    · obtain ⟨still, silent⟩ := operate_elsewhere other found
      have later := ih runs still
      rw [same, scripts] at later
      rw [List.filterMap_cons_none other, if_neg (by simp [other]), later, silent]
      rfl
    · have signalled : event? slot (.cancel slot) = some .cancel := if_pos rfl
      have later := ih runs (b := b.operate (.cancel slot)) (cancel_get found)
      rw [same, scripts] at later
      rw [List.filterMap_cons_some signalled, if_neg (by simp [signalled]), Dispatcher.serveAll_cons]
      exact later
    · have heard : event? slot (.poll slot) = some .poll := if_pos rfl
      have polled : b.poll slot = b.pollRequest slot r plan cancelled := by simp [poll, found]
      obtain ⟨holds, kept, given⟩ := pollRequest_serves found plan
        (gatesFound slot (b.operate (.poll slot)) rest) runs
      have answer : (b.answer? slot (.poll slot)).toList = match (b.pollRequest slot r plan cancelled).1 with
          | .answer response => [response]
          | _ => [] := by
        rw [answer?, if_pos rfl, polled]
        cases (b.pollRequest slot r plan cancelled).1 <;> rfl
      rw [← polled] at holds
      change (b.operate (.poll slot)).Holds slot r _ at holds
      rw [List.filterMap_cons_some heard, if_pos heard, Dispatcher.serveAll_cons, answer]
      generalize b.dispatcher.serve _ r _ .poll = served at holds kept given ⊢
      rw [← given]
      cases told : served.answers with
      | nil =>
        have later := ih served.runs (holds.trans (by rw [if_pos told]))
        rw [same, scripts, ← kept told] at later
        rw [List.nil_append, ← later, ← told]
      | cons response others =>
        have answered : served.answers ≠ [] := by simp [told]
        rw [(Dispatcher.serveAll_answered _ answered _).1, told,
          answers_finished rest (holds.trans (by rw [if_neg answered])), List.append_nil]

end DuplexRpc.Bench
