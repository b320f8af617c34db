import DuplexRpc.Proofs.Correlator.Remembered

namespace DuplexRpc.Correlator

-- What ends a request of ours from outside: the peer's reply, or an error met on the way.
inductive Answer where
  | reply (id : RequestId) (reply : Reply)
  | failure (id : RequestId) (error : CallError)
  deriving DecidableEq

def Answer.id : Answer → RequestId
  | .reply id _ => id
  | .failure id _ => id

def Answer.outcome : Answer → CallOutcome
  | .reply _ answer => .ofReply answer
  | .failure _ error => .error error

-- What taking an answer gives back: an issue, or whether the request was pending.
inductive Receipt where
  | reply (issue : Option Issue)
  | failure (pending : Bool)
  deriving DecidableEq

def answer (c : Correlator) : Answer → Receipt × Correlator
  | .reply id reply => let (issue, after) := c.resolve id reply; (.reply issue, after)
  | .failure id error => let (pending, after) := c.fail id error; (.failure pending, after)

-- One after the other.
def answerAll (c : Correlator) : List Answer → List Receipt × Correlator
  | [] => ([], c)
  | first :: rest =>
    let (receipt, after) := c.answer first
    let (receipts, last) := after.answerAll rest
    (receipt :: receipts, last)

variable {c : Correlator} {id other : RequestId} {entry : PendingEntry} {one two : Answer}

theorem settle_of_pending (pending : c.pending.lookup id = some entry) (outcome : CallOutcome) :
    c.settle id outcome = (c.forgetPending id).complete entry.call outcome := by
  simp [settle, pending]

theorem settle_spares (apart : other ≠ id) (outcome : CallOutcome) :
    (c.settle id outcome).pending.lookup other = c.pending.lookup other := by
  rw [settle_lookup, if_neg apart]

-- Two entries of one call would have the same id.
theorem Linked.calls_apart (linked : Linked c) {entry' : PendingEntry} (pending : c.pending.lookup id = some entry)
    (pending' : c.pending.lookup other = some entry') (apart : id ≠ other) : entry.call ≠ entry'.call := by
  intro same
  obtain ⟨k, found, named, _⟩ := linked.awaits pending
  have stands : (c.pending.lookup other).map PendingEntry.call = some entry.call := by
    rw [pending', Option.map_some, same]
  exact apart (named.symm.trans (linked.entry_call stands found).1)

theorem complete_comm (c : Correlator) {call call' : Nat} (apart : call ≠ call') (outcome outcome' : CallOutcome) :
    (c.complete call outcome).complete call' outcome' = (c.complete call' outcome').complete call outcome := by
  simp only [complete, Correlator.mk.injEq, true_and]
  refine List.ext_getElem? fun n => ?_
  simp only [List.getElem?_modify]
  by_cases here : call = n
  · subst here
    simp [Ne.symm apart]
  · simp [here]

-- Requests that are pending under two ids are ended each by itself.
theorem settle_comm (linked : Linked c) (apart : id ≠ other) (outcome outcome' : CallOutcome) :
    (c.settle id outcome).settle other outcome' = (c.settle other outcome').settle id outcome := by
  have kept := settle_spares (c := c) apart outcome'
  have kept' := settle_spares (c := c) apart.symm outcome
  cases one : c.pending.lookup id with
  | none => rw [settle_of_absent outcome one, settle_of_absent outcome (kept.trans one)]
  | some entry =>
    cases two : c.pending.lookup other with
    | none => rw [settle_of_absent outcome' two, settle_of_absent outcome' (kept'.trans two)]
    | some entry' =>
      rw [settle_of_pending (kept'.trans two), settle_of_pending (kept.trans one), settle_of_pending one,
        settle_of_pending two]
      have calls := complete_comm { c with pending := Table.erase id (Table.erase other c.pending) }
        (linked.calls_apart one two apart) outcome outcome'
      simpa only [forgetPending, complete, Table.erase_comm id other] using calls

theorem settle_window (c : Correlator) (id : RequestId) (outcome : CallOutcome) (cancelled : List RequestId) :
    { c with cancelled := cancelled }.settle id outcome = { c.settle id outcome with cancelled := cancelled } := by
  cases pending : c.pending.lookup id <;> simp [settle, pending, complete, forgetPending]

-- What an answer gives back, by what is known of its id.
def Answer.receipt (pending remembered : Bool) : Answer → Receipt
  | .reply id _ => .reply (if pending || remembered then none else some (unmatched id))
  | .failure .. => .failure pending

-- Only the id of a reply is looked for among those cancelled here, where it is not pending.
def Answer.windowLeft (pending : Bool) (cancelled : List RequestId) : Answer → List RequestId
  | .reply id _ => if pending then cancelled else cancelled.erase id
  | .failure .. => cancelled

theorem answer_receipt (c : Correlator) (a : Answer) :
    (c.answer a).1 = a.receipt (c.pending.lookup a.id).isSome (a.id ∈ c.cancelled) := by
  cases a with
  | reply id reply =>
    cases pending : c.pending.lookup id with
    | some entry => simp [answer, resolve, Answer.receipt, Answer.id, pending]
    | none => by_cases late : id ∈ c.cancelled <;> simp [answer, resolve, Answer.receipt, Answer.id, pending, late]
  | failure id error =>
    cases pending : c.pending.lookup id <;> simp [answer, fail, Answer.receipt, Answer.id, pending]

theorem answer_state (c : Correlator) (a : Answer) :
    (c.answer a).2 = { c.settle a.id a.outcome with
      cancelled := a.windowLeft (c.pending.lookup a.id).isSome c.cancelled } := by
  cases a with
  | reply id reply =>
    change (c.resolve id reply).2 = _
    rw [resolve_fields, resolve_cancelled]
    rfl
  | failure id error =>
    change (c.fail id error).2 = _
    rw [fail_eq]
    simp only [Answer.windowLeft, ← settle_cancelled c id (.error error)]
    rfl

theorem answer_linked (linked : Linked c) (a : Answer) : Linked (c.answer a).2 := by
  rw [answer_state]
  exact (settle_linked linked a.id a.outcome).with_fields _ _

theorem answer_spares (apart : other ≠ one.id) : (c.answer one).2.pending.lookup other = c.pending.lookup other := by
  rw [answer_state]
  exact settle_spares apart _

theorem answer_remembers (apart : other ≠ one.id) :
    other ∈ (c.answer one).2.cancelled ↔ other ∈ c.cancelled := by
  rw [answer_state]
  cases one with
  | reply id reply =>
    simp only [Answer.windowLeft]
    split
    · rfl
    · exact List.mem_erase_of_ne apart
  | failure id error => rfl

theorem windowLeft_comm (one two : Answer) (pending pending' : Bool) (cancelled : List RequestId) :
    two.windowLeft pending' (one.windowLeft pending cancelled) =
      one.windowLeft pending (two.windowLeft pending' cancelled) := by
  cases one <;> cases two <;> simp only [Answer.windowLeft]
  split <;> split <;> first | rfl | exact List.erase_comm ..

theorem answer_comm (linked : Linked c) (apart : one.id ≠ two.id) :
    ((c.answer one).2.answer two).2 = ((c.answer two).2.answer one).2 := by
  rw [answer_state (c.answer one).2, answer_state (c.answer two).2, answer_spares apart, answer_spares apart.symm]
  rw [answer_state c one, answer_state c two]
  simp only [settle_window, settle_comm linked apart]
  rw [windowLeft_comm one two]

-- What an answer gives back hangs on its own id alone.
theorem receipt_answered (apart : one.id ≠ two.id) : ((c.answer one).2.answer two).1 = (c.answer two).1 := by
  simp only [answer_receipt, answer_spares apart.symm, answer_remembers apart.symm]

theorem answerAll_cons (c : Correlator) (first : Answer) (rest : List Answer) :
    c.answerAll (first :: rest) =
      ((c.answer first).1 :: ((c.answer first).2.answerAll rest).1, ((c.answer first).2.answerAll rest).2) := rfl

theorem answerAll_receipts {answers : List Answer} (distinct : (answers.map Answer.id).Nodup) :
    (c.answerAll answers).1 = answers.map fun a => (c.answer a).1 := by
  induction answers generalizing c with
  | nil => rfl
  | cons first rest ih =>
    obtain ⟨alone, distinct⟩ := List.nodup_cons.mp distinct
    rw [answerAll_cons, ih distinct, List.map_cons]
    refine congrArg ((c.answer first).1 :: ·) (List.map_congr_left fun a later => receipt_answered ?_)
    intro same
    exact alone (same ▸ List.mem_map_of_mem later)

theorem answerAll_perm {answers order : List Answer} (linked : Linked c) (distinct : (order.map Answer.id).Nodup)
    (permuted : order.Perm answers) : (c.answerAll order).2 = (c.answerAll answers).2 := by
  induction permuted generalizing c with
  | nil => rfl
  | cons first _ ih => exact ih (answer_linked linked first) (List.nodup_cons.mp distinct).2
  | swap one two rest =>
    have apart : two.id ≠ one.id := by
      intro same
      exact (List.nodup_cons.mp distinct).1 (same ▸ List.mem_cons_self)
    simp only [answerAll_cons, answer_comm linked apart]
  | trans first _ ih ih' =>
    exact (ih linked distinct).trans (ih' linked ((first.map Answer.id).nodup_iff.mp distinct))

-- Whatever has happened before, and in whatever order answers to different ids are then taken:
-- the table, the cancelled ids that are still remembered and the outcomes of all calls come out
-- the same, and each answer gives back what it would give back alone.
theorem answers_in_any_order (cancellation : Option CancelSettings) (capacity : Nat) (moves : List Move)
    {answers order : List Answer} (distinct : (answers.map Answer.id).Nodup) (permuted : order.Perm answers) :
    let c := (initial cancellation capacity).moveAll moves
    (c.answerAll order).2 = (c.answerAll answers).2 ∧
      (c.answerAll order).1 = order.map (fun a => (c.answer a).1) ∧
      (c.answerAll answers).1 = answers.map fun a => (c.answer a).1 := by
  intro c
  have linked : Linked c := moveAll_linked (initial_linked cancellation capacity) moves
  have distinct' : (order.map Answer.id).Nodup := (permuted.map Answer.id).nodup_iff.mpr distinct
  exact ⟨answerAll_perm linked distinct' permuted, answerAll_receipts distinct', answerAll_receipts distinct⟩

-- Two requests are pending, a third was cancelled, and nobody made a fourth.
theorem answers_in_any_order_mixed :
    let c := (initial none 4).moveAll [.act (.send "a" none), .act (.send "b" none), .act (.send "c" none),
      .act (.cancel (.number 2))]
    let null : Reply := .result (.json .null)
    let answers : List Answer := [.reply (.number 3) null, .reply (.number 2) null,
      .failure (.number 1) .connectionClosed, .reply (.text "x") null]
    c.pending.map Prod.fst = [.number 1, .number 3] ∧ c.cancelled = [.number 2] ∧
      (c.answerAll answers.reverse).2 = (c.answerAll answers).2 ∧
      (c.answerAll answers.reverse).1 =
        [.reply (some (unmatched (.text "x"))), .failure true, .reply none, .reply none] := by
  intro c null answers
  have distinct : (answers.map Answer.id).Nodup := by decide
  obtain ⟨same, receipts, _⟩ := answers_in_any_order none 4 [.act (.send "a" none), .act (.send "b" none),
    .act (.send "c" none), .act (.cancel (.number 2))] distinct (List.reverse_perm answers)
  exact ⟨by decide +kernel, by decide +kernel, same, receipts.trans (by decide +kernel)⟩

end DuplexRpc.Correlator
