import DuplexRpc.Correlator
import DuplexRpc.Proofs.Table

namespace DuplexRpc

-- The first outcome of a call stays.
def Call.finish (k : Call) (outcome : CallOutcome) : Call :=
  { k with outcome := k.outcome <|> some outcome }

theorem Call.finish_of_open {k : Call} (outcome : CallOutcome) (unanswered : k.outcome = none) :
    k.finish outcome = { k with outcome := some outcome } := by
  simp [Call.finish, unanswered]

theorem Call.finish_finish (k : Call) (outcome : CallOutcome) :
    (k.finish outcome).finish outcome = k.finish outcome := by
  obtain ⟨_, _, _, _, answer, _⟩ := k
  cases answer <;> rfl

namespace Outbound

theorem offer_cases (q : Outbound) (m : Message) (standing : Standing) :
    (q.receiving = false ∧ q.offer m standing = (.refused, q)) ∨
    (q.receiving = true ∧ q.hasRoom = true ∧ q.offer m standing = (.accepted, q.enter m)) ∨
    (q.receiving = true ∧ q.hasRoom = false ∧ q.offer m standing = (.waiting q.nextTicket,
      { q with waiting := q.waiting ++ [⟨q.nextTicket, m, standing⟩], nextTicket := q.nextTicket + 1 })) := by
  unfold offer
  cases alive : q.receiving
  · exact .inl ⟨rfl, rfl⟩
  · cases room : q.hasRoom
    · exact .inr (.inr ⟨rfl, rfl, by simp⟩)
    · exact .inr (.inl ⟨rfl, rfl, by simp⟩)

-- The first in line is given room, if anybody stands there.
theorem admitFirst_cases (waiting : List Waiter) :
    ((∀ w ∈ waiting, w.standing ≠ .inLine) ∧ admitFirst waiting = waiting) ∨
    ∃ front w back, waiting = front ++ w :: back ∧ (∀ v ∈ front, v.standing ≠ .inLine) ∧ w.standing = .inLine ∧
      admitFirst waiting = front ++ { w with standing := .admitted } :: back := by
  induction waiting with
  | nil => exact .inl ⟨nofun, rfl⟩
  | cons head rest ih =>
    by_cases first : head.standing = .inLine
    · exact .inr ⟨[], head, rest, rfl, nofun, first, by simp [admitFirst, first]⟩
    · rcases ih with ⟨nobody, same⟩ | ⟨front, w, back, rfl, early, inLine, same⟩
      · exact .inl ⟨List.forall_mem_cons.mpr ⟨first, nobody⟩, by simp [admitFirst, first, same]⟩
      · exact .inr ⟨head :: front, w, back, rfl, List.forall_mem_cons.mpr ⟨first, early⟩, inLine,
          by simp [admitFirst, first, same]⟩

-- Who waits, and for what, is not changed by giving room to somebody.
theorem mem_admitFirst {w : Waiter} {waiting : List Waiter} (present : w ∈ admitFirst waiting) :
    ∃ earlier ∈ waiting, earlier.ticket = w.ticket ∧ earlier.message = w.message := by
  induction waiting with
  | nil => simp [admitFirst] at present
  | cons head rest ih =>
    unfold admitFirst at present
    split at present
    · rcases List.mem_cons.mp present with rfl | later
      · exact ⟨head, List.mem_cons_self, rfl, rfl⟩
      · exact ⟨w, List.mem_cons_of_mem _ later, rfl, rfl⟩
    · rcases List.mem_cons.mp present with rfl | later
      · exact ⟨w, List.mem_cons_self, rfl, rfl⟩
      · obtain ⟨earlier, old, same⟩ := ih later
        exact ⟨earlier, List.mem_cons_of_mem _ old, same⟩

theorem mem_admitNext {w : Waiter} {q : Outbound} (present : w ∈ q.admitNext.waiting) :
    ∃ earlier ∈ q.waiting, earlier.ticket = w.ticket ∧ earlier.message = w.message := by
  unfold admitNext at present
  split at present
  · exact mem_admitFirst present
  · exact ⟨w, present, rfl, rfl⟩

@[simp] theorem messages_admitFirst (waiting : List Waiter) :
    (admitFirst waiting).map (·.message) = waiting.map (·.message) := by
  induction waiting with
  | nil => rfl
  | cons head rest ih =>
    unfold admitFirst
    split <;> simp [ih]

@[simp] theorem admitNext_queued (q : Outbound) : q.admitNext.queued = q.queued := by
  unfold admitNext; split <;> rfl

@[simp] theorem admitNext_accepted (q : Outbound) : q.admitNext.accepted = q.accepted := by
  unfold admitNext; split <;> rfl

@[simp] theorem admitNext_receiving (q : Outbound) : q.admitNext.receiving = q.receiving := by
  unfold admitNext; split <;> rfl

theorem admitNext_messages (q : Outbound) :
    q.admitNext.waiting.map (·.message) = q.waiting.map (·.message) := by
  unfold admitNext
  split
  · exact messages_admitFirst _
  · rfl

-- A sender whose turn it is enters with its message, steps into the line, or finds that
-- there is nothing to do.
theorem turn_cases (q : Outbound) (ticket : Nat) :
    (∃ w ∈ q.waiting, w.ticket = ticket ∧ q.turn ticket = (some w.message, (q.remove ticket).enter w.message)) ∨
    q.turn ticket = (none, q.standInLine ticket) ∨ q.turn ticket = (none, q) := by
  unfold turn
  split
  · exact .inr (.inr rfl)
  · rename_i w found
    have present : w ∈ q.waiting := List.mem_of_find?_eq_some found
    have named : w.ticket = ticket := by simpa using List.find?_some found
    split
    · exact .inl ⟨w, present, named, rfl⟩
    · exact .inr (.inr rfl)
    · split
      · exact .inl ⟨w, present, named, rfl⟩
      · exact .inr (.inl rfl)

theorem take_cases {q after : Outbound} {m : Message} (taken : q.take = some (m, after)) :
    ∃ rest, q.queued = m :: rest ∧ after = { q with queued := rest }.admitNext := by
  unfold take at taken
  split at taken <;> cases taken
  exact ⟨_, by assumption, rfl⟩

theorem mem_standInLine {w : Waiter} {q : Outbound} {ticket : Nat} (present : w ∈ (q.standInLine ticket).waiting) :
    ∃ earlier ∈ q.waiting, earlier.ticket = w.ticket ∧ earlier.message = w.message := by
  rcases List.mem_append.mp present with stays | arrived
  · exact ⟨w, (List.mem_filter.mp stays).1, rfl, rfl⟩
  · obtain ⟨earlier, mine, rfl⟩ := List.mem_map.mp arrived
    exact ⟨earlier, (List.mem_filter.mp mine).1, rfl, rfl⟩

theorem mem_remove {w : Waiter} {q : Outbound} {ticket : Nat} :
    w ∈ (q.remove ticket).waiting ↔ w ∈ q.waiting ∧ w.ticket ≠ ticket := by
  simp [remove]

end Outbound

namespace Correlator

theorem complete_calls (c : Correlator) (call n : Nat) (outcome : CallOutcome) :
    (c.complete call outcome).calls[n]? =
      (c.calls[n]?).map fun k => if call = n then k.finish outcome else k := by
  simp only [complete, List.getElem?_modify]
  rfl

@[simp] theorem complete_length (c : Correlator) (call : Nat) (outcome : CallOutcome) :
    (c.complete call outcome).calls.length = c.calls.length := by
  simp [complete]

theorem record_pending (c : Correlator) (id : RequestId) (entry : PendingEntry) :
    (c.record id entry).pending = Table.put id entry c.pending := by
  unfold record
  split <;> rfl

-- Recording touches no call but the one whose entry it replaces.
theorem record_calls (c : Correlator) (id : RequestId) (entry : PendingEntry) (n : Nat) :
    (c.record id entry).calls[n]? = (c.calls[n]?).map fun k =>
      if (c.pending.lookup id).map PendingEntry.call = some n then k.finish (.error .connectionClosed) else k := by
  unfold record
  cases c.pending.lookup id with
  | none => simp
  | some old => simpa using complete_calls c old.call n (.error .connectionClosed)

@[simp] theorem record_length (c : Correlator) (id : RequestId) (entry : PendingEntry) :
    (c.record id entry).calls.length = c.calls.length := by
  unfold record
  split <;> simp

@[simp] theorem record_outbound (c : Correlator) (id : RequestId) (entry : PendingEntry) :
    (c.record id entry).outbound = c.outbound := by
  unfold record
  split <;> rfl

@[simp] theorem record_nextId (c : Correlator) (id : RequestId) (entry : PendingEntry) :
    (c.record id entry).nextId = c.nextId := by
  unfold record
  split <;> rfl

@[simp] theorem record_closed (c : Correlator) (id : RequestId) (entry : PendingEntry) :
    (c.record id entry).closed = c.closed := by
  unfold record
  split <;> rfl

@[simp] theorem record_cancelled (c : Correlator) (id : RequestId) (entry : PendingEntry) :
    (c.record id entry).cancelled = c.cancelled := by
  unfold record
  split <;> rfl

@[simp] theorem record_cancellation (c : Correlator) (id : RequestId) (entry : PendingEntry) :
    (c.record id entry).cancellation = c.cancellation := by
  unfold record
  split <;> rfl

-- The correlator in the midst of a send: an id is used up and its entry recorded.
def recorded (c : Correlator) (method : String) : Correlator :=
  { c with nextId := c.nextId + 1 }.record (.number c.nextId) ⟨method, c.calls.length⟩

def fresh (c : Correlator) : RequestId := .number c.nextId

theorem recorded_pending (c : Correlator) (method : String) :
    (c.recorded method).pending = Table.put c.fresh ⟨method, c.calls.length⟩ c.pending :=
  record_pending ..

theorem send_cases (c : Correlator) (method : String) (params : Option Payload) :
    (c.closed = true ∧ c.send method params = (.closed, { c with nextId := c.nextId + 1 })) ∨
    (c.closed = false ∧ c.outbound.receiving = false ∧
      c.send method params = (.closed, (c.recorded method).forgetPending c.fresh)) ∨
    (c.closed = false ∧ c.outbound.receiving = true ∧ c.outbound.hasRoom = true ∧
      c.send method params = (.accepted c.calls.length c.fresh,
        { c.recorded method with
          outbound := c.outbound.enter (.request ⟨c.fresh, method, params⟩)
          calls := (c.recorded method).calls ++ [⟨c.fresh, method, params, .accepted, none, false⟩] })) ∨
    (c.closed = false ∧ c.outbound.receiving = true ∧ c.outbound.hasRoom = false ∧
      c.send method params = (.waiting c.calls.length c.outbound.nextTicket,
        { c.recorded method with
          outbound := { c.outbound with
            waiting := c.outbound.waiting ++ [⟨c.outbound.nextTicket, .request ⟨c.fresh, method, params⟩, .inLine⟩]
            nextTicket := c.outbound.nextTicket + 1 }
          calls := (c.recorded method).calls ++
            [⟨c.fresh, method, params, .waiting c.outbound.nextTicket, none, false⟩] })) := by
  cases shut : c.closed with
  | true => exact .inl ⟨rfl, by simp [send, shut]⟩
  | false =>
    have listening : ¬ c.closed = true := by simp [shut]
    have base : (c.recorded method).outbound = c.outbound := record_outbound ..
    have offered := Correlator.offer.eq_1 (c.recorded method) (.request ⟨c.fresh, method, params⟩) .inLine
    refine .inr ?_
    rcases c.outbound.offer_cases (.request ⟨c.fresh, method, params⟩) .inLine with
      ⟨gone, answer⟩ | ⟨alive, room, answer⟩ | ⟨alive, full, answer⟩ <;> rw [base, answer] at offered
    · refine .inl ⟨rfl, gone, ?_⟩
      rw [← base] at offered
      unfold recorded fresh at *
      simp only [send, if_neg listening, offered]
    · refine .inr (.inl ⟨rfl, alive, room, ?_⟩)
      unfold recorded fresh at *
      simp only [send, if_neg listening, offered]
    · refine .inr (.inr ⟨rfl, alive, full, ?_⟩)
      unfold recorded fresh at *
      simp only [send, if_neg listening, offered]

theorem restage_get (ticket : Nat) (stage : Call.Stage) (calls : List Call) (n : Nat) :
    (restage ticket stage calls)[n]? =
      (calls[n]?).map fun k => if k.stage = .waiting ticket then { k with stage := stage } else k := by
  simp [restage]

-- Ending a list of entries ends the calls they belong to and no others.
theorem completeAll_calls (entries : List (RequestId × PendingEntry)) (c : Correlator) (outcome : CallOutcome)
    (n : Nat) :
    (entries.foldl (fun c entry => c.complete entry.2.call outcome) c).calls[n]? =
      (c.calls[n]?).map fun k => if n ∈ entries.map (·.2.call) then k.finish outcome else k := by
  induction entries generalizing c with
  | nil => simp
  | cons entry rest ih =>
    rw [List.foldl_cons, ih, complete_calls]
    cases c.calls[n]? with
    | none => rfl
    | some k =>
      by_cases here : entry.2.call = n
      · subst here
        simp [Call.finish_finish]
      · have other : n ≠ entry.2.call := Ne.symm here
        simp only [Option.map_some, if_neg here, List.map_cons, List.mem_cons, other, false_or]

theorem completeAll_fields (entries : List (RequestId × PendingEntry)) (c : Correlator) (outcome : CallOutcome) :
    entries.foldl (fun c entry => c.complete entry.2.call outcome) c =
      { c with calls := (entries.foldl (fun c entry => c.complete entry.2.call outcome) c).calls } := by
  induction entries generalizing c with
  | nil => rfl
  | cons entry rest ih =>
    rw [List.foldl_cons, ih]
    rfl

theorem completeAll_length (entries : List (RequestId × PendingEntry)) (c : Correlator) (outcome : CallOutcome) :
    (entries.foldl (fun c entry => c.complete entry.2.call outcome) c).calls.length = c.calls.length := by
  induction entries generalizing c with
  | nil => rfl
  | cons entry rest ih => rw [List.foldl_cons, ih, complete_length]

theorem failAll_eq (c : Correlator) :
    c.failAll.2 = { c with calls := c.failAll.2.calls, pending := [], cancelled := [], closed := true } := by
  unfold failAll
  rw [completeAll_fields]

theorem failAll_calls (c : Correlator) (n : Nat) :
    c.failAll.2.calls[n]? = (c.calls[n]?).map fun k =>
      if n ∈ c.pending.map (·.2.call) then k.finish (.error .connectionClosed) else k :=
  completeAll_calls c.pending c (.error .connectionClosed) n

@[simp] theorem failAll_length (c : Correlator) : c.failAll.2.calls.length = c.calls.length :=
  completeAll_length c.pending c (.error .connectionClosed)

-- A look at a call changes at most whether it was looked at.
theorem poll_fields (c : Correlator) (call : Nat) :
    (c.poll call).2 = { c with calls := (c.poll call).2.calls } := by
  unfold poll
  repeat' split
  all_goals rfl

@[simp] theorem poll_length (c : Correlator) (call : Nat) : (c.poll call).2.calls.length = c.calls.length := by
  unfold poll
  repeat' split
  all_goals simp

theorem lookup_eraseAll (ids : List RequestId) (table : List (RequestId × PendingEntry)) (id : RequestId) :
    (ids.foldl (fun table id => Table.erase id table) table).lookup id =
      if id ∈ ids then none else table.lookup id := by
  induction ids generalizing table with
  | nil => simp
  | cons head rest ih =>
    rw [List.foldl_cons, ih, Table.lookup_erase]
    by_cases here : id = head <;> by_cases later : id ∈ rest <;> simp [here, later]

theorem mem_waitingIds {id : RequestId} {waiting : List Outbound.Waiter} :
    id ∈ waitingIds waiting ↔ ∃ w ∈ waiting, ∃ r, w.message = .request r ∧ r.id = id := by
  simp only [waitingIds, List.mem_filterMap]
  constructor
  · rintro ⟨w, present, named⟩
    refine ⟨w, present, ?_⟩
    split at named
    · exact ⟨_, by assumption, Option.some.inj named⟩
    · cases named
  · rintro ⟨w, present, r, message, rfl⟩
    exact ⟨w, present, by simp [message]⟩

end Correlator
end DuplexRpc
