import DuplexRpc.Proofs.Pair.Runs

namespace DuplexRpc

-- A content type that puts no empty line into a header.
def Endpoint.Plain (e : Endpoint) : Prop := ¬ Framing.terminator <:+: Framing.typeLine e.config.contentType

instance (e : Endpoint) : Decidable e.Plain :=
  inferInstanceAs (Decidable ¬ Framing.terminator <:+: Framing.typeLine e.config.contentType)

namespace Connection
open Envelope (claim?)

-- The ids under which answers are asked for, entry by entry.
theorem Book.claims {c : Connection} {book : List Entry} (booked : Book c book) :
    book.map Entry.id = c.frames.filterMap claim? := by
  have named : book.map Entry.id = (book.map Entry.body).filterMap claim? := by
    rw [List.filterMap_map]
    have each : ∀ e ∈ book, (claim? ∘ Entry.body) e = some e.id := fun e present => booked.ids e present
    rw [List.filterMap_congr each, ← List.filterMap_eq_map]
    rfl
  rw [named, booked.frames, List.filterMap_filter]
  apply List.filterMap_congr
  intro body _
  cases claim? body <;> rfl

theorem Book.task {c : Connection} {book : List Entry} {n : Nat} {t : Task} (booked : Book c book)
    (found : c.tasks[n]? = some t) : ∃ e ∈ book, e.fate = .task n ∧ e.id = t.request.id := by
  obtain ⟨front, e, back, rfl, fate, _⟩ := booked.entry (List.getElem?_eq_some_iff.mp found).1
  have present : e ∈ front ++ e :: back := List.mem_append_right _ List.mem_cons_self
  obtain ⟨_, read⟩ := booked.decoded e present
  simp only [fate] at read
  obtain ⟨t', found', named, _⟩ := read
  obtain rfl : t' = t := Option.some.inj (found'.symm.trans found)
  exact ⟨e, present, fate, named.symm⟩

theorem Book.answer_entry {c : Connection} {book : List Entry} {id : RequestId} {reply : Reply} (booked : Book c book)
    (handed : ⟨some id, reply⟩ ∈ c.handed) : ∃ e ∈ book, e.id = id ∧
      ((∃ issue, e.fate = .rejected issue ∧ rejection id issue = ⟨some id, reply⟩) ∨
        ∃ (n : Nat) (t : Task), e.fate = .task n ∧ c.tasks[n]? = some t ∧ t.request.id = id ∧
          t.response = some ⟨some id, reply⟩) := by
  obtain ⟨e, present, answer⟩ := List.mem_filterMap.mp (booked.handed.subset handed)
  obtain ⟨_, read⟩ := booked.decoded e present
  unfold Entry.answer? at answer
  cases fate : e.fate with
  | rejected issue =>
    simp only [fate, Option.some.injEq] at answer
    have named : e.id = id := Option.some.inj (congrArg Response.id answer)
    exact ⟨e, present, named, .inl ⟨issue, fate, named ▸ answer⟩⟩
  | task n =>
    simp only [fate] at answer read
    obtain ⟨t, found, answered⟩ := Option.bind_eq_some_iff.mp answer
    obtain ⟨t', found', named, _⟩ := read
    obtain rfl : t' = t := Option.some.inj (found'.symm.trans found)
    have mine : t'.request.id = id :=
      (Option.some.inj (booked.answers t' (List.mem_of_getElem? found) _ answered)).symm
    exact ⟨e, present, named.symm.trans mine, .inr ⟨n, t', fate, found, mine, answered⟩⟩

end Connection

namespace Pair
open Connection (Action Entry Book Task received requested yielded)
open Envelope (claim?)
open Framing (readable)
open List (Subperm)
variable {a b : Endpoint} {as bs : List Action} {left right : Connection} {body : List UInt8} {n : Nat} {k : Call}
  {book : List Entry}

theorem Joined.swap (joined : Joined a b as bs left right) : Joined b a bs as right left :=
  ⟨joined.rightRuns, joined.leftRuns, joined.toRight, joined.toLeft⟩

theorem Joined.delivered (joined : Joined a b as bs left right) (plain : a.Plain) :
    (right.frames.filter readable).Sublist (left.wrote.map Message.encode) := by
  refine Framing.readable_sublist plain (Connection.runs_took joined.rightRuns) ?_
  rw [← Connection.runs_written joined.leftRuns]
  exact joined.toRight

-- Whatever arrives and can be read was written.
theorem Joined.sent (joined : Joined a b as bs left right) (plain : a.Plain) (present : body ∈ right.frames)
    (reads : readable body = true) : ∃ m ∈ left.wrote, m.encode = body :=
  List.mem_map.mp ((joined.delivered plain).subset (List.mem_filter.mpr ⟨present, reads⟩))

theorem readable_of_object {members : Envelope.Members} (parses : Json.read body = .ok (.object members)) :
    readable body = true := by
  rw [readable, parses]
  rfl

theorem filterMap_sublist {α β : Type} {f g : α → Option β} (less : ∀ x y, f x = some y → g x = some y) (l : List α) :
    (l.filterMap f).Sublist (l.filterMap g) := by
  induction l with
  | nil => exact .slnil
  | cons x rest ih =>
    cases one : f x with
    | some y =>
      rw [List.filterMap_cons_some one, List.filterMap_cons_some (less x y one)]
      exact ih.cons_cons y
    | none =>
      rw [List.filterMap_cons_none one]
      cases two : g x with
      | some z =>
        rw [List.filterMap_cons_some two]
        exact ih.cons z
      | none =>
        rw [List.filterMap_cons_none two]
        exact ih

theorem Joined.requests (joined : Joined a b as bs left right) (open' : left.phase ≠ .closed)
    (few : requested as ≤ 0x10000000000000000) :
    Subperm (left.wrote.filterMap Message.request?) (left.correlator.calls.map Call.request) := by
  obtain ⟨sent, _, outbox⟩ := Connection.runs_outbox joined.leftRuns open' few
  exact ((List.sublist_append_left ..).filterMap _).subperm.trans outbox.requests

-- The peer asks for an answer at most once under each of our ids.
theorem Joined.claims (joined : Joined a b as bs left right) (plain : a.Plain) (open' : left.phase ≠ .closed)
    (few : requested as ≤ 0x10000000000000000) :
    Subperm (right.frames.filterMap claim?) (left.correlator.calls.map Call.id) := by
  have clear : right.frames.filterMap claim? = (right.frames.filter readable).filterMap claim? := by
    rw [List.filterMap_filter]
    apply List.filterMap_congr
    intro body _
    cases claims : claim? body with
    | none => simp
    | some id =>
      obtain ⟨_, parses, _⟩ := Envelope.claim?_some claims
      simp [readable_of_object parses]
  have asked : ((left.wrote.map Message.encode).filterMap claim?).Sublist
      ((left.wrote.filterMap Message.request?).map Request.id) := by
    rw [List.filterMap_map, List.map_filterMap]
    refine filterMap_sublist (fun m id claims => ?_) _
    obtain ⟨r, rfl, rfl⟩ := Message.claim?_encode claims
    rfl
  have named : left.correlator.calls.map Call.id = (left.correlator.calls.map Call.request).map Request.id := by
    rw [List.map_map]
    rfl
  have called := Connection.subperm_filterMap (some ∘ Request.id) (joined.requests open' few)
  rw [List.filterMap_eq_map] at called
  rw [clear, named]
  exact (((joined.delivered plain).filterMap claim?).trans asked).subperm.trans called

-- What the peer's book says of our calls: each is there at most once, as it was sent.
structure Account (left right : Connection) (book : List Entry) : Prop where
  booked : Book right book
  distinct : (book.map Entry.id).Nodup
  sent : ∀ e ∈ book, ∀ (n : Nat) (k : Call), left.correlator.calls[n]? = some k → k.id = e.id →
    e.body = (Message.request k.request).encode

theorem Joined.account (joined : Joined a b as bs left right) (plain : a.Plain) (leftOpen : left.phase ≠ .closed)
    (rightOpen : right.phase ≠ .closed) (few : requested as ≤ 0x10000000000000000) : ∃ book, Account left right book := by
  obtain ⟨book, booked⟩ := Connection.runs_book joined.rightRuns rightOpen
  obtain ⟨sent, _, outbox⟩ := Connection.runs_outbox joined.leftRuns leftOpen few
  refine ⟨book, booked, ?_, ?_⟩
  · obtain ⟨ids, perm, sub⟩ := joined.claims plain leftOpen few
    rw [booked.claims]
    exact perm.nodup_iff.mp (sub.nodup outbox.ledger.apart)
  · intro e present n k found named
    have claims := booked.ids e present
    obtain ⟨_, parses, _⟩ := Envelope.claim?_some claims
    have listed : e.body ∈ right.frames := by
      have among : e.body ∈ book.map Entry.body := List.mem_map_of_mem present
      rw [booked.frames] at among
      exact (List.mem_filter.mp among).1
    obtain ⟨m, written, text⟩ := joined.sent plain listed (readable_of_object parses)
    rw [← text] at claims ⊢
    obtain ⟨r, rfl, same⟩ := Message.claim?_encode claims
    have asked : r ∈ left.wrote.filterMap Message.request? := List.mem_filterMap.mpr ⟨_, written, rfl⟩
    obtain ⟨k', called, rfl⟩ := List.mem_map.mp ((joined.requests leftOpen few).subset asked)
    obtain ⟨n', found'⟩ := List.getElem?_of_mem called
    have apart := outbox.ledger.same_call found' found (same.trans named.symm)
    subst apart
    obtain rfl : k' = k := Option.some.inj (found'.symm.trans found)
    rfl

theorem Account.same {e e' : Entry} (account : Account left right book) (one : e ∈ book) (two : e' ∈ book)
    (named : e.id = e'.id) : e = e' :=
  List.inj_on_of_nodup_map account.distinct one two named

-- A task under a call's id is the work of the one entry under it.
theorem Account.only_task {e : Entry} {m task : Nat} {t : Task} (account : Account left right book) (present : e ∈ book)
    (fate : e.fate = .task task) (found : right.tasks[m]? = some t) (named : t.request.id = e.id) : m = task := by
  obtain ⟨e', present', fate', id⟩ := account.booked.task found
  obtain rfl := account.same present' present (id.trans named)
  exact Connection.Fate.task.inj (fate'.symm.trans fate)

-- A call that its own caller did not cancel ends by an answer that the peer handed over.
theorem Joined.answered {outcome : CallOutcome} (joined : Joined a b as bs left right) (plain : b.Plain)
    (leftOpen : left.phase ≠ .closed) (rightOpen : right.phase ≠ .closed) (few : requested as ≤ 0x10000000000000000)
    (found : left.correlator.calls[n]? = some k) (sentOut : k.stage ≠ .refused) (ended : k.outcome = some outcome)
    (kept : outcome ≠ .error (.cancelled k.id)) :
    ∃ reply pending, ⟨some k.id, reply⟩ ∈ right.handed ∧ pending k.id = some k.method ∧
      outcome = match left.contract.received pending k.id reply with
        | .ok reply => .ofReply reply
        | .error fault => .error (.invalidResponse (fault.toIssue (some k.id))) := by
  have handed : ∀ {reply}, Message.response ⟨some k.id, reply⟩ ∈ right.wrote → ⟨some k.id, reply⟩ ∈ right.handed := by
    intro reply written
    refine (Connection.runs_responses joined.rightRuns rightOpen).subset ?_
    exact List.mem_filterMap.mpr ⟨_, List.mem_append_left _ written, rfl⟩
  cases Connection.runs_origin joined.leftRuns leftOpen few found sentOut ended with
  | cancelled => exact absurd rfl kept
  | @answered body pending reply present method decoded =>
    obtain ⟨_, parses, _⟩ := Contract.decode_ok decoded
    obtain ⟨m, written, rfl⟩ := joined.swap.sent plain present (readable_of_object parses)
    obtain ⟨sent, rfl, received⟩ := Contract.decode_answer decoded
    exact ⟨sent, pending, handed written, method, by rw [received]⟩
  | @unreadable body pending issue present method failed carried routed =>
    have reads : readable body = true := by
      unfold Envelope.kindOf? at routed
      split at routed
      · rename_i parses
        exact readable_of_object parses
      · cases routed
    obtain ⟨m, written, rfl⟩ := joined.swap.sent plain present reads
    obtain ⟨sent, fault, rfl, received, rfl⟩ := Contract.decode_misread failed carried routed
    exact ⟨sent, pending, handed written, method, by rw [received]⟩

theorem Joined.uncancelled {e : Entry} {task : Nat} {t : Task} (joined : Joined a b as bs left right) (plain : a.Plain)
    (rightOpen : right.phase ≠ .closed) (account : Account left right book) (present : e ∈ book)
    (fate : e.fate = .task task) (found : right.tasks[task]? = some t) (named : t.request.id = e.id)
    (untold : ∀ note, .notification note ∈ left.wrote → b.served.isCancelMethod note.method = true →
      note.named? ≠ some e.id)
    (unfired : .signalOwn task ∉ bs) : t.cancelled = false := by
  apply Bool.eq_false_iff.mpr
  intro signal
  cases Connection.runs_cancelled joined.rightRuns found signal with
  | closed gone => exact rightOpen gone
  | own fired => exact unfired fired
  | notice present decoded cancels names =>
    obtain ⟨_, parses, _⟩ := Contract.decode_ok decoded
    obtain ⟨m, written, rfl⟩ := joined.sent plain present (readable_of_object parses)
    obtain ⟨sent, rfl, method, params⟩ := Contract.decode_notification decoded
    have served : right.served = b.served := (Connection.runs_forward joined.rightRuns).served
    rw [served, method] at cancels
    exact untold sent written cancels (named ▸ Connection.cancelledId?_sent params names)
  | @reused m t' later found' again =>
    have same := account.only_task present fate found' (again.trans named)
    omega

end Pair
end DuplexRpc
