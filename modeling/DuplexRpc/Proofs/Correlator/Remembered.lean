import DuplexRpc.Proofs.Correlator.Ending
import DuplexRpc.Proofs.Correlator.Line

namespace DuplexRpc.Correlator
variable {c : Correlator} {move : Move} {id other : RequestId} {sent : Nat} {moves : List Move}

-- The id that a move cancels while its request is pending.
def withdrawn? (c : Correlator) : Move → Option RequestId
  | .act (.cancel id) => if (c.pending.lookup id).isSome then some id else none
  | _ => none

-- The ids that moves cancel, in the order in which they do.
def withdrawn (c : Correlator) : List Move → List RequestId
  | [] => []
  | move :: rest => (c.withdrawn? move).toList ++ (c.move move).withdrawn rest

def asked (moves : List Move) : Nat := moves.countP (·.isSend)

-- What a move leaves of the window of cancelled ids.
def windowAfter (c : Correlator) : Move → List RequestId
  | .act (.resolve id _) => if (c.pending.lookup id).isSome then c.cancelled else c.cancelled.erase id
  | .act (.cancel id) => if (c.pending.lookup id).isSome then remember c.cancelled id else c.cancelled
  | .act .failAll => []
  | _ => c.cancelled

theorem resolve_cancelled (c : Correlator) (id : RequestId) (reply : Reply) :
    (c.resolve id reply).2.cancelled =
      if (c.pending.lookup id).isSome then c.cancelled else c.cancelled.erase id := by
  cases pending : c.pending.lookup id with
  | some entry => simp [resolve, pending, complete, forgetPending]
  | none =>
    by_cases late : id ∈ c.cancelled
    · simp [resolve, pending, late]
    · simp [resolve, pending, late, List.erase_of_not_mem]

theorem cancel_cancelled (c : Correlator) (id : RequestId) :
    (c.cancel id).2.cancelled = if (c.pending.lookup id).isSome then remember c.cancelled id else c.cancelled := by
  cases pending : c.pending.lookup id with
  | none => simp [cancel, pending]
  | some entry =>
    cases told : c.cancellation with
    | none => simp [cancel, pending, told, complete, forgetPending]
    | some settings =>
      simp only [cancel, pending, complete, forgetPending, told]
      split <;> rename_i answer <;> simp only [offer, Prod.mk.injEq] at answer <;> rw [← answer.2] <;> rfl

-- What a move leaves of the ids: the one that is next, and those of the window.
structure Leaves (c : Correlator) (move : Move) (after : Correlator) : Prop where
  nextId : after.nextId = if move.isSend then c.nextId + 1 else c.nextId
  cancelled : after.cancelled = c.windowAfter move

theorem send_leaves (c : Correlator) (method : String) (params : Option Payload) :
    Leaves c (.act (.send method params)) (c.send method params).2 := by
  have used : (c.recorded method).nextId = c.nextId + 1 := record_nextId ..
  have kept : (c.recorded method).cancelled = c.cancelled := record_cancelled ..
  rcases c.send_cases method params with ⟨_, sent⟩ | ⟨_, _, sent⟩ | ⟨_, _, _, sent⟩ | ⟨_, _, _, sent⟩ <;> rw [sent]
  · exact ⟨rfl, rfl⟩
  all_goals exact ⟨used, kept⟩

theorem move_leaves (c : Correlator) (move : Move) : Leaves c move (c.move move) := by
  cases move with
  | offer message standing => exact ⟨rfl, rfl⟩
  | act action =>
    cases action with
    | send method params => exact c.send_leaves method params
    | turn ticket =>
      change Leaves c _ (c.turn ticket)
      unfold turn
      split <;> exact ⟨rfl, rfl⟩
    | resolve id reply =>
      refine ⟨?_, resolve_cancelled c id reply⟩
      change (c.resolve id reply).2.nextId = c.nextId
      rw [resolve_fields]
      exact settle_nextId ..
    | fail id error =>
      change Leaves c _ (c.fail id error).2
      rw [fail_eq]
      exact ⟨settle_nextId .., settle_cancelled ..⟩
    | cancel id =>
      refine ⟨?_, cancel_cancelled c id⟩
      change (c.cancel id).2.nextId = c.nextId
      rw [cancel_fields]
      exact settle_nextId ..
    | failAll =>
      change Leaves c _ c.failAll.2
      rw [failAll_eq]
      exact ⟨rfl, rfl⟩
    | take =>
      change Leaves c _ (c.step .take)
      rcases c.step_take with ⟨_, same⟩ | ⟨_, _, taken, same⟩ <;> rw [same]
      · exact ⟨rfl, rfl⟩
      · rw [take_fields taken]
        exact ⟨rfl, rfl⟩
    | poll call =>
      change Leaves c _ (c.poll call).2
      rw [poll_fields]
      exact ⟨rfl, rfl⟩
    | abandon ticket | disconnect | forget call => exact ⟨rfl, rfl⟩

theorem move_cancelled (c : Correlator) (move : Move) : (c.move move).cancelled = c.windowAfter move :=
  (c.move_leaves move).cancelled

-- Nothing comes into the table but under the next id.
theorem send_listed {method : String} {params : Option Payload} (other : id ≠ c.fresh) :
    (c.send method params).2.pending.lookup id = c.pending.lookup id := by
  have kept : (c.recorded method).pending.lookup id = c.pending.lookup id := by
    rw [recorded_pending, Table.lookup_put, if_neg other]
  rcases c.send_cases method params with ⟨_, sent⟩ | ⟨_, _, sent⟩ | ⟨_, _, _, sent⟩ | ⟨_, _, _, sent⟩ <;> rw [sent]
  · simp only [forgetPending, Table.lookup_erase, if_neg other, kept]
  · exact kept
  · exact kept

theorem move_listed (present : ((c.move move).pending.lookup id).isSome) :
    (c.pending.lookup id).isSome ∨ (move.isSend ∧ id = c.fresh) := by
  have effect := move_effect c move
  generalize c.move move = after at effect present
  cases effect with
  | still _ pending _ => exact .inl (pending ▸ present)
  | sent method params =>
    by_cases fresh : id = c.fresh
    · exact .inr ⟨rfl, fresh⟩
    · exact .inl (send_listed fresh ▸ present)
  | settled other outcome _ _ =>
    change ((c.settle other outcome).pending.lookup id).isSome at present
    rw [settle_lookup] at present
    split at present
    · cases present
    · exact .inl present
  | failed =>
    rw [failAll_eq] at present
    cases present
  | disconnected =>
    rw [disconnect_lookup] at present
    split at present
    · cases present
    · exact .inl present

theorem withdrawn?_eq_some : c.withdrawn? move = some id ↔
    move = .act (.cancel id) ∧ (c.pending.lookup id).isSome := by
  constructor
  · intro cancels
    unfold withdrawn? at cancels
    split at cancels
    · split at cancels
      · rename_i pending
        obtain rfl := Option.some.inj cancels
        exact ⟨rfl, pending⟩
      · cases cancels
    · cases cancels
  · rintro ⟨rfl, pending⟩
    exact if_pos pending

theorem remember_sublist (cancelled : List RequestId) (id : RequestId) :
    (remember cancelled id).Sublist (cancelled ++ [id]) := by
  unfold remember
  split
  · exact (List.drop_sublist 1 cancelled).append_right [id]
  · exact .refl _

theorem length_remember {cancelled : List RequestId} (few : cancelled.length ≤ cancelledWindow) (id : RequestId) :
    (remember cancelled id).length ≤ cancelledWindow := by
  unfold remember
  split
  · rename_i full
    simp only [List.length_append, List.length_drop, List.length_singleton, full]
    decide
  · simp only [List.length_append, List.length_singleton]
    omega

-- An id goes into the window when it is cancelled, and the window keeps its order.
theorem windowAfter_sublist (c : Correlator) (move : Move) :
    (c.windowAfter move).Sublist (c.cancelled ++ (c.withdrawn? move).toList) := by
  unfold windowAfter
  split
  · refine List.Sublist.trans ?_ (List.sublist_append_left ..)
    split
    · exact .refl _
    · exact List.erase_sublist
  · simp only [withdrawn?]
    split
    · exact remember_sublist ..
    · exact List.sublist_append_left ..
  · exact List.nil_sublist _
  · exact List.sublist_append_left ..

theorem moveAll_sublist (c : Correlator) (moves : List Move) :
    (c.moveAll moves).cancelled.Sublist (c.cancelled ++ c.withdrawn moves) := by
  induction moves generalizing c with
  | nil => simp [moveAll, withdrawn]
  | cons move rest ih =>
    have here := c.windowAfter_sublist move
    rw [← move_cancelled] at here
    rw [withdrawn, ← List.append_assoc]
    exact (ih (c.move move)).trans (here.append_right _)

theorem move_length (few : c.cancelled.length ≤ cancelledWindow) (move : Move) :
    (c.move move).cancelled.length ≤ cancelledWindow := by
  rw [move_cancelled]
  unfold windowAfter
  split
  · split
    · exact few
    · exact Nat.le_trans List.erase_sublist.length_le few
  · split
    · exact length_remember few _
    · exact few
  · exact Nat.zero_le _
  · exact few

theorem moveAll_length (few : c.cancelled.length ≤ cancelledWindow) (moves : List Move) :
    (c.moveAll moves).cancelled.length ≤ cancelledWindow := by
  induction moves generalizing c with
  | nil => exact few
  | cons move rest ih => exact ih (move_length few move)

-- The window beside the table, as long as no id has come round again.
structure Window (c : Correlator) (sent : Nat) : Prop where
  counted : c.fresh = idAfter sent
  listed : ∀ id, (c.pending.lookup id).isSome → ∃ earlier < sent, id = idAfter earlier
  issued : ∀ id ∈ c.cancelled, ∃ earlier < sent, id = idAfter earlier
  ended : ∀ id ∈ c.cancelled, c.pending.lookup id = none
  distinct : c.cancelled.Nodup

theorem initial_window (cancellation : Option CancelSettings) (capacity : Nat) :
    Window (initial cancellation capacity) 0 :=
  ⟨rfl, by simp [initial], by simp [initial], by simp [initial], List.nodup_nil⟩

-- An id that is not pending is not pending again.
theorem Window.absent (window : Window c sent) (few : move.isSend → sent < 0x10000000000000000)
    (issued : ∃ earlier < sent, id = idAfter earlier) (absent : c.pending.lookup id = none) :
    (c.move move).pending.lookup id = none := by
  refine Option.not_isSome_iff_eq_none.mp fun present => ?_
  rcases move_listed present with before | ⟨sends, fresh⟩
  · simp [absent] at before
  · obtain ⟨earlier, before, named⟩ := issued
    have := idAfter_inj (by have := few sends; omega) (few sends) (named.symm.trans (fresh.trans window.counted))
    omega

theorem mem_move (remembered : id ∈ (c.move move).cancelled) :
    id ∈ c.cancelled ∨ move = .act (.cancel id) ∧ (c.pending.lookup id).isSome := by
  rw [move_cancelled] at remembered
  simpa [withdrawn?_eq_some] using (c.windowAfter_sublist move).subset remembered

theorem Window.next (window : Window c sent) (move : Move) (few : move.isSend → sent < 0x10000000000000000) :
    Window (c.move move) (sent + if move.isSend then 1 else 0) := by
  have issued : ∀ id, (id ∈ c.cancelled ∨ (c.pending.lookup id).isSome) →
      ∃ earlier < sent, id = idAfter earlier := by
    rintro id (remembered | pending)
    · exact window.issued id remembered
    · exact window.listed id pending
  constructor
  · rw [fresh, (c.move_leaves move).nextId]
    split
    · have now : c.nextId = Int64.ofNat (sent + 1) := RequestId.number.inj window.counted
      rw [idAfter, now, Int64.ofNat_add (sent + 1) 1]
      rfl
    · exact window.counted
  · intro id present
    rcases move_listed present with before | ⟨sends, fresh⟩
    · obtain ⟨earlier, before, named⟩ := window.listed id before
      exact ⟨earlier, by omega, named⟩
    · exact ⟨sent, by simp [sends], fresh.trans window.counted⟩
  · intro id remembered
    obtain ⟨earlier, before, named⟩ := issued id ((mem_move remembered).imp_right And.right)
    exact ⟨earlier, by omega, named⟩
  · intro id remembered
    rcases mem_move remembered with before | ⟨rfl, pending⟩
    · exact window.absent few (window.issued id before) (window.ended id before)
    · change (c.cancel id).2.pending.lookup id = none
      rw [cancel_fields]
      exact (settle_lookup ..).trans (if_pos rfl)
  · rw [move_cancelled]
    refine (c.windowAfter_sublist move).nodup (List.nodup_append.mpr ⟨window.distinct, Option.toList_nodup _, ?_⟩)
    rintro id remembered other cancels rfl
    have pending := (withdrawn?_eq_some.mp (Option.mem_toList.mp cancels)).2
    simp [window.ended id remembered] at pending

theorem asked_cons (move : Move) (moves : List Move) :
    asked (move :: moves) = asked moves + if move.isSend then 1 else 0 :=
  List.countP_cons

theorem asked_append (moves more : List Move) : asked (moves ++ more) = asked moves + asked more :=
  List.countP_append

-- As long as ids are left for all moves, there is one for the first that asks.
theorem asked_next (few : sent + asked (move :: moves) ≤ 0x10000000000000000) :
    (move.isSend → sent < 0x10000000000000000) ∧
      sent + (if move.isSend then 1 else 0) + asked moves ≤ 0x10000000000000000 := by
  rw [asked_cons] at few
  refine ⟨fun sends => ?_, by omega⟩
  rw [if_pos sends] at few
  omega

theorem Window.moveAll (window : Window c sent) (moves : List Move) (few : sent + asked moves ≤ 0x10000000000000000) :
    Window (c.moveAll moves) (sent + asked moves) := by
  induction moves generalizing c sent with
  | nil => exact window
  | cons move rest ih =>
    obtain ⟨sends, few'⟩ := asked_next few
    have later := ih (window.next move sends) few'
    rwa [asked_cons, Nat.add_comm (asked rest), ← Nat.add_assoc]

-- What leaves the window, but for room.
def Move.spares (id : RequestId) : Move → Bool
  | .act (.resolve other _) => other ≠ id
  | .act .failAll => false
  | _ => true

theorem spares_all : (∀ move ∈ moves, move.spares id) ↔
    (∀ reply, .act (.resolve id reply) ∉ moves) ∧ .act .failAll ∉ moves := by
  constructor
  · intro spared
    exact ⟨fun reply present => by simpa [Move.spares] using spared _ present,
      fun present => by simpa [Move.spares] using spared _ present⟩
  · rintro ⟨unanswered, alive⟩ move present
    unfold Move.spares
    split
    · rename_i other reply
      have apart : other ≠ id := by
        rintro rfl
        exact unanswered reply present
      simpa using apart
    · exact absurd present alive
    · rfl

-- A place in the window, counted from its end, is lost only to later cancellations.
theorem move_place {front back : List RequestId} (spared : move.spares id) (place : c.cancelled = front ++ id :: back)
    (room : back.length + (c.withdrawn? move).toList.length < cancelledWindow) :
    ∃ front' back', (c.move move).cancelled = front' ++ id :: back' ∧
      back'.length ≤ back.length + (c.withdrawn? move).toList.length := by
  rw [move_cancelled]
  unfold windowAfter
  split
  · rename_i other reply
    have apart : other ≠ id := by simpa [Move.spares] using spared
    split
    · exact ⟨front, back, place, Nat.le_add_right ..⟩
    · rw [place]
      by_cases earlier : other ∈ front
      · exact ⟨front.erase other, back, List.erase_append_left _ earlier, Nat.le_add_right ..⟩
      · refine ⟨front, back.erase other, ?_, ?_⟩
        · rw [List.erase_append_right _ earlier, List.erase_cons_tail (by simpa using Ne.symm apart)]
        · exact Nat.le_trans List.erase_sublist.length_le (Nat.le_add_right ..)
  · rename_i other
    simp only [withdrawn?] at room ⊢
    split
    · rename_i pending
      simp only [pending, if_true, Option.toList_some, List.length_singleton] at room ⊢
      unfold remember
      cases front with
      | nil =>
        rw [if_neg]
        · exact ⟨[], back ++ [other], by simp [place], by simp⟩
        · rw [place]
          simp only [List.nil_append, List.length_cons]
          omega
      | cons oldest front =>
        split
        · exact ⟨front, back ++ [other], by simp [place], by simp⟩
        · exact ⟨oldest :: front, back ++ [other], by simp [place], by simp⟩
    · exact ⟨front, back, place, Nat.le_add_right ..⟩
  · cases spared
  · exact ⟨front, back, place, Nat.le_add_right ..⟩

theorem moveAll_place {front back : List RequestId} (spared : ∀ move ∈ moves, move.spares id)
    (place : c.cancelled = front ++ id :: back) (room : back.length + (c.withdrawn moves).length < cancelledWindow) :
    id ∈ (c.moveAll moves).cancelled := by
  induction moves generalizing c front back with
  | nil => simp [moveAll, place]
  | cons move rest ih =>
    rw [withdrawn, List.length_append] at room
    obtain ⟨front', back', place', few⟩ :=
      move_place (spared move List.mem_cons_self) place (by omega)
    exact ih (fun later present => spared later (List.mem_cons_of_mem _ present)) place' (by omega)

theorem Window.spared (window : Window c sent) (before : id ∈ c.cancelled) (after : id ∈ (c.move move).cancelled) :
    move.spares id := by
  rw [move_cancelled] at after
  unfold Move.spares
  split
  · rename_i other reply
    have apart : other ≠ id := by
      rintro rfl
      simp only [windowAfter, window.ended other before, Option.isSome_none, Bool.false_eq_true, if_false] at after
      exact window.distinct.not_mem_erase after
    simpa using apart
  · simp [windowAfter] at after
  · rfl

theorem runs_window (cancellation : Option CancelSettings) (capacity : Nat) (moves : List Move)
    (few : asked moves ≤ 0x10000000000000000) :
    Window ((initial cancellation capacity).moveAll moves) (asked moves) := by
  have later := (initial_window cancellation capacity).moveAll moves (by omega)
  rwa [Nat.zero_add] at later

-- A request that is pending after some moves, is then cancelled, and has since been neither answered nor
-- ended together with all others.
structure Withdrawn (origin : Correlator) (id : RequestId) (earlier later : List Move) : Prop where
  pending : ((origin.moveAll earlier).pending.lookup id).isSome
  unanswered : ∀ reply, .act (.resolve id reply) ∉ later
  alive : .act .failAll ∉ later

-- What is remembered was cancelled while pending, and nothing since took it out.
theorem runs_remembered {cancellation : Option CancelSettings} {capacity : Nat}
    (few : asked moves ≤ 0x10000000000000000)
    (remembered : id ∈ ((initial cancellation capacity).moveAll moves).cancelled) :
    ∃ earlier later, moves = earlier ++ .act (.cancel id) :: later ∧
      Withdrawn (initial cancellation capacity) id earlier later := by
  suffices spared : ∃ earlier later, moves = earlier ++ .act (.cancel id) :: later ∧
      (((initial cancellation capacity).moveAll earlier).pending.lookup id).isSome ∧
      ∀ move ∈ later, move.spares id by
    obtain ⟨earlier, later, split, pending, spared⟩ := spared
    obtain ⟨unanswered, alive⟩ := spares_all.mp spared
    exact ⟨earlier, later, split, pending, unanswered, alive⟩
  induction moves using List.reverseRecOn with
  | nil => simp [Correlator.moveAll, initial] at remembered
  | append_singleton before move ih =>
    rw [asked_append] at few
    have window := runs_window cancellation capacity before (by omega)
    rw [moveAll_append] at remembered
    rcases mem_move remembered with already | ⟨rfl, pending⟩
    · obtain ⟨earlier, later, rfl, pending, spared⟩ := ih (by omega) already
      refine ⟨earlier, later ++ [move], by simp, pending, fun other present => ?_⟩
      rcases List.mem_append.mp present with old | new
      · exact spared other old
      · exact List.mem_singleton.mp new ▸ window.spared already remembered
    · exact ⟨before, [], rfl, pending, by simp⟩

theorem remember_place (cancelled : List RequestId) (id : RequestId) :
    ∃ front, remember cancelled id = front ++ [id] :=
  ⟨_, rfl⟩

-- An id stays in the window while fewer others are cancelled than there is room for.
theorem Withdrawn.remembered {origin : Correlator} {earlier later : List Move}
    (withdrawn : Withdrawn origin id earlier later)
    (room : ((origin.moveAll (earlier ++ [.act (.cancel id)])).withdrawn later).length < cancelledWindow) :
    id ∈ (origin.moveAll (earlier ++ .act (.cancel id) :: later)).cancelled := by
  have window : ((origin.moveAll earlier).move (.act (.cancel id))).cancelled =
      remember (origin.moveAll earlier).cancelled id :=
    (move_cancelled ..).trans (if_pos withdrawn.pending)
  obtain ⟨front, place⟩ := remember_place (origin.moveAll earlier).cancelled id
  have spared := spares_all.mpr ⟨withdrawn.unanswered, withdrawn.alive⟩
  rw [moveAll_append] at room ⊢
  exact moveAll_place (c := (origin.moveAll earlier).move (.act (.cancel id))) spared (window.trans place)
    (by rw [List.length_nil, Nat.zero_add]; exact room)

theorem resolve_remembered (remembered : id ∈ c.cancelled) (absent : c.pending.lookup id = none) (reply : Reply) :
    c.resolve id reply = (none, { c with cancelled := c.cancelled.erase id }) := by
  simp only [resolve, absent, if_pos remembered]

theorem resolve_unknown (forgotten : id ∉ c.cancelled) (absent : c.pending.lookup id = none) (reply : Reply) :
    c.resolve id reply = (some (unmatched id), c) := by
  simp only [resolve, absent, if_neg forgotten]

-- What is neither pending nor remembered, once issued, is neither again.
theorem Window.forgotten (window : Window c sent) (moves : List Move) (few : sent + asked moves ≤ 0x10000000000000000)
    (issued : ∃ earlier < sent, id = idAfter earlier) (absent : c.pending.lookup id = none)
    (forgotten : id ∉ c.cancelled) :
    (c.moveAll moves).pending.lookup id = none ∧ id ∉ (c.moveAll moves).cancelled := by
  induction moves generalizing c sent with
  | nil => exact ⟨absent, forgotten⟩
  | cons move rest ih =>
    obtain ⟨sends, few'⟩ := asked_next few
    obtain ⟨earlier, before, named⟩ := issued
    refine ih (window.next move sends) few' ⟨earlier, by omega, named⟩
      (window.absent sends ⟨earlier, before, named⟩ absent) ?_
    intro remembered
    rcases mem_move remembered with already | ⟨_, pending⟩
    · exact forgotten already
    · simp [absent] at pending

-- After the one answer that is dropped, the next is one to a request that nobody made.
theorem Window.answered_twice (window : Window c sent) (few : sent + asked moves ≤ 0x10000000000000000)
    (remembered : id ∈ c.cancelled) (first next : Reply) :
    let later := (c.resolve id first).2.moveAll moves
    later.resolve id next = (some (unmatched id), later) := by
  have absent := window.ended id remembered
  have issued := window.issued id remembered
  have after : Window (c.resolve id first).2 sent := window.next (.act (.resolve id first)) nofun
  have dropped := resolve_remembered remembered absent first
  rw [dropped] at after ⊢
  obtain ⟨absent', forgotten⟩ := after.forgotten moves few issued absent window.distinct.not_mem_erase
  exact resolve_unknown forgotten absent' next

end DuplexRpc.Correlator
