import DuplexRpc.Proofs.Correlator.Queue
import DuplexRpc.Proofs.Correlator.Placement

namespace DuplexRpc

section Pairs
variable {α : Type} {one two : α} {messages more : List α}

end Pairs

namespace Outbound
open List (Subperm)
variable {q after : Outbound} {m new : Message} {standing : Standing} {ticket : Nat} {waiting fewer : List Waiter}
  {offers : List Message}

-- What entered, and behind it what waits to enter.
def history (q : Outbound) : List Message := q.accepted ++ q.waiting.map (·.message)

theorem mem_offer_history (present : m ∈ (q.offer new standing).2.history) : m ∈ q.history ∨ m ∈ [new] := by
  rcases q.offer_cases new standing with ⟨_, same⟩ | ⟨_, _, same⟩ | ⟨_, _, same⟩ <;> rw [same] at present
  · exact .inl present
  · simp only [history, enter, List.mem_append] at present ⊢
    tauto
  · simp only [history, List.map_append, List.map_cons, List.map_nil, List.mem_append] at present ⊢
    tauto

theorem mem_turn_history (present : m ∈ (q.turn ticket).2.history) : m ∈ q.history := by
  rcases q.turn_cases ticket with ⟨w, waits, _, same⟩ | same | same <;> rw [same] at present
  · rcases List.mem_append.mp present with entered | waits'
    · rcases List.mem_append.mp entered with old | new
      · exact List.mem_append_left _ old
      · rw [List.mem_singleton.mp new]
        exact List.mem_append_right _ (List.mem_map_of_mem waits)
    · exact List.mem_append_right _ ((List.filter_sublist.map _).subset waits')
  · exact ((standInLine_messages q ticket).append_left q.accepted).subset present
  · exact present

theorem mem_abandon_history (present : m ∈ (q.abandon ticket).history) : m ∈ q.history := by
  rw [history, abandon, admitNext_messages, admitNext_accepted] at present
  exact ((List.filter_sublist.map _).append_left q.accepted).subset present

theorem mem_take_history {first : Message} (taken : q.take = some (first, after)) (present : m ∈ after.history) :
    m ∈ q.history := by
  obtain ⟨rest, _, rfl⟩ := take_cases taken
  rwa [history, admitNext_messages, admitNext_accepted] at present

-- Whoever waits stands in line, and whoever was given room stands in front of those who were not.
structure InFile (waiting : List Waiter) : Prop where
  standing : ∀ w ∈ waiting, w.standing ≠ .arriving
  admitted : waiting.Pairwise fun first later => later.standing = .admitted → first.standing = .admitted
  tickets : (waiting.map (·.ticket)).Nodup

theorem InFile.sublist (file : InFile waiting) (less : fewer.Sublist waiting) : InFile fewer :=
  ⟨fun w present => file.standing w (less.subset present), file.admitted.sublist less, file.tickets.sublist (less.map _)⟩

-- The first in line who has no room yet is given it, and there is one unless all have it.
theorem admitFirst_standing (standing : ∀ w ∈ waiting, w.standing ≠ .arriving) :
    ((∀ w ∈ waiting, w.standing = .admitted) ∧ admitFirst waiting = waiting) ∨
    ∃ front w back, waiting = front ++ w :: back ∧ (∀ v ∈ front, v.standing = .admitted) ∧ w.standing = .inLine ∧
      admitFirst waiting = front ++ { w with standing := .admitted } :: back := by
  have admitted : ∀ w ∈ waiting, w.standing ≠ .inLine → w.standing = .admitted := by
    intro w present other
    have here := standing w present
    cases stands : w.standing with
    | arriving => exact absurd stands here
    | inLine => exact absurd stands other
    | admitted => rfl
  rcases admitFirst_cases waiting with ⟨nobody, same⟩ | ⟨front, w, back, rfl, early, inLine, same⟩
  · exact .inl ⟨fun w present => admitted w present (nobody w present), same⟩
  · exact .inr ⟨front, w, back, rfl,
      fun v present => admitted v (List.mem_append_left _ present) (early v present), inLine, same⟩

theorem InFile.admitFirst (file : InFile waiting) : InFile (admitFirst waiting) := by
  rcases admitFirst_standing file.standing with ⟨_, same⟩ | ⟨front, w, back, rfl, all, _, same⟩ <;> rw [same]
  · exact file
  · obtain ⟨standing, admitted, tickets⟩ := file
    obtain ⟨before, here, _⟩ := List.pairwise_append.mp admitted
    refine ⟨fun v present => ?_, ?_, by simpa using tickets⟩
    · rcases List.mem_append.mp present with old | new
      · exact standing v (List.mem_append_left _ old)
      · rcases List.mem_cons.mp new with rfl | later
        · exact nofun
        · exact standing v (List.mem_append_right _ (List.mem_cons_of_mem _ later))
    · refine List.pairwise_append.mpr ⟨before, List.pairwise_cons.mpr ⟨fun _ _ _ => rfl, ?_⟩, fun v present _ _ _ => all v present⟩
      exact (List.pairwise_cons.mp here).2

theorem InFile.concat {w : Waiter} (file : InFile waiting) (stands : w.standing = .inLine)
    (fresh : w.ticket ∉ waiting.map (·.ticket)) : InFile (waiting ++ [w]) := by
  refine ⟨fun v present => ?_, ?_, ?_⟩
  · rcases List.mem_append.mp present with old | new
    · exact file.standing v old
    · rw [List.mem_singleton.mp new, stands]
      exact nofun
  · refine List.pairwise_append.mpr ⟨file.admitted, List.pairwise_singleton _ _, fun _ _ v last given => ?_⟩
    rw [List.mem_singleton.mp last, stands] at given
    cases given
  · rw [List.map_append, List.nodup_append]
    refine ⟨file.tickets, List.nodup_singleton _, fun ticket old last new same => fresh ?_⟩
    have mine : last = w.ticket := List.mem_singleton.mp new
    rwa [← mine, ← same]

theorem InFile.admitNext (file : InFile q.waiting) : InFile q.admitNext.waiting := by
  unfold Outbound.admitNext
  split
  · exact file.admitFirst
  · exact file

theorem hasRoom_iff : q.hasRoom ↔ q.queued.length + q.admittedCount < q.capacity := by
  simp [hasRoom]

-- Room that is given away is used up, so that afterwards there is some only if nobody is left to take it.
theorem admitNext_room (file : InFile q.waiting)
    (spare : q.queued.length + q.admittedCount + 1 < q.capacity → ∀ w ∈ q.waiting, w.standing = .admitted)
    (room : q.admitNext.hasRoom) : ∀ w ∈ q.admitNext.waiting, w.standing = .admitted := by
  unfold admitNext at room ⊢
  split at room
  · rename_i free
    rw [if_pos free]
    rcases admitFirst_standing file.standing with ⟨all, same⟩ | ⟨front, w, back, split, _, waits, same⟩
    · rwa [same]
    · have one : ({ q with waiting := admitFirst q.waiting } : Outbound).admittedCount = q.admittedCount + 1 := by
        rw [admittedCount, admittedCount, same, split]
        simp only [List.filter_append, List.filter_cons, List.length_append, waits]
        simp
        omega
      have left := hasRoom_iff.mp room
      rw [one] at left
      have stands := spare left w (split ▸ List.mem_append_right _ List.mem_cons_self)
      cases waits.symm.trans stands
  · rename_i full
    exact absurd room full

theorem admittedCount_remove (tickets : (q.waiting.map (·.ticket)).Nodup) (ticket : Nat) :
    q.admittedCount ≤ (q.remove ticket).admittedCount + 1 := by
  have apart : ((q.waiting.filter (·.standing = .admitted)).map (·.ticket)).Nodup :=
    tickets.sublist (List.filter_sublist.map _)
  have left : ((q.remove ticket).waiting.filter (·.standing = .admitted)).map (·.ticket) =
      ((q.waiting.filter (·.standing = .admitted)).map (·.ticket)).erase ticket := by
    rw [apart.erase_eq_filter, List.filter_map, remove, List.filter_comm]
    congr 2
    exact funext fun w => by simp [bne, beq_eq_decide]
  have lengths := congrArg List.length left
  simp only [List.length_map, List.length_erase] at lengths
  simp only [admittedCount, lengths]
  split <;> omega

-- A line whose senders stand in it from the start: in the order in which their messages were
-- offered, and where there is room, everybody was given it.
structure Ordered (q : Outbound) (offers : List Message) : Prop where
  file : InFile q.waiting
  room : q.hasRoom → ∀ w ∈ q.waiting, w.standing = .admitted
  below : q.Below
  order : (q.waiting.map (·.message)).Sublist offers
  history : q.history.Subperm offers

theorem Ordered.more (ordered : Ordered q offers) (more : List Message) : Ordered q (offers ++ more) :=
  ⟨ordered.file, ordered.room, ordered.below, ordered.order.trans (List.sublist_append_left ..),
    ordered.history.trans (List.sublist_append_left ..).subperm⟩

theorem Ordered.nobody (nobody : q.waiting = []) (entered : q.accepted.Subperm offers) : Ordered q offers := by
  refine ⟨⟨?_, ?_, ?_⟩, ?_, ?_, ?_, ?_⟩ <;> simp [nobody, Below, Outbound.history, entered]

theorem Ordered.offer (ordered : Ordered q offers) (m : Message) : Ordered (q.offer m .inLine).2 (offers ++ [m]) := by
  have grown : Subperm (q.accepted ++ q.waiting.map (·.message) ++ [m]) (offers ++ [m]) :=
    ordered.history.append (.refl _)
  rcases q.offer_cases m .inLine with ⟨_, same⟩ | ⟨_, _, same⟩ | ⟨_, full, same⟩ <;> rw [same]
  · exact ordered.more [m]
  · refine ⟨ordered.file, fun room => ordered.room ?_, ordered.below, (ordered.more [m]).order, ?_⟩
    · rw [hasRoom_iff] at room ⊢
      simp only [enter, List.length_append] at room
      exact Nat.lt_of_le_of_lt (Nat.add_le_add_right (Nat.le_add_right ..) _) room
    · refine Subperm.trans (List.Perm.subperm ?_) grown
      simp only [Outbound.history, enter, List.append_assoc]
      exact List.perm_append_comm.append_left _
  · have fresh : q.nextTicket ∉ q.waiting.map (·.ticket) := by
      intro known
      obtain ⟨w, waits, same⟩ := List.mem_map.mp known
      exact Nat.ne_of_lt (ordered.below w waits) same
    have below := (offer_keeps q m .inLine).below ordered.below
    rw [same] at below
    refine ⟨ordered.file.concat rfl fresh, fun room => ?_, below, ?_, ?_⟩
    · have still : q.hasRoom := hasRoom_iff.mpr (by simpa [hasRoom, admittedCount] using room)
      exact absurd still (by simp [full])
    · simp only [List.map_append]
      exact ordered.order.append (.refl _)
    · simp only [Outbound.history, List.map_append, ← List.append_assoc]
      exact grown

theorem Ordered.remove (ordered : Ordered q offers) (ticket : Nat) : InFile (q.remove ticket).waiting ∧
    ((q.remove ticket).waiting.map (·.message)).Sublist offers :=
  ⟨ordered.file.sublist List.filter_sublist, (List.filter_sublist.map _).trans ordered.order⟩

-- Where everybody stands in line, only a sender that was given room enters at its turn.
theorem InFile.turn_cases (file : InFile q.waiting) (ticket : Nat) :
    (∃ w ∈ q.waiting, w.ticket = ticket ∧ w.standing = .admitted ∧
      q.turn ticket = (some w.message, (q.remove ticket).enter w.message)) ∨ q.turn ticket = (none, q) := by
  unfold Outbound.turn
  split
  · exact .inr rfl
  · rename_i w found
    have present : w ∈ q.waiting := List.mem_of_find?_eq_some found
    have named : w.ticket = ticket := by simpa using List.find?_some found
    split
    · exact .inl ⟨w, present, named, by assumption, rfl⟩
    · exact .inr rfl
    · exact absurd (by assumption) (file.standing w present)

theorem Ordered.turn (ordered : Ordered q offers) (ticket : Nat) : Ordered (q.turn ticket).2 offers := by
  rcases ordered.file.turn_cases ticket with ⟨w, present, named, _, same⟩ | same <;> rw [same]
  · obtain ⟨file, order⟩ := ordered.remove ticket
    refine ⟨file, fun room v waits => ?_, enter_below ordered.below ticket w.message, order, ?_⟩
    · refine ordered.room ?_ v (mem_remove.mp waits).1
      have one := admittedCount_remove ordered.file.tickets ticket
      rw [hasRoom_iff] at room ⊢
      simp only [enter, List.length_append, List.length_singleton] at room
      have there : (q.remove ticket).queued.length + 1 + (q.remove ticket).admittedCount < q.capacity := room
      have kept : (q.remove ticket).queued = q.queued := rfl
      rw [kept] at there
      omega
    · refine Subperm.trans ?_ ordered.history
      have entered := (List.subperm_append_left q.accepted).mpr (remove_line present named)
      simpa [Outbound.history, enter, Outbound.remove] using entered
  · exact ordered

theorem Ordered.abandon (ordered : Ordered q offers) (ticket : Nat) : Ordered (q.abandon ticket) offers := by
  obtain ⟨file, order⟩ := ordered.remove ticket
  refine ⟨file.admitNext, admitNext_room file fun spare v waits => ?_, abandon_below ordered.below ticket, ?_, ?_⟩
  · refine ordered.room ?_ v (mem_remove.mp waits).1
    have one := admittedCount_remove ordered.file.tickets ticket
    have there : q.queued.length + (q.remove ticket).admittedCount + 1 < q.capacity := spare
    exact hasRoom_iff.mpr (by omega)
  · rwa [Outbound.abandon, admitNext_messages]
  · rw [Outbound.history, Outbound.abandon, admitNext_accepted, admitNext_messages]
    exact ((List.filter_sublist.map _).append_left q.accepted).subperm.trans ordered.history

theorem Ordered.take {first : Message} (ordered : Ordered q offers) (taken : q.take = some (first, after)) :
    Ordered after offers := by
  have below := (take_keeps taken).below ordered.below
  obtain ⟨rest, queued, rfl⟩ := take_cases taken
  refine ⟨InFile.admitNext ordered.file, admitNext_room ordered.file fun spare => ?_, below, ?_, ?_⟩
  · have there : rest.length + q.admittedCount + 1 < q.capacity := spare
    exact ordered.room (hasRoom_iff.mpr (by rw [queued, List.length_cons]; omega))
  · rw [admitNext_messages]
    exact ordered.order
  · rw [Outbound.history, admitNext_accepted, admitNext_messages]
    exact ordered.history

end Outbound

namespace Correlator
open Outbound (Ordered)
variable {c : Correlator} {action : Action} {actions earlier later : List Action} {m one two new : Message}

-- A message that entered or waits did so before, or is offered now.
theorem mem_move_history {move : Move} (present : m ∈ (c.move move).outbound.history) :
    m ∈ c.outbound.history ∨ m ∈ c.offered move := by
  have queues := move_queues c move
  generalize (c.move move).outbound = after at queues present
  cases queues with
  | keeps => exact .inl present
  | offers offered =>
    rw [offered]
    exact Outbound.mem_offer_history present
  | passes => exact Outbound.mem_offer_history present
  | turns => exact .inl (Outbound.mem_turn_history present)
  | abandons => exact .inl (Outbound.mem_abandon_history present)
  | takes taken => exact .inl (Outbound.mem_take_history taken present)
  | ends => exact .inl (List.mem_append_left _ (by simpa [Outbound.history, Outbound.disconnect] using present))

theorem offered_length (c : Correlator) (action : Action) : (c.offered (.act action)).length ≤ 1 := by
  cases action with
  | send method params => simp only [offered]; split <;> simp
  | cancel id => simp only [offered]; split <;> simp
  | _ => simp [offered]

theorem offered_pairwise (c : Correlator) (action : Action) (R : Message → Message → Prop) :
    (c.offered (.act action)).Pairwise R := by
  match c.offered (.act action), offered_length c action with
  | [], _ => exact .nil
  | [_], _ => exact List.pairwise_singleton ..

-- All that is offered for the queue, in the order of the actions.
def offers (c : Correlator) : List Action → List Message
  | [] => []
  | action :: rest => c.offered (.act action) ++ (c.step action).offers rest

theorem offers_append (c : Correlator) (actions more : List Action) :
    c.offers (actions ++ more) = c.offers actions ++ (c.run actions).offers more := by
  induction actions generalizing c with
  | nil => rfl
  | cons first rest ih =>
    rw [List.cons_append, offers, offers, ih, List.append_assoc]
    rfl

theorem offers_snoc (c : Correlator) (actions : List Action) (action : Action) :
    c.offers (actions ++ [action]) = c.offers actions ++ (c.run actions).offered (.act action) := by
  rw [offers_append, offers, offers, List.append_nil]

theorem step_ordered {offers : List Message} (ordered : Ordered c.outbound offers) (action : Action) :
    Ordered (c.step action).outbound (offers ++ c.offered (.act action)) := by
  have queues : Queues c (.act action) (c.step action).outbound := move_queues c (.act action)
  generalize (c.step action).outbound = after, asks : Move.act action = move at queues ⊢
  cases queues with
  | keeps => exact ordered.more _
  | offers offered =>
    rw [offered]
    exact ordered.offer _
  | passes => cases asks
  | turns => exact (ordered.turn _).more _
  | abandons => exact (ordered.abandon _).more _
  | takes taken => exact (ordered.take taken).more _
  | ends =>
    have entered : c.outbound.accepted.Subperm offers := (List.sublist_append_left ..).subperm.trans ordered.history
    exact (Ordered.nobody (q := c.outbound.disconnect) rfl entered).more _

section Runs
variable (cancellation : Option CancelSettings) (capacity : Nat)

theorem runs_ordered (actions : List Action) :
    Ordered (run (initial cancellation capacity) actions).outbound ((initial cancellation capacity).offers actions) := by
  induction actions using List.reverseRecOn with
  | nil => exact .nobody rfl (.refl _)
  | append_singleton earlier action ih =>
    rw [run_snoc, offers_snoc]
    exact step_ordered ih action

variable {cancellation capacity}

theorem runs_distinct (distinct : ((initial cancellation capacity).offers actions).Nodup) :
    (run (initial cancellation capacity) actions).outbound.history.Nodup := by
  obtain ⟨messages, same, fewer⟩ := (runs_ordered cancellation capacity actions).history
  exact same.nodup_iff.mp (distinct.sublist fewer)

end Runs

end Correlator
end DuplexRpc
