import Mathlib.Algebra.GroupWithZero.Nat
import Mathlib.Algebra.Order.BigOperators.Group.List
import Mathlib.Algebra.Order.Group.Nat
import DuplexRpc.Proofs.Correlator.Placement

namespace DuplexRpc

namespace Outbound
variable {q after : Outbound} {m : Message} {ticket : Nat} {w : Waiter} {waiting : List Waiter}

-- What a message may still cost: its sender's turn, its way through the queue, and the writer's turns.
def Waiter.cost (w : Waiter) : Nat := if w.standing = .admitted then 2 else 3

theorem Waiter.cost_le (w : Waiter) : w.cost ≤ 3 := by
  unfold Waiter.cost
  split <;> omega

def cost (q : Outbound) : Nat := q.queued.length + (q.waiting.map Waiter.cost).sum

-- The jobs that a change of the queue makes ready: the writer, and the senders with a new standing.
def stir (before after : Outbound) : Nat :=
  (if before.accepted.length < after.accepted.length then 1 else 0) +
    (after.waiting.filter fun w => w.standing ≠ .inLine &&
      (before.waiter? w.ticket).map (·.standing) ≠ some w.standing).length

-- Every ticket is given out once.
structure Sound (q : Outbound) : Prop where
  below : q.Below
  tickets : (q.waiting.map (·.ticket)).Nodup

theorem Sound.waiter? (sound : Sound q) (present : w ∈ q.waiting) : q.waiter? w.ticket = some w := by
  have tickets := sound.tickets
  unfold Outbound.waiter?
  generalize q.waiting = waiting at tickets present
  induction waiting with
  | nil => cases present
  | cons head rest ih =>
    obtain ⟨fresh, tickets⟩ := List.nodup_cons.mp tickets
    rcases List.mem_cons.mp present with rfl | later
    · simp
    · have other : head.ticket ≠ w.ticket := fun same => fresh (List.mem_map.mpr ⟨w, later, same.symm⟩)
      rw [List.find?_cons_of_neg (by simpa using other)]
      exact ih tickets later

-- Who waits as before is not woken.
theorem Sound.unstirred (sound : Sound q) (waiting : List Waiter) (kept : ∀ w ∈ waiting, w ∈ q.waiting) :
    (waiting.filter fun w => w.standing ≠ .inLine && (q.waiter? w.ticket).map (·.standing) ≠ some w.standing) = [] := by
  refine List.filter_eq_nil_iff.mpr fun w present => ?_
  simp [sound.waiter? (kept w present)]

theorem Sound.stir_of_kept (sound : Sound q) (same : after.accepted = q.accepted)
    (kept : ∀ w ∈ after.waiting, w ∈ q.waiting) : q.stir after = 0 := by
  simp only [stir, sound.unstirred after.waiting kept, same, Nat.lt_irrefl, if_false]
  rfl

theorem Sound.still_cost (sound : Sound q) : q.stir q + q.cost ≤ q.cost := by
  rw [sound.stir_of_kept rfl fun _ present => present, Nat.zero_add]

theorem initial_sound (capacity : Nat) : Sound { capacity } := ⟨nofun, List.nodup_nil⟩

theorem Sound.offer (sound : Sound q) (m : Message) (standing : Standing) : Sound (q.offer m standing).2 := by
  refine ⟨(offer_keeps q m standing).below sound.below, ?_⟩
  rcases q.offer_cases m standing with ⟨_, same⟩ | ⟨_, _, same⟩ | ⟨_, _, same⟩ <;> rw [same]
  · exact sound.tickets
  · exact sound.tickets
  · rw [List.map_append]
    refine List.nodup_append.mpr ⟨sound.tickets, List.nodup_singleton _, fun ticket old new last same => ?_⟩
    obtain ⟨w, present, rfl⟩ := List.mem_map.mp old
    have given : new = q.nextTicket := by simpa using last
    exact absurd (sound.below w present) (by omega)

theorem admitNext_tickets (q : Outbound) : q.admitNext.waiting.map (·.ticket) = q.waiting.map (·.ticket) := by
  have same := congrArg (List.map Prod.fst) (admitNext_senders q)
  simpa [senders, List.map_map, Function.comp_def] using same

theorem Sound.turn (sound : Sound q) (ticket : Nat) : Sound (q.turn ticket).2 := by
  refine ⟨turn_below sound.below ticket, ?_⟩
  rcases q.turn_cases ticket with ⟨_, _, _, same⟩ | same | same <;> rw [same]
  · exact sound.tickets.sublist (List.filter_sublist.map _)
  · have parted := (List.filter_append_perm (·.ticket = ticket) q.waiting).map (·.ticket)
    refine (List.Perm.nodup_iff ?_).mpr sound.tickets
    refine List.Perm.trans ?_ parted
    simp only [standInLine, remove, List.map_append, List.map_map, ne_eq, decide_not]
    exact List.perm_append_comm
  · exact sound.tickets

theorem Sound.abandon (sound : Sound q) (ticket : Nat) : Sound (q.abandon ticket) := by
  refine ⟨abandon_below sound.below ticket, ?_⟩
  rw [Outbound.abandon, admitNext_tickets]
  exact sound.tickets.sublist (List.filter_sublist.map _)

theorem Sound.take (sound : Sound q) (taken : q.take = some (m, after)) : Sound after := by
  refine ⟨(take_keeps taken).below sound.below, ?_⟩
  obtain ⟨rest, _, rfl⟩ := take_cases taken
  rw [admitNext_tickets]
  exact sound.tickets

theorem offer_cost (sound : Sound q) (m : Message) (standing : Standing) :
    q.stir (q.offer m standing).2 + (q.offer m standing).2.cost ≤ q.cost + 4 := by
  rcases q.offer_cases m standing with ⟨_, same⟩ | ⟨_, _, same⟩ | ⟨_, _, same⟩ <;> rw [same]
  · exact Nat.le_add_right_of_le (sound.still_cost)
  · simp only [stir, enter, sound.unstirred q.waiting fun _ present => present, cost, List.length_append]
    split <;> simp <;> omega
  · simp only [stir, List.filter_append, sound.unstirred q.waiting fun _ present => present, cost, List.map_append,
      List.sum_append, Nat.lt_irrefl, if_false, List.nil_append]
    have one := List.length_filter_le (fun w : Waiter => w.standing ≠ .inLine &&
      (q.waiter? w.ticket).map (·.standing) ≠ some w.standing) [(⟨q.nextTicket, m, standing⟩ : Waiter)]
    have fee : ([(⟨q.nextTicket, m, standing⟩ : Waiter)].map Waiter.cost).sum ≤ 3 := by
      simp only [List.map_cons, List.map_nil, List.sum_cons, List.sum_nil, Waiter.cost]
      split <;> omega
    simp only [List.length_singleton] at one
    omega

-- Room that is given wakes one sender, whose cost falls by as much.
theorem admitNext_cost (sound : Sound q) : q.stir q.admitNext + q.admitNext.cost ≤ q.cost := by
  have idle := sound.still_cost
  unfold admitNext
  split
  · rcases admitFirst_cases q.waiting with ⟨_, same⟩ | ⟨front, w, back, split, _, inLine, same⟩
    · rwa [same]
    · have early := sound.unstirred front fun v present => split ▸ List.mem_append_left _ present
      have late := sound.unstirred back fun v present =>
        split ▸ List.mem_append_right _ (List.mem_cons_of_mem _ present)
      rw [same]
      simp only [stir, List.filter_append, early, Nat.lt_irrefl, if_false, List.nil_append, List.filter_cons, late, cost,
        split, List.map_append, List.map_cons, List.sum_append, List.sum_cons, Waiter.cost, inLine]
      split
      all_goals simp
      all_goals omega
  · exact idle

theorem take_cost (sound : Sound q) (taken : q.take = some (m, after)) : q.stir after + after.cost + 1 ≤ q.cost := by
  obtain ⟨rest, queued, rfl⟩ := take_cases taken
  have given := admitNext_cost (q := { q with queued := rest }) ⟨sound.below, sound.tickets⟩
  have stirred : q.stir ({ q with queued := rest } : Outbound).admitNext =
      ({ q with queued := rest } : Outbound).stir ({ q with queued := rest } : Outbound).admitNext := rfl
  have less : ({ q with queued := rest } : Outbound).cost + 1 = q.cost := by
    simp only [cost, queued, List.length_cons]
    omega
  omega

-- The sender of a ticket and the others bear the cost of the line between them.
theorem line_cost (q : Outbound) (ticket : Nat) : ((q.waiting.filter (·.ticket = ticket)).map Waiter.cost).sum +
    ((q.remove ticket).waiting.map Waiter.cost).sum = (q.waiting.map Waiter.cost).sum := by
  have parted := ((List.filter_append_perm (fun v => v.ticket = ticket) q.waiting).map Waiter.cost).sum_eq
  simpa [remove] using parted

theorem cost_remove (present : w ∈ q.waiting) (named : w.ticket = ticket) :
    (q.remove ticket).cost + w.cost ≤ q.cost := by
  have parted := q.line_cost ticket
  have mine : w.cost ≤ ((q.waiting.filter (·.ticket = ticket)).map Waiter.cost).sum :=
    List.single_le_sum (fun _ _ => Nat.zero_le _) _ (List.mem_map_of_mem (List.mem_filter.mpr ⟨present, by simp [named]⟩))
  have queued : (q.remove ticket).queued = q.queued := rfl
  rw [cost, cost, queued]
  omega

theorem enter_cost (sound : Sound q) (present : w ∈ q.waiting) (named : w.ticket = ticket) (m : Message) :
    q.stir ((q.remove ticket).enter m) + ((q.remove ticket).enter m).cost ≤ q.cost := by
  have removed := cost_remove present named
  have two : 2 ≤ w.cost := by unfold Waiter.cost; split <;> omega
  have entered : ((q.remove ticket).enter m).cost = (q.remove ticket).cost + 1 := by
    simp only [cost, enter, List.length_append, List.length_singleton]
    omega
  have quiet := sound.unstirred ((q.remove ticket).enter m).waiting fun v there => (mem_remove.mp there).1
  simp only [stir, quiet]
  split <;> simp <;> omega

theorem standInLine_cost (sound : Sound q) (found : q.waiter? ticket = some w) (arriving : w.standing = .arriving) :
    q.stir (q.standInLine ticket) + (q.standInLine ticket).cost ≤ q.cost := by
  have alone : ∀ v ∈ q.waiting.filter (·.ticket = ticket), v = w := fun v there => by
    obtain ⟨present, named⟩ := List.mem_filter.mp there
    have same : q.waiter? ticket = some v := of_decide_eq_true named ▸ sound.waiter? present
    exact Option.some.inj (same.symm.trans found)
  have parted := q.line_cost ticket
  have others := sound.unstirred (q.remove ticket).waiting fun v there => (mem_remove.mp there).1
  have quiet : ((q.waiting.filter (·.ticket = ticket)).map fun v => { v with standing := Standing.inLine }).filter
      (fun w => w.standing ≠ .inLine && (q.waiter? w.ticket).map (·.standing) ≠ some w.standing) = [] := by
    simp [List.filter_map, Function.comp_def]
  have fees : ((q.waiting.filter (·.ticket = ticket)).map fun v => { v with standing := Standing.inLine }).map Waiter.cost =
      (q.waiting.filter (·.ticket = ticket)).map Waiter.cost := by
    rw [List.map_map]
    refine List.map_congr_left fun v there => ?_
    simp [alone v there, Waiter.cost, arriving]
  have same : (q.standInLine ticket).waiting = (q.remove ticket).waiting ++
      (q.waiting.filter (·.ticket = ticket)).map fun v => { v with standing := .inLine } := rfl
  simp only [stir, cost, same, List.filter_append, others, quiet, List.map_append, List.sum_append, fees]
  simp only [standInLine, Nat.lt_irrefl, if_false, List.append_nil, List.length_nil]
  omega

theorem turn_cost (sound : Sound q) (ticket : Nat) : q.stir (q.turn ticket).2 + (q.turn ticket).2.cost ≤ q.cost := by
  have idle := sound.still_cost
  unfold Outbound.turn
  split
  · exact idle
  · rename_i w found
    have present : w ∈ q.waiting := List.mem_of_find?_eq_some found
    have named : w.ticket = ticket := by simpa using List.find?_some found
    split
    · exact enter_cost sound present named _
    · exact idle
    · rename_i arriving
      split
      · exact enter_cost sound present named _
      · exact standInLine_cost sound found arriving

end Outbound

namespace Correlator
variable {c : Correlator}

theorem move_sound (sound : c.outbound.Sound) (move : Move) : (c.move move).outbound.Sound := by
  have queues := move_queues c move
  generalize (c.move move).outbound = after at queues ⊢
  cases queues with
  | keeps => exact sound
  | offers _ => exact sound.offer ..
  | passes => exact sound.offer ..
  | turns => exact sound.turn _
  | abandons => exact sound.abandon _
  | takes taken => exact sound.take taken
  | ends => exact ⟨nofun, List.nodup_nil⟩

theorem moveAll_sound (sound : c.outbound.Sound) (moves : List Move) : (c.moveAll moves).outbound.Sound := by
  induction moves generalizing c with
  | nil => exact sound
  | cons move rest ih => exact ih (move_sound sound move)

end Correlator

end DuplexRpc
