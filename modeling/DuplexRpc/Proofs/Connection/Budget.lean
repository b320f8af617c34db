import Mathlib.Data.List.DropRight
import DuplexRpc.Proofs.Connection.Reports
import DuplexRpc.Proofs.Connection.Teardown

namespace DuplexRpc

def Framing.Item.isFault : Framing.Item → Bool
  | .fault _ => true
  | .body _ => false

namespace Connection
variable {c after : Connection} {action : Action} {actions : List Action} {items : List Framing.Item}
  {item : Framing.Item}

-- How many faults the items end with.
def row (items : List Framing.Item) : Nat := (items.rtakeWhile (·.isFault)).length

theorem row_fault (items : List Framing.Item) (fault : Framing.Fault) :
    row (items ++ [.fault fault]) = row items + 1 := by
  rw [row, List.rtakeWhile_concat_pos _ _ _ rfl, List.length_append]
  rfl

theorem row_body (items : List Framing.Item) (body : List UInt8) : row (items ++ [.body body]) = 0 := by
  rw [row, List.rtakeWhile_concat_neg _ _ _ (by simp [Framing.Item.isFault])]
  rfl

-- The counter is touched by nothing but reading.
theorem step_faultsInRow (moved : c.step action = some after) (elsewhere : action ≠ .readNext) :
    after.faultsInRow = c.faultsInRow := by
  cases action with
  | readNext => exact absurd rfl elsewhere
  | _ => exact (congrArg faultsInRow (step_footprint moved)).trans rfl

theorem step_closed (moved : c.step action = some after) (closed : c.phase = .closed) : after.phase = .closed :=
  Decidable.byContradiction fun open' => step_open moved open' closed

theorem step_taken (moved : c.step action = some after) :
    after.taken = c.taken ++ (c.reading? action).toList.map Prod.snd := by
  rw [taken, step_log moved, List.filterMap_append, events_items]
  rfl

theorem step_reported (moved : c.step action = some after) :
    after.reported = c.reported ++ (c.reading? action).toList.filterMap fun reading => reading.1.objection? reading.2 := by
  rw [reported, step_log moved, List.filterMap_append, events_issues]
  rfl

-- The one item that is read next: its part in the log, and what the counter and the phase become.
theorem readNext_item (moved : c.step .readNext = some after) : ∃ item, c.decoder.next.1 = some item ∧
    after = { c with decoder := c.decoder.next.2 }.takeItem item ∧ after.taken = c.taken ++ [item] ∧
    after.reported = c.reported ++ (c.objection? item).toList := by
  obtain ⟨_, _, item, decoder, next, same⟩ := readNext_cases moved
  have frame : c.decoder.next.1 = some item := by rw [next]
  have took := step_taken moved
  have said := step_reported moved
  simp only [reading?, frame] at took said
  refine ⟨item, frame, by rw [same, next], took, said.trans ?_⟩
  cases objects : c.objection? item <;> simp [objects]

theorem takeItem_row (c : Connection) (item : Framing.Item) :
    (c.takeItem item).faultsInRow = match item with
      | .fault _ => c.faultsInRow + 1
      | .body _ => 0 := by
  cases item with
  | fault fault =>
    rw [takeItem_fault]
    dsimp only
    split
    · rw [close_fields]
      rfl
    · rfl
  | body body =>
    rw [takeItem_body, takeBody_fields]

theorem takeItem_phase (listening : c.phase = .listening) (item : Framing.Item) :
    (c.takeItem item).phase = .closed ↔ ∃ fault, item = .fault fault ∧ c.faultBudget ≤ c.faultsInRow + 1 := by
  cases item with
  | fault fault =>
    by_cases spent : c.faultBudget ≤ c.faultsInRow + 1
    · exact iff_of_true (takeItem_spent fault spent) ⟨fault, rfl, spent⟩
    · rw [takeItem_fault]
      dsimp only
      rw [if_neg spent]
      refine iff_of_false ?_ (by simp [spent])
      intro closed
      cases listening.symm.trans closed
  | body body =>
    rw [takeItem_body, takeBody_fields]
    refine iff_of_false ?_ nofun
    intro closed
    cases listening.symm.trans closed

-- The counter counts the faults since the last frame, and the first time that they are as many as the budget
-- allows was the end.
structure Counted (c : Connection) : Prop where
  counter : c.faultsInRow = row c.taken
  within : row c.taken ≤ c.faultBudget
  earlier : ∀ items, items <+: c.taken → items ≠ c.taken → row items < c.faultBudget
  spent : row c.taken = c.faultBudget → c.phase = .closed

theorem one_le_faultBudget (c : Connection) : 1 ≤ c.faultBudget := Nat.le_max_right ..

theorem initial_counted (config : Config) (served called : Registry) (handlers : List (String × MethodKind)) :
    Counted (initial config served called handlers) := by
  refine ⟨rfl, Nat.zero_le _, ?_, ?_⟩
  · rintro items earlier other
    exact absurd (List.prefix_nil.mp earlier) other
  · intro spent
    have := one_le_faultBudget (initial config served called handlers)
    have nothing : row (initial config served called handlers).taken = 0 := rfl
    omega

theorem Counted.open (counted : Counted c) (open' : c.phase ≠ .closed) : row c.taken < c.faultBudget :=
  Nat.lt_of_le_of_ne counted.within fun spent => open' (counted.spent spent)

theorem readNext_counter (counted : Counted c) (moved : c.step .readNext = some after) :
    after.faultsInRow = row after.taken := by
  obtain ⟨item, frame, same, took, _⟩ := readNext_item moved
  rw [same, takeItem_row, ← same, took]
  cases item with
  | fault fault => rw [row_fault, ← counted.counter]
  | body body => rw [row_body]

-- What is read is the end when it is the last fault that the budget allows.
theorem readNext_closes (counted : Counted c) (moved : c.step .readNext = some after) :
    after.phase = .closed ↔ c.faultBudget ≤ row after.taken := by
  obtain ⟨listening, _⟩ := readNext_cases moved
  obtain ⟨item, frame, same, took, _⟩ := readNext_item moved
  rw [same, takeItem_phase (c := { c with decoder := c.decoder.next.2 }) listening item, ← same, took]
  cases item with
  | fault fault =>
    rw [row_fault, ← counted.counter]
    exact ⟨fun ⟨_, _, spent⟩ => spent, fun spent => ⟨fault, rfl, spent⟩⟩
  | body body =>
    rw [row_body]
    have := c.one_le_faultBudget
    exact iff_of_false nofun (by omega)

theorem step_faultBudget (moved : c.step action = some after) : after.faultBudget = c.faultBudget := by
  simp only [faultBudget, (step_forward moved).config]

theorem readNext_counted (counted : Counted c) (moved : c.step .readNext = some after) : Counted after := by
  obtain ⟨listening, _⟩ := readNext_cases moved
  obtain ⟨item, _, _, took, _⟩ := readNext_item moved
  have room := counted.open (by simp [listening])
  have closes := readNext_closes counted moved
  refine ⟨readNext_counter counted moved, ?_, ?_, ?_⟩ <;> rw [step_faultBudget moved]
  · rw [took]
    cases item with
    | fault fault => rw [row_fault]; exact room
    | body body => rw [row_body]; exact Nat.zero_le _
  · intro items before other
    rw [took] at before other
    rcases List.prefix_concat_iff.mp before with all | before
    · exact absurd all other
    · by_cases last : items = c.taken
      · exact last ▸ room
      · exact counted.earlier items before last
  · exact fun spent => closes.mpr (Nat.le_of_eq spent.symm)

theorem step_counted (counted : Counted c) (moved : c.step action = some after) : Counted after := by
  by_cases reads : action = .readNext
  · subst reads
    exact readNext_counted counted moved
  · have unread : after.taken = c.taken := by
      rw [step_taken moved]
      cases action <;> first | exact List.append_nil _ | exact absurd rfl reads
    refine ⟨?_, ?_, ?_, ?_⟩ <;> rw [unread]
    · rw [step_faultsInRow moved reads]
      exact counted.counter
    · exact step_faultBudget moved ▸ counted.within
    · exact step_faultBudget moved ▸ counted.earlier
    · exact fun spent => step_closed moved (counted.spent (spent.trans (step_faultBudget moved)))

theorem runs_counted {config : Config} {served called : Registry} {handlers : List (String × MethodKind)}
    (runs : Runs (initial config served called handlers) actions c) : Counted c := by
  induction runs with
  | nil => exact initial_counted ..
  | snoc _ moved ih => exact step_counted ih moved

-- A frame is handled as if there had been no faults before it.
theorem readNext_body {body : List UInt8} (moved : c.step .readNext = some after)
    (frame : c.decoder.next.1 = some (.body body)) (n : Nat) :
    ({ c with faultsInRow := n } : Connection).step .readNext = some after := by
  obtain ⟨listening, free, item, decoder, next, rfl⟩ := readNext_cases moved
  obtain rfl : item = .body body := by simpa [next] using frame
  simp only [step, readNext, listening, free, next, and_self, if_true]
  rfl

-- A fault within the budget is reported, and that is all.
theorem takeItem_room (fault : Framing.Fault) (room : c.faultsInRow + 1 < c.faultBudget) :
    c.takeItem (.fault fault) = { c with
      faultsInRow := c.faultsInRow + 1
      log := c.log ++ [.took (.fault fault), .reported (.make .parseError fault.message)] } := by
  rw [takeItem_fault, if_neg (Nat.not_le_of_lt room)]
  simp [report, record]

theorem closed_unread (closed : c.phase = .closed) (moved : c.step action = some after) :
    after.phase = .closed ∧ after.taken = c.taken ∧ after.reported = c.reported := by
  have unread : c.reading? action = none := by
    cases action with
    | readNext =>
      rw [(closed_stops_reading closed).1] at moved
      cases moved
    | _ => rfl
  exact ⟨step_closed moved closed, by rw [step_taken moved, unread]; simp, by rw [step_reported moved, unread]; simp⟩

theorem runs_unread {more : List Action} {later : Connection} (closed : c.phase = .closed) (runs : Runs c more later) :
    later.phase = .closed ∧ later.taken = c.taken ∧ later.reported = c.reported := by
  induction runs with
  | nil => exact ⟨closed, rfl, rfl⟩
  | snoc _ moved ih =>
    obtain ⟨phase, taken, reported⟩ := ih
    obtain ⟨phase', taken', reported'⟩ := closed_unread phase moved
    exact ⟨phase', taken'.trans taken, reported'.trans reported⟩

-- Faults close a connection exactly when as many have come without a frame between them as its budget allows,
-- where a budget of none is one of one. Each is reported once; what comes between them is handled as ever, and
-- nothing that comes after the last.
theorem fault_budget_is_exact {config : Config} {served called : Registry} {handlers : List (String × MethodKind)}
    (runs : Runs (initial config served called handlers) actions c) :
    let budget := max config.maxConsecutiveFramingErrors.toNat 1
    let readings := (initial config served called handlers).readings actions
    (c.taken = readings.map Prod.snd ∧ c.reported = readings.filterMap fun reading => reading.1.objection? reading.2) ∧
    (c.faultsInRow = row c.taken ∧ row c.taken ≤ budget ∧ budget < 0x100000000) ∧
    (∀ items, items <+: c.taken → items ≠ c.taken → row items < budget) ∧
    (row c.taken = budget → c.phase = .closed ∧ ∀ more later, Runs c more later →
      later.taken = c.taken ∧ later.reported = c.reported) ∧
    ∀ after, c.step .readNext = some after → ∃ item, c.decoder.next.1 = some item ∧ after.taken = c.taken ++ [item] ∧
      (after.phase = .closed ↔ row after.taken = budget) ∧
      match item with
      | .fault fault => after.reported = c.reported ++ [.make .parseError fault.message] ∧
          (row after.taken < budget → after = { c with
            decoder := c.decoder.next.2
            faultsInRow := c.faultsInRow + 1
            log := c.log ++ [.took (.fault fault), .reported (.make .parseError fault.message)] })
      | .body body => after.reported = c.reported ++ (c.objection? (.body body)).toList ∧ after.faultsInRow = 0 ∧
          ∀ n, ({ c with faultsInRow := n } : Connection).step .readNext = some after := by
  intro budget readings
  have counted := runs_counted runs
  have allowed : c.faultBudget = budget := by
    have forward : c.config = config := (runs_forward runs).config
    simp only [faultBudget, forward, budget]
  have word : budget < 0x100000000 := by
    have := config.maxConsecutiveFramingErrors.toNat_lt
    omega
  refine ⟨⟨runs_taken runs, runs_reported runs⟩, ⟨counted.counter, allowed ▸ counted.within, word⟩,
    allowed ▸ counted.earlier, fun spent => ?_, fun after moved => ?_⟩
  · have closed := counted.spent (spent.trans allowed.symm)
    exact ⟨closed, fun more later further => (runs_unread closed further).2⟩
  · obtain ⟨item, frame, same, took, said⟩ := readNext_item moved
    have within := (step_counted counted moved).within
    have closes : after.phase = .closed ↔ row after.taken = budget := by
      rw [step_faultBudget moved, allowed] at within
      rw [readNext_closes counted moved, allowed]
      omega
    refine ⟨item, frame, took, closes, ?_⟩
    cases item with
    | fault fault =>
      refine ⟨said, fun room => ?_⟩
      rw [took, row_fault, ← counted.counter, ← allowed] at room
      rw [same]
      exact takeItem_room (c := { c with decoder := c.decoder.next.2 }) fault room
    | body body =>
      refine ⟨said, ?_, readNext_body moved frame⟩
      rw [same]
      exact takeItem_row _ (.body body)

-- A budget of two, two faults with a frame between them that is no JSON, and a third fault.
theorem fault_budget_is_exact_two :
    ∃ (c : Connection) (actions : List Action), Runs (initial { maxConsecutiveFramingErrors := 2 } {} {} []) actions c ∧
      c.taken.map (·.isFault) = [true, false, true, true] ∧ c.phase = .closed ∧
      ∀ more later, Runs c more later → later.taken = c.taken := by
  let fault : List UInt8 := Utf8.encode "no colon\r\n\r\n".toList
  let stream := fault ++ Framing.encode none [120] ++ fault ++ fault ++ Framing.encode none [120]
  let actions : List Action := .start :: .receive stream :: List.replicate 4 .readNext
  let origin := initial { maxConsecutiveFramingErrors := 2 } {} {} []
  have started : (origin.runAll actions).isSome := by decide +kernel
  obtain ⟨c, run⟩ := Option.isSome_iff_exists.mp started
  have seen : (origin.runAll actions).map (fun c => (c.taken.map (·.isFault), row c.taken)) =
      some ([true, false, true, true], 2) := by decide +kernel
  simp only [run, Option.map_some, Option.some.injEq, Prod.mk.injEq] at seen
  obtain ⟨kinds, spent⟩ := seen
  have runs : Runs origin actions c := runs_of_runAll run
  obtain ⟨_, _, _, ends, _⟩ := fault_budget_is_exact runs
  obtain ⟨closed, rests⟩ := ends spent
  exact ⟨c, actions, runs, kinds, closed, fun more later further => (rests more later further).1⟩

end Connection
end DuplexRpc
