import DuplexRpc.Proofs.Connection.InFlight

namespace DuplexRpc.Connection
variable {c after : Connection} {action : Action} {actions : List Action} {n : Nat} {t t' : Task}

-- What the handler of a task ended with, by the polls of a run.
def Action.yields (n : Nat) : Action → Option Outcome
  | .pollTask task handler => if task = n then handler else none
  | _ => none

def yielded (n : Nat) (actions : List Action) : Option Outcome := actions.findSome? (Action.yields n)

theorem yielded_snoc (n : Nat) (actions : List Action) (action : Action) :
    yielded n (actions ++ [action]) = (yielded n actions <|> action.yields n) := by
  rw [yielded, List.findSome?_append]
  cases ended : action.yields n <;> simp [yielded, ended]

def Event.invoked? : Event → Option Nat
  | .invoked task => some task
  | _ => none

-- The tasks whose handler was run, once for each time.
def invocations (c : Connection) : List Nat := c.log.filterMap Event.invoked?

def invoked? (c : Connection) : Action → Option Nat
  | .pollTask task _ => match c.tasks[task]? with
    | some t => if c.dispatcher.runsHandler t.request t.cancelled && !t.invoked then some task else none
    | none => none
  | _ => none

theorem events_invoked (c : Connection) (action : Action) :
    (c.events action).filterMap Event.invoked? = (c.invoked? action).toList := by
  cases action with
  | readNext =>
    simp only [events, invoked?]
    split
    · exact itemEvents_quiet Event.invoked? (fun _ => rfl) (fun _ => rfl) (fun _ => rfl) ..
    · rfl
  | takeNote => cases queued : c.notes <;> simp [events, queued, invoked?, Event.invoked?]
  | pollTask task handler =>
    simp only [events, invoked?, pollEvents]
    cases c.tasks[task]? with
    | none => rfl
    | some t =>
      have answers : ((c.dispatcher.poll t.request t.cancelled handler).toList.flatMap c.handing).filterMap
          Event.invoked? = [] := by
        cases c.dispatcher.poll t.request t.cancelled handler <;>
          cases alive : c.correlator.outbound.receiving <;> simp [Event.invoked?, handing, alive]
      simp only [List.filterMap_append, answers, List.append_nil]
      split <;> rfl
  | write => simp only [events, invoked?]; split <;> rfl
  | _ => rfl

theorem step_invocations (moved : c.step action = some after) :
    after.invocations = c.invocations ++ (c.invoked? action).toList := by
  rw [invocations, step_log moved, List.filterMap_append, events_invoked]
  rfl

-- An action that does not poll a task neither runs its handler nor answers it.
theorem step_unpolled (moved : c.step action = some after) (other : ∀ handler, action ≠ .pollTask n handler)
    (found : c.tasks[n]? = some t) : ∃ t', after.tasks[n]? = some t' ∧ t'.request = t.request ∧
      t'.invoked = t.invoked ∧ t'.response = t.response ∧ (t'.cancelled = false → t.cancelled = false) := by
  obtain ⟨t', found', turn⟩ := step_task moved found
  refine ⟨t', found', turn.request, ?_⟩
  cases turn with
  | kept => exact ⟨rfl, rfl, id⟩
  | polled polls _ => exact absurd polls (other _)
  | _ => exact ⟨rfl, rfl, fun unset => by cases unset⟩

theorem yields_of_other (other : ∀ handler, action ≠ .pollTask n handler) : action.yields n = none := by
  cases action with
  | pollTask task handler =>
    apply if_neg
    intro here
    subst here
    exact other handler rfl
  | _ => rfl

theorem invoked?_of_other (other : ∀ handler, action ≠ .pollTask n handler) : c.invoked? action ≠ some n := by
  cases action with
  | pollTask task handler =>
    intro runs
    simp only [invoked?] at runs
    split at runs
    · split at runs <;> cases runs
      exact other handler rfl
    · cases runs
  | _ => exact Option.some_ne_none n |>.symm

-- How far the service of a task has come: its handler runs once at most, and as long as
-- nothing cancels it, what the handler ends with is the answer.
structure Served (c : Connection) (actions : List Action) (n : Nat) (t : Task) : Prop where
  once : c.invocations.count n = if t.invoked then 1 else 0
  waits : t.response = none → yielded n actions = none
  answered : ∀ r, t.response = some r → t.cancelled = false → c.dispatcher.serves .request t.request.method = true →
    t.invoked = true ∧ ∃ outcome, yielded n actions = some outcome ∧ r.reply = outcome.reply

theorem poll_served {d : Dispatcher} {r : Request} {handler : Option Outcome} {answer : Response}
    (serves : d.serves .request r.method = true) (answered : d.poll r false handler = some answer) :
    ∃ outcome, handler = some outcome ∧ answer.reply = outcome.reply := by
  have plain : d.poll r false handler = handler.map fun outcome => ⟨some r.id, outcome.reply⟩ := by
    unfold Dispatcher.poll
    rw [if_pos serves]
    cases d.cancellation <;> rfl
  obtain ⟨outcome, ended, rfl⟩ := Option.map_eq_some_iff.mp (plain.symm.trans answered)
  exact ⟨outcome, ended, rfl⟩

theorem Served.polled {handler : Option Outcome} (served : Served c actions n t) (found : c.tasks[n]? = some t)
    (unanswered : t.response = none) (moved : c.step (.pollTask n handler) = some after) :
    Served after (actions ++ [.pollTask n handler]) n (t.polled c handler) := by
  have dispatcher := (step_forward moved).dispatcher
  have ends : yielded n (actions ++ [.pollTask n handler]) = handler := by
    rw [yielded_snoc, served.waits unanswered]
    simp [Action.yields]
  refine ⟨?_, ?_, ?_⟩
  · rw [step_invocations moved, List.count_append, served.once]
    simp only [invoked?, found, Task.polled]
    by_cases runs : c.dispatcher.runsHandler t.request t.cancelled = true <;>
      by_cases ran : t.invoked = true <;> simp [runs, ran]
  · intro idle
    have silent : ¬ (c.dispatcher.poll t.request t.cancelled handler).isSome := by
      rw [show c.dispatcher.poll t.request t.cancelled handler = none from idle]
      simp
    rw [poll_isSome] at silent
    rw [ends]
    exact Option.not_isSome_iff_eq_none.mp fun some' => silent (.inl some')
  · intro r answer uncancelled serves
    rw [dispatcher] at serves
    have calm : t.cancelled = false := uncancelled
    change c.dispatcher.poll t.request t.cancelled handler = some r at answer
    rw [calm] at answer
    obtain ⟨outcome, ended, reply⟩ := poll_served serves answer
    refine ⟨?_, outcome, ends.trans ended, reply⟩
    have serves' : c.dispatcher.serves .request t.request.method = true := serves
    simp [Task.polled, Dispatcher.runsHandler, Dispatcher.preempts, serves', calm]

theorem Served.step (served : Served c actions n t) (moved : c.step action = some after)
    (found : c.tasks[n]? = some t) : ∃ t', after.tasks[n]? = some t' ∧ Served after (actions ++ [action]) n t' := by
  by_cases polls : ∃ handler, action = .pollTask n handler
  · obtain ⟨handler, rfl⟩ := polls
    obtain ⟨k, present, unanswered, tasks⟩ := pollTask_task moved
    obtain rfl : k = t := Option.some.inj (present.symm.trans found)
    exact ⟨_, (tasks n).trans (if_pos rfl), served.polled found unanswered moved⟩
  · have other : ∀ handler, action ≠ .pollTask n handler := fun handler same => polls ⟨handler, same⟩
    obtain ⟨t', found', request, invoked, response, cancelled⟩ := step_unpolled moved other found
    have same : yielded n (actions ++ [action]) = yielded n actions := by
      rw [yielded_snoc, yields_of_other other]
      cases yielded n actions <;> rfl
    refine ⟨t', found', ?_, ?_, ?_⟩
    · have quiet : (c.invoked? action).toList.count n = 0 := by
        apply List.count_eq_zero.mpr
        intro present
        exact invoked?_of_other (c := c) other (by simpa using present)
      rw [step_invocations moved, List.count_append, quiet, served.once, invoked, Nat.add_zero]
    · rw [same, response]
      exact served.waits
    · rw [same, response, invoked, request, (step_forward moved).dispatcher]
      exact fun r answer uncancelled => served.answered r answer (cancelled uncancelled)

-- Nothing has happened yet to a task that is still to come.
theorem runs_unborn {config : Config} {served called : Registry} {handlers : List (String × MethodKind)}
    (runs : Runs (initial config served called handlers) actions c) (new : c.tasks[n]? = none) :
    yielded n actions = none ∧ c.invocations.count n = 0 := by
  induction runs with
  | nil => exact ⟨rfl, rfl⟩
  | @snoc before after actions action prior moved ih =>
    have new' : before.tasks[n]? = none := by
      have bound := List.getElem?_eq_none_iff.mp new
      exact List.getElem?_eq_none_iff.mpr (Nat.le_trans (step_length_le moved) bound)
    have other : ∀ handler, action ≠ .pollTask n handler := by
      rintro handler rfl
      obtain ⟨t, found, _⟩ := pollTask_task moved
      cases new'.symm.trans found
    obtain ⟨silent, unseen⟩ := ih new'
    constructor
    · rw [yielded_snoc, silent, yields_of_other other]
      rfl
    · rw [step_invocations moved, List.count_append, unseen, Nat.zero_add]
      apply List.count_eq_zero.mpr
      intro present
      exact invoked?_of_other (c := before) other (by simpa using present)

theorem runs_served {config : Config} {served called : Registry} {handlers : List (String × MethodKind)}
    (runs : Runs (initial config served called handlers) actions c) (found : c.tasks[n]? = some t) :
    Served c actions n t := by
  induction runs generalizing t with
  | nil => simp [initial] at found
  | @snoc before after actions action prior moved ih =>
    cases there : before.tasks[n]? with
    | some t' =>
      obtain ⟨t'', found'', served⟩ := (ih there).step moved there
      obtain rfl : t'' = t := Option.some.inj (found''.symm.trans found)
      exact served
    | none =>
      obtain ⟨_, born, fresh⟩ := step_new_task moved found there
      obtain ⟨silent, unseen⟩ := runs_unborn prior there
      obtain ⟨rfl, _⟩ := born?_some born
      rw [fresh]
      refine ⟨?_, fun _ => ?_, fun r answer => by cases answer⟩
      · rw [step_invocations moved, List.count_append, unseen]
        rfl
      · rw [yielded_snoc, silent]
        rfl

end DuplexRpc.Connection
