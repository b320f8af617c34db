import DuplexRpc.Proofs.Connection.Requests
import DuplexRpc.Proofs.Table

namespace DuplexRpc.Connection
variable {c after : Connection} {action : Action} {actions : List Action} {n : Nat} {t t' : Task} {id : RequestId}

-- What an action makes of the table of requests in flight.
inductive Flight (c : Connection) (action : Action) (after : Connection) : List (RequestId × Nat) → Prop where
  | kept : Flight c action after c.inFlight
  | emptied : after.phase = .closed → Flight c action after []
  | entered {r} : c.born? action = some r → Flight c action after (Table.put r.id c.tasks.length c.inFlight)
  | left {n handler t} : action = .pollTask n handler → c.tasks[n]? = some t →
      c.inFlight.lookup t.request.id = some n → Flight c action after (Table.erase t.request.id c.inFlight)

theorem close_inFlight (c : Connection) : c.close.inFlight = c.inFlight ∧ c.phase = .closed ∨ c.close.inFlight = [] := by
  unfold close
  split
  · exact .inl ⟨rfl, by assumption⟩
  · exact .inr rfl

theorem close_flight (base : Connection) (inFlight : base.inFlight = c.inFlight) (closed : after.phase = .closed) :
    Flight c action after base.close.inFlight := by
  rcases close_inFlight base with ⟨same, _⟩ | gone
  · rw [same, inFlight]
    exact .kept
  · rw [gone]
    exact .emptied closed

theorem takeRequest_inFlight (c : Connection) (r : Request) :
    (c.takeRequest r).inFlight = Table.put r.id c.tasks.length c.inFlight := by
  unfold takeRequest
  split
  · exact congrArg (Table.put r.id · c.inFlight) (cancelTask_length c _)
  · rfl

theorem markRun_inFlight (c : Connection) (task : Nat) (t : Task) : (c.markRun task t).inFlight = c.inFlight := by
  unfold markRun
  split <;> rfl

theorem readBody_flight {body : List UInt8} (decoder : Framing.Decoder) (next : c.decoder.next.1 = some (.body body)) :
    Flight c .readNext after (({ ({ c with decoder := decoder } : Connection).record (.took (.body body)) with
      faultsInRow := 0 } : Connection).takeBody body).inFlight := by
  rcases takeBody_cases _ body with ⟨issue, decoded, same⟩ | ⟨r, decoded, same⟩ | ⟨m, decoded, cancels, same⟩ |
    ⟨m, decoded, plain, same⟩ | ⟨r, decoded, same⟩ <;> rw [same]
  · rcases takeFault_cases _ body issue with
      ⟨_, _, _, same⟩ | ⟨_, _, _, same⟩ | ⟨_, same⟩ <;> rw [same]
    · rw [handOver_fields]
      exact .kept
    · exact .kept
    · exact .kept
  · have born : c.born? .readNext = some r := by
      simp only [born?, next]
      change c.contract.decode c.correlator.pendingMethod body = _ at decoded
      rw [decoded]
    rw [takeRequest_inFlight]
    exact .entered born
  · unfold takeCancel
    repeat' split
    all_goals exact .kept
  · exact .kept
  · unfold takeResponse
    repeat' split
    all_goals exact .kept

theorem step_flight (moved : c.step action = some after) : Flight c action after after.inFlight := by
  cases action with
  | close =>
    cases moved
    exact close_flight c rfl (close_phase c)
  | readNext =>
    obtain ⟨_, _, item, decoder, next, rfl⟩ := readNext_cases moved
    cases item with
    | fault fault =>
      rw [takeItem_fault]
      dsimp only
      split
      · exact close_flight _ rfl (close_phase _)
      · exact .kept
    | body body => exact readBody_flight decoder (by rw [next])
  | readEnd =>
    obtain ⟨_, _, decoder, _, rfl⟩ := readEnd_cases moved
    exact close_flight _ rfl (close_phase _)
  | failWrite =>
    obtain ⟨_, _, correlator, _, rfl⟩ := failWrite_cases moved
    exact close_flight { c with correlator := correlator } rfl (close_phase { c with correlator := correlator })
  | pollTask task handler =>
    obtain ⟨k, present, unanswered, outcome⟩ := pollTask_cases moved
    rcases outcome with ⟨r, answer, rfl⟩ | ⟨answer, rfl⟩
    · rw [finishTask_eq, handOver_fields]
      simp only [retire, markRun_get present, if_true, markRun_inFlight]
      split
      · rename_i latest
        exact .left rfl present latest
      · exact .kept
    · rw [markRun_inFlight]
      exact .kept
  | _ =>
    have same : after.inFlight = c.inFlight := (congrArg inFlight (step_footprint moved)).trans rfl
    rw [same]
    exact .kept

-- What is in flight under an id is a task of a request under that id.
def Flying (c : Connection) : Prop :=
  ∀ id n, c.inFlight.lookup id = some n → ∃ t, c.tasks[n]? = some t ∧ t.request.id = id

theorem step_flying (flying : Flying c) (moved : c.step action = some after) : Flying after := by
  have stays : ∀ {id n}, c.inFlight.lookup id = some n → ∃ t, after.tasks[n]? = some t ∧ t.request.id = id := by
    intro id n listed
    obtain ⟨t, found, named⟩ := flying id n listed
    obtain ⟨t', found', turn⟩ := step_task moved found
    exact ⟨t', found', turn.request ▸ named⟩
  intro id n listed
  have flight := step_flight moved
  generalize after.inFlight = table at flight listed
  cases flight with
  | kept => exact stays listed
  | emptied => cases listed
  | @entered r born =>
    rw [Table.lookup_put] at listed
    split at listed
    · rename_i same
      cases listed
      obtain ⟨t, found, fresh⟩ := step_born_task moved born
      exact ⟨t, found, by rw [fresh, ← same]⟩
    · exact stays listed
  | left _ _ _ =>
    rw [Table.lookup_erase] at listed
    split at listed
    · cases listed
    · exact stays listed

theorem runs_flying {config : Config} {served called : Registry} {handlers : List (String × MethodKind)}
    (runs : Runs (initial config served called handlers) actions c) : Flying c := by
  induction runs with
  | nil => exact fun _ _ listed => by cases listed
  | snoc _ moved ih => exact step_flying ih moved

-- Why a request's cancellation was signalled.
inductive Cancelled (c : Connection) (actions : List Action) (n : Nat) (t : Task) : Prop where
  | closed : c.phase = .closed → Cancelled c actions n t
  | own : .signalOwn n ∈ actions → Cancelled c actions n t
  | notice {body pending m} : body ∈ c.frames → c.contract.decode pending body = .ok (.notification m) →
      c.served.isCancelMethod m.method = true → cancelledId? m = some t.request.id → Cancelled c actions n t
  | reused {m t'} : n < m → c.tasks[m]? = some t' → t'.request.id = t.request.id → Cancelled c actions n t

theorem Cancelled.step (cause : Cancelled c actions n t) (moved : c.step action = some after)
    (same : t'.request = t.request) : Cancelled after (actions ++ [action]) n t' := by
  have forward := step_forward moved
  cases cause with
  | closed gone =>
    rcases forward.phase with still | ⟨created, _⟩ | gone'
    · exact .closed (still.trans gone)
    · cases gone.symm.trans created
    · exact .closed gone'
  | own signal => exact .own (List.mem_append_left _ signal)
  | notice present decoded cancels named =>
    refine .notice ?_ (forward.contract ▸ decoded) (forward.served ▸ cancels) (same ▸ named)
    rw [step_frames moved]
    exact List.mem_append_left _ present
  | reused later found named =>
    obtain ⟨t'', found'', turn⟩ := step_task moved found
    exact .reused later found'' (by rw [turn.request, same]; exact named)

theorem Task.Turn.cancelled (turn : Task.Turn c action after n t t') (moved : c.step action = some after)
    (flying : Flying c) (found : c.tasks[n]? = some t) (signal : t'.cancelled = true) :
    t.cancelled = true ∨ Cancelled after (actions ++ [action]) n t' := by
  have forward := step_forward moved
  have read : ∀ {body}, action = .readNext → c.decoder.next.1 = some (.body body) → body ∈ after.frames := by
    intro body reads next
    rw [step_frames moved, reads]
    simp [frame?, next]
  have mine : ∀ {id}, c.inFlight.lookup id = some n → t.request.id = id := by
    intro id listed
    obtain ⟨t'', found'', named⟩ := flying id n listed
    exact Option.some.inj (found''.symm.trans found) ▸ named
  cases turn with
  | kept => exact .inl signal
  | polled => exact .inl signal
  | closed _ gone _ => exact .inr (.closed gone)
  | own signals => exact .inr (.own (List.mem_append_right _ (by simp [signals])))
  | notice reads next decoded cancels named listed =>
    refine .inr (.notice (read reads next) (forward.contract ▸ decoded) (forward.served ▸ cancels) ?_)
    exact named.trans (congrArg some (mine listed).symm)
  | @reused body r reads next decoded listed =>
    have born : c.born? action = some r := by
      subst reads
      simp [born?, next, decoded]
    obtain ⟨fresh, found', same⟩ := step_born_task moved born
    refine .inr (.reused (List.getElem?_eq_some_iff.mp found).1 found' ?_)
    rw [same]
    exact (mine listed).symm

theorem runs_cancelled {config : Config} {served called : Registry} {handlers : List (String × MethodKind)}
    (runs : Runs (initial config served called handlers) actions c) (found : c.tasks[n]? = some t)
    (signal : t.cancelled = true) : Cancelled c actions n t := by
  induction runs generalizing t with
  | nil => simp [initial] at found
  | @snoc before after actions action prior moved ih =>
    cases there : before.tasks[n]? with
    | none =>
      obtain ⟨_, _, fresh⟩ := step_new_task moved found there
      rw [fresh] at signal
      cases signal
    | some t' =>
      obtain ⟨t'', found'', turn⟩ := step_task moved there
      obtain rfl : t'' = t := Option.some.inj (found''.symm.trans found)
      rcases turn.cancelled moved (runs_flying prior) there signal with earlier | cause
      · exact (ih there earlier).step moved turn.request
      · exact cause

end DuplexRpc.Connection
