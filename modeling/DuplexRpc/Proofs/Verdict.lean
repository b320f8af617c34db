import DuplexRpc.Dispatcher

namespace DuplexRpc

theorem ErrorCode.code_ofCode (code : Int64) : (ofCode code).code = code := by
  unfold ofCode
  repeat' split
  all_goals simp_all [ErrorCode.code]

namespace Dispatcher
variable {σ : Type} {d : Dispatcher} {machine : σ → Bool → Progress σ} {r : Request} {s : Service σ} {state : σ}
  {signalled : Bool} {events : List Event}

-- A handler that every poll runs: how often it was run, and how far it has come.
def alone (machine : σ → Bool → Progress σ) (state : σ) (signalled : Bool) : List Event → Nat × Progress σ
  | [] => (0, .pending state)
  | .cancel :: rest => alone machine state true rest
  | .poll :: rest =>
    match machine state signalled with
    | .ended outcome => (1, .ended outcome)
    | .pending next =>
      let (runs, progress) := alone machine next signalled rest
      (runs + 1, progress)

-- The events that reach the handler of a request. Where cancellation is declared, none does
-- after the first signal.
def heard (d : Dispatcher) (events : List Event) : List Event :=
  if d.cancellation = none then events else events.takeWhile (· ≠ .cancel)

-- What decides a request.
inductive Verdict where
  | notFound
  | cancelled (settings : CancelSettings)
  | ended (outcome : Outcome)

-- What the peer is told about it.
def Verdict.reply (r : Request) : Verdict → Reply
  | .notFound => .error ⟨-32601, "Unsupported request method: " ++ r.method, none⟩
  | .cancelled settings =>
    .error ⟨settings.code,
      "The request (id: " ++ r.id.display ++ ", method: '" ++ r.method ++ "') has been cancelled", none⟩
  | .ended (.result value) => .result value
  | .ended (.failure error) => .error error
  | .ended (.internal causes) => .error ⟨-32603, "Internal error", some (.string (": ".intercalate causes))⟩
  | .ended (.panic text) => .error ⟨-32603, "Internal error", some (.string (text.getD "handler panicked"))⟩

def Verdict.response (r : Request) (v : Verdict) : Response := ⟨some r.id, v.reply r⟩

theorem response_notFound (r : Request) : Verdict.notFound.response r = ⟨some r.id, notFoundReply r⟩ := rfl

theorem response_cancelled (r : Request) (settings : CancelSettings) :
    (Verdict.cancelled settings).response r = ⟨some r.id, cancelledReply settings r⟩ := by
  simp only [Verdict.response, Verdict.reply, cancelledReply, ResponseError.ofKind, ErrorCode.code_ofCode]

theorem response_ended (r : Request) (outcome : Outcome) :
    (Verdict.ended outcome).response r = ⟨some r.id, outcome.reply⟩ := by
  cases outcome <;> rfl

theorem serveAll_cons (d : Dispatcher) (machine : σ → Bool → Progress σ) (r : Request) (s : Service σ) (event : Event)
    (rest : List Event) : d.serveAll machine r s (event :: rest) = d.serveAll machine r (d.serve machine r s event) rest :=
  rfl

theorem serveAll_append (d : Dispatcher) (machine : σ → Bool → Progress σ) (r : Request) (s : Service σ)
    (one two : List Event) : d.serveAll machine r s (one ++ two) = d.serveAll machine r (d.serveAll machine r s one) two :=
  List.foldl_append

-- An answered request stays as it is, but for the signal.
theorem serveAll_answered (machine : σ → Bool → Progress σ) (answered : s.answers ≠ []) (events : List Event) :
    (d.serveAll machine r s events).answers = s.answers ∧ (d.serveAll machine r s events).runs = s.runs := by
  induction events generalizing s with
  | nil => exact ⟨rfl, rfl⟩
  | cons event rest ih =>
    rw [serveAll_cons]
    cases event with
    | cancel => exact ih (s := { s with cancelled := true }) answered
    | poll =>
      have same : d.serve machine r s .poll = s := if_pos answered
      rw [same]
      exact ih answered

theorem answers_grow (d : Dispatcher) (machine : σ → Bool → Progress σ) (r : Request) (s : Service σ)
    (one two : List Event) : (d.serveAll machine r s one).answers <+: (d.serveAll machine r s (one ++ two)).answers := by
  rw [serveAll_append]
  by_cases answered : (d.serveAll machine r s one).answers = []
  · rw [answered]
    exact List.nil_prefix
  · exact (serveAll_answered machine answered two).1.symm ▸ List.prefix_rfl

-- Where no poll runs the handler, the first one answers.
theorem serveAll_decided (machine : σ → Bool → Progress σ) {v : Verdict} (fresh : s.answers = [])
    (decides : ∀ signalled, (s.cancelled = true → signalled = true) →
      d.runsHandler r signalled = false ∧ d.poll r signalled none = some (v.response r)) (events : List Event) :
    (d.serveAll machine r s events).answers = (if .poll ∈ events then [v.response r] else []) ∧
      (d.serveAll machine r s events).runs = s.runs := by
  induction events generalizing s with
  | nil => exact ⟨fresh, rfl⟩
  | cons event rest ih =>
    rw [serveAll_cons]
    cases event with
    | cancel =>
      have later := ih (s := { s with cancelled := true }) fresh fun signalled given => decides signalled fun _ => given rfl
      simpa [serve] using later
    | poll =>
      obtain ⟨idle, answer⟩ := decides s.cancelled id
      have answers : d.serve machine r s .poll = { s with answers := [v.response r] } := by
        simp [serve, fresh, idle, answer]
      rw [answers]
      simpa using serveAll_answered machine (s := { s with answers := [v.response r] }) (by simp) rest

theorem alone_ended {outcome : Outcome} (ended : (alone machine state signalled events).2 = .ended outcome)
    (more : List Event) : alone machine state signalled (events ++ more) = alone machine state signalled events := by
  induction events generalizing state signalled with
  | nil => cases ended
  | cons event rest ih =>
    cases event with
    | cancel => exact ih ended
    | poll =>
      cases next : machine state signalled with
      | ended other => simp only [List.cons_append, alone, next]
      | pending later =>
        simp only [alone, next] at ended
        simp only [List.cons_append, alone, next, ih ended]

-- Where every poll runs the handler, it is left alone.
theorem serveAll_alone (machine : σ → Bool → Progress σ) (served : d.serves .request r.method = true)
    (fresh : s.answers = []) (free : d.cancellation = none ∨ s.cancelled = false ∧ .cancel ∉ events) :
    (d.serveAll machine r s events).runs = s.runs + (alone machine s.state s.cancelled events).1 ∧
    (d.serveAll machine r s events).answers = match (alone machine s.state s.cancelled events).2 with
      | .ended outcome => [(Verdict.ended outcome).response r]
      | .pending _ => [] := by
  induction events generalizing s with
  | nil => exact ⟨rfl, fresh⟩
  | cons event rest ih =>
    rw [serveAll_cons]
    cases event with
    | cancel =>
      have undeclared : d.cancellation = none := by simpa using free
      exact ih (s := { s with cancelled := true }) fresh (.inl undeclared)
    | poll =>
      have free' : d.cancellation = none ∨ s.cancelled = false ∧ .cancel ∉ rest := by simpa using free
      have runs : d.runsHandler r s.cancelled = true := by
        rcases free with undeclared | ⟨quiet, _⟩ <;> simp [runsHandler, preempts, *]
      have answer : ∀ outcome, d.poll r s.cancelled (some outcome) = some ((Verdict.ended outcome).response r) := by
        intro outcome
        rw [response_ended]
        rcases free with undeclared | ⟨quiet, _⟩ <;> simp [poll, *]
      cases next : machine s.state s.cancelled with
      | ended outcome =>
        have ends : d.serve machine r s .poll =
            { s with runs := s.runs + 1, answers := [(Verdict.ended outcome).response r] } := by
          simp [serve, fresh, runs, next, answer]
        rw [ends]
        have final := serveAll_answered machine (d := d) (r := r)
          (s := { s with runs := s.runs + 1, answers := [(Verdict.ended outcome).response r] }) (by simp) rest
        simpa only [alone, next, and_comm] using final
      | pending state =>
        have goes : d.serve machine r s .poll = { s with state := state, runs := s.runs + 1 } := by
          simp [serve, fresh, runs, next]
        rw [goes]
        have later := ih (s := { s with state := state, runs := s.runs + 1 }) fresh free'
        simpa only [alone, next, Nat.add_comm 1, Nat.add_assoc] using later

theorem heard_undeclared (undeclared : d.cancellation = none) (events : List Event) : d.heard events = events :=
  if_pos undeclared

theorem heard_append {front : List Event} (declared : d.cancellation ≠ none) (quiet : .cancel ∉ front)
    (back : List Event) : d.heard (front ++ back) = front ++ d.heard back := by
  have passes : ∀ event ∈ front, decide (event ≠ .cancel) = true := by
    intro event present
    simpa using fun same : event = .cancel => quiet (same ▸ present)
  simp only [heard, if_neg declared, List.takeWhile_append_of_pos passes]

theorem heard_signal (declared : d.cancellation ≠ none) (back : List Event) : d.heard (.cancel :: back) = [] := by
  simp [heard, declared]

theorem heard_quiet (quiet : .cancel ∉ events) : d.heard events = events := by
  by_cases undeclared : d.cancellation = none
  · exact heard_undeclared undeclared events
  · have hears := heard_append undeclared quiet []
    rwa [List.append_nil, show d.heard [] = [] by simp [heard], List.append_nil] at hears

theorem heard_stops (declared : d.cancellation ≠ none) (front back : List Event) :
    d.heard (front ++ .cancel :: back) = d.heard front := by
  by_cases signalled : .cancel ∈ front
  · obtain ⟨first, rest, rfl, quiet⟩ := List.eq_append_cons_of_mem signalled
    simp only [List.append_assoc, List.cons_append, heard_append declared quiet, heard_signal declared]
  · rw [heard_append declared signalled, heard_signal declared, heard_quiet signalled, List.append_nil]

-- Either no signal is given, or there is a first one.
theorem heard_cases (d : Dispatcher) (events : List Event) :
    (d.heard events = events ∧ (d.cancellation = none ∨ .cancel ∉ events)) ∨
      ∃ back, events = d.heard events ++ .cancel :: back ∧ .cancel ∉ d.heard events ∧ d.cancellation ≠ none := by
  by_cases undeclared : d.cancellation = none
  · exact .inl ⟨heard_undeclared undeclared events, .inl undeclared⟩
  by_cases signalled : .cancel ∈ events
  · obtain ⟨front, back, rfl, quiet⟩ := List.eq_append_cons_of_mem signalled
    have hears : d.heard (front ++ .cancel :: back) = front := by
      rw [heard_append undeclared quiet, heard_signal undeclared, List.append_nil]
    exact .inr ⟨back, by rw [hears], by rwa [hears], undeclared⟩
  · exact .inl ⟨heard_quiet signalled, .inr signalled⟩

-- The verdict on a request that is served, from how far its handler has come and what it did not hear.
def decides? (d : Dispatcher) (unheard : List Event) : Progress σ → Option Verdict
  | .ended outcome => some (.ended outcome)
  | .pending _ => if .poll ∈ unheard then d.cancellation.map .cancelled else none

-- The verdict on a schedule.
def verdict? (d : Dispatcher) (machine : σ → Bool → Progress σ) (r : Request) (state : σ) (events : List Event) :
    Option Verdict :=
  if d.serves .request r.method then
    d.decides? (events.drop (d.heard events).length) (alone machine state false (d.heard events)).2
  else if .poll ∈ events then some .notFound else none

theorem serveAll_unserved (machine : σ → Bool → Progress σ) (state : σ)
    (unserved : d.serves .request r.method = false) (events : List Event) :
    (d.serveAll machine r { state := state } events).answers =
      (if .poll ∈ events then [Verdict.notFound.response r] else []) ∧
    (d.serveAll machine r { state := state } events).runs = 0 :=
  serveAll_decided machine (s := { state := state }) rfl
    (fun signalled _ => by simp [runsHandler, poll, unserved, response_notFound]) events

theorem serveAll_free (machine : σ → Bool → Progress σ) (state : σ) (served : d.serves .request r.method = true)
    (free : d.cancellation = none ∨ .cancel ∉ events) :
    (d.serveAll machine r { state := state } events).answers =
      (d.decides? [] (alone machine state false events).2).toList.map (·.response r) ∧
    (d.serveAll machine r { state := state } events).runs = (alone machine state false events).1 := by
  obtain ⟨runs, answers⟩ := serveAll_alone machine (s := { state := state }) served rfl
    (free.imp id fun quiet => ⟨rfl, quiet⟩)
  rw [runs, answers, Nat.zero_add]
  cases (alone machine state false events).2 <;> exact ⟨rfl, rfl⟩

theorem serveAll_signalled {settings : CancelSettings} {front : List Event} (served : d.serves .request r.method = true)
    (declared : d.cancellation = some settings) (quiet : .cancel ∉ front) (back : List Event) :
    (d.serveAll machine r { state := state } (front ++ .cancel :: back)).answers =
      (d.decides? (.cancel :: back) (alone machine state false front).2).toList.map (·.response r) ∧
    (d.serveAll machine r { state := state } (front ++ .cancel :: back)).runs = (alone machine state false front).1 := by
  obtain ⟨answers, runs⟩ := serveAll_free machine state served (.inr quiet)
  rw [serveAll_append]
  cases progress : (alone machine state false front).2 with
  | ended outcome =>
    rw [progress] at answers
    have answered : (d.serveAll machine r { state := state } front).answers ≠ [] := by simp [answers, decides?]
    have final := serveAll_answered machine (d := d) (r := r) answered (.cancel :: back)
    exact ⟨final.1.trans answers, final.2.trans runs⟩
  | pending next =>
    rw [progress] at answers
    have decided := serveAll_decided machine (d := d) (r := r) (v := .cancelled settings)
      (s := d.serve machine r (d.serveAll machine r { state := state } front) .cancel) answers
      (fun signalled given => by
        obtain rfl := given rfl
        simp [runsHandler, poll, preempts, served, declared, response_cancelled]) back
    refine ⟨decided.1.trans ?_, decided.2.trans runs⟩
    simp only [decides?, List.mem_cons, reduceCtorEq, false_or, declared]
    split <;> rfl

theorem serveAll_verdict (d : Dispatcher) (machine : σ → Bool → Progress σ) (r : Request) (state : σ)
    (events : List Event) :
    (d.serveAll machine r { state := state } events).answers =
      (d.verdict? machine r state events).toList.map (·.response r) ∧
    (d.serveAll machine r { state := state } events).runs =
      (if d.serves .request r.method then (alone machine state false (d.heard events)).1 else 0) := by
  cases served : d.serves .request r.method with
  | false =>
    obtain ⟨answers, runs⟩ := serveAll_unserved machine state served events
    simp only [verdict?, served, Bool.false_eq_true, if_false]
    refine ⟨answers.trans ?_, runs⟩
    split <;> rfl
  | true =>
    simp only [verdict?, served, if_true]
    obtain ⟨all, free⟩ | ⟨back, split, quiet, declared⟩ := heard_cases d events
    · rw [all, List.drop_length]
      exact serveAll_free machine state served free
    · obtain ⟨settings, given⟩ := Option.ne_none_iff_exists'.mp declared
      generalize d.heard events = front at split quiet ⊢
      subst split
      rw [List.drop_left]
      exact serveAll_signalled served given quiet back

theorem verdict?_notFound : d.verdict? machine r state events = some .notFound ↔
    d.serves .request r.method = false ∧ .poll ∈ events := by
  unfold verdict?
  cases d.serves .request r.method with
  | false => simp
  | true => cases (alone machine state false (d.heard events)).2 <;> simp [decides?]

theorem verdict?_ended {outcome : Outcome} : d.verdict? machine r state events = some (.ended outcome) ↔
    d.serves .request r.method = true ∧ ∃ front back, events = front ++ back ∧
      (d.cancellation = none ∨ .cancel ∉ front) ∧ (alone machine state false front).2 = .ended outcome := by
  have computed : d.verdict? machine r state events = some (.ended outcome) ↔
      d.serves .request r.method = true ∧ (alone machine state false (d.heard events)).2 = .ended outcome := by
    unfold verdict?
    cases d.serves .request r.method with
    | false => simp
    | true => cases (alone machine state false (d.heard events)).2 <;> simp [decides?]
  rw [computed]
  refine and_congr_right fun _ => ⟨fun ended => ?_, ?_⟩
  · obtain ⟨all, free⟩ | ⟨back, split, quiet, _⟩ := heard_cases d events
    · exact ⟨events, [], by simp, free, all ▸ ended⟩
    · exact ⟨d.heard events, _, split, .inr quiet, ended⟩
  · rintro ⟨front, back, rfl, free, ended⟩
    by_cases undeclared : d.cancellation = none
    · rw [heard_undeclared undeclared, alone_ended ended, ended]
    · rw [heard_append undeclared (free.resolve_left undeclared), alone_ended ended, ended]

theorem verdict?_cancelled {settings : CancelSettings} :
    d.verdict? machine r state events = some (.cancelled settings) ↔
      d.serves .request r.method = true ∧ d.cancellation = some settings ∧
        ∃ front back next, events = front ++ .cancel :: back ∧ .cancel ∉ front ∧ .poll ∈ back ∧
          (alone machine state false front).2 = .pending next := by
  have computed : d.verdict? machine r state events = some (.cancelled settings) ↔
      d.serves .request r.method = true ∧ d.cancellation = some settings ∧
        .poll ∈ events.drop (d.heard events).length ∧
          ∃ next, (alone machine state false (d.heard events)).2 = .pending next := by
    unfold verdict?
    cases d.serves .request r.method with
    | false => simp
    | true => cases (alone machine state false (d.heard events)).2 <;> simp [decides?, and_comm]
  rw [computed]
  refine and_congr_right fun _ => and_congr_right fun declared => ⟨?_, ?_⟩
  · rintro ⟨polled, next, progress⟩
    obtain ⟨all, _⟩ | ⟨back, split, quiet, _⟩ := heard_cases d events
    · simp [all] at polled
    · generalize d.heard events = front at split quiet polled progress
      subst split
      exact ⟨front, back, next, rfl, quiet, by simpa using polled, progress⟩
  · rintro ⟨front, back, next, rfl, quiet, polled, progress⟩
    have hears : d.heard (front ++ .cancel :: back) = front := by
      rw [heard_append (by simp [declared]) quiet, heard_signal (by simp [declared]), List.append_nil]
    rw [hears, List.drop_left]
    exact ⟨List.mem_cons_of_mem _ polled, next, progress⟩

-- For every schedule of polls and signals. The verdict is given at most once, at some poll, and is then final:
-- not found, whatever was signalled; cancelled, where a signal came while the handler was still pending and a
-- poll came after it; what the handler ended with, where it ended before any signal it may not hear.
theorem answers_follow_the_schedule (d : Dispatcher) (machine : σ → Bool → Progress σ) (r : Request) (state : σ)
    (events : List Event) :
    (∃ verdict : Option Verdict,
      (d.serveAll machine r { state := state } events).answers = verdict.toList.map (·.response r) ∧
      (verdict = some .notFound ↔ d.serves .request r.method = false ∧ .poll ∈ events) ∧
      (∀ settings, verdict = some (.cancelled settings) ↔
        d.serves .request r.method = true ∧ d.cancellation = some settings ∧
          ∃ front back next, events = front ++ .cancel :: back ∧ .cancel ∉ front ∧ .poll ∈ back ∧
            (alone machine state false front).2 = .pending next) ∧
      ∀ outcome, verdict = some (.ended outcome) ↔
        d.serves .request r.method = true ∧ ∃ front back, events = front ++ back ∧
          (d.cancellation = none ∨ .cancel ∉ front) ∧ (alone machine state false front).2 = .ended outcome) ∧
    (∀ n, (d.serveAll machine r { state := state } (events.take n)).answers <+:
      (d.serveAll machine r { state := state } events).answers) ∧
    (d.serveAll machine r { state := state } events).runs =
      (if d.serves .request r.method then (alone machine state false (d.heard events)).1 else 0) ∧
    ∀ front back, d.cancellation ≠ none → events = front ++ .cancel :: back →
      (d.serveAll machine r { state := state } events).runs = (d.serveAll machine r { state := state } front).runs := by
  have decided := serveAll_verdict d machine r state
  refine ⟨⟨_, (decided events).1, verdict?_notFound, fun _ => verdict?_cancelled, fun _ => verdict?_ended⟩,
    fun n => ?_, (decided events).2, ?_⟩
  · have grows := answers_grow d machine r { state := state } (events.take n) (events.drop n)
    rwa [List.take_append_drop] at grows
  · rintro front back declared rfl
    rw [(decided _).2, (decided _).2, heard_stops declared]

-- A signal right before the poll at which the handler would have ended.
example :
    let machine : Nat → Bool → Progress Nat
      | 0, _ => .ended (.failure ⟨1, "late", none⟩)
      | left + 1, _ => .pending left
    let d : Dispatcher := { handlers := [("run", .request)], cancellation := some ⟨"$/cancelRequest", -32800⟩ }
    let s := d.serveAll machine ⟨.number 7, "run", none⟩ { state := 1 } [.poll, .cancel, .poll]
    s.runs = 1 ∧ s.answers.map (·.id) = [some (.number 7)] := by decide

end Dispatcher
end DuplexRpc
