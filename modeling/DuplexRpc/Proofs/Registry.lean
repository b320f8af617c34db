import DuplexRpc.Registry
import DuplexRpc.Proofs.Table

namespace DuplexRpc.Registry
variable {r other : Registry} {name : String} {specs more : List MethodSpec} {entries : List (String × MethodSpec)}

mutual

-- What a step registers inside segments, outermost first, in the order in which it is
-- written. Another registry comes with its own names, whatever the segments.
def Step.registrations (segments : List String) : Step → List MethodSpec
  | .request name params result => [⟨"/".intercalate (segments ++ [name]), .request, params, result⟩]
  | .notification name params => [⟨"/".intercalate (segments ++ [name]), .notification, params, .any⟩]
  | .cancellation settings =>
    [⟨settings.method, .notification, .object [⟨"id", .either .integer .string, .required⟩], .any⟩]
  | .segment name steps => registrations (segments ++ [name]) steps
  | .extend steps => registrations [] steps

def registrations (segments : List String) : List Step → List MethodSpec
  | [] => []
  | step :: rest => step.registrations segments ++ registrations segments rest

end

mutual

-- The cancel notifications that steps declare themselves, also inside segments.
def Step.declared : Step → List CancelSettings
  | .cancellation settings => [settings]
  | .segment _ steps => declared steps
  | _ => []

def declared : List Step → List CancelSettings
  | [] => []
  | step :: rest => step.declared ++ declared rest

end

mutual

-- Those that other registries bring along: of each the one it has in the end.
def Step.lent : Step → List CancelSettings
  | .segment _ steps => lent steps
  | .extend steps => ((declared steps).getLast?.or (lent steps).head?).toList
  | _ => []

def lent : List Step → List CancelSettings
  | [] => []
  | step :: rest => step.lent ++ lent rest

end

-- Of several registrations under a name the last one counts.
def latest (specs : List MethodSpec) (name : String) : Option MethodSpec :=
  specs.reverse.find? (·.name = name)

theorem latest_append (specs more : List MethodSpec) (name : String) :
    latest (specs ++ more) name = (latest more name).or (latest specs name) := by
  simp [latest]

theorem latest_singleton (spec : MethodSpec) (name : String) :
    latest [spec] name = if name = spec.name then some spec else none := by
  by_cases same : name = spec.name
  · simp [latest, same]
  · simp [latest, same, Ne.symm same]

theorem latest_cons (spec : MethodSpec) (specs : List MethodSpec) (name : String) :
    latest (spec :: specs) name = (latest specs name).or (if name = spec.name then some spec else none) := by
  rw [← latest_singleton]
  exact latest_append [spec] specs name

-- In a table whose keys are the names of its entries there is nothing to choose.
theorem latest_entries (distinct : (Table.keys entries).Nodup)
    (named : ∀ key spec, (key, spec) ∈ entries → spec.name = key) (name : String) :
    latest (entries.map Prod.snd) name = entries.lookup name := by
  induction entries with
  | nil => rfl
  | cons entry rest ih =>
    obtain ⟨key, spec⟩ := entry
    obtain ⟨fresh, distinct⟩ := List.nodup_cons.mp distinct
    have own : spec.name = key := named key spec List.mem_cons_self
    rw [List.map_cons, latest_cons, ih distinct fun key spec later => named key spec (List.mem_cons_of_mem _ later),
      Table.lookup_cons, own]
    by_cases here : name = key
    · subst here
      simp [Table.lookup_eq_none.mpr fresh]
    · simp [here]

theorem lookup_register (r : Registry) (spec : MethodSpec) (name : String) :
    (r.register spec).lookup name = (latest [spec] name).or (r.lookup name) := by
  rw [latest_singleton, lookup, register, Table.lookup_put]
  split <;> rfl

theorem lookup_registerAll (entries : List (String × MethodSpec)) (r : Registry) (name : String) :
    (entries.foldl (fun r entry => r.register entry.2) r).lookup name =
      (latest (entries.map Prod.snd) name).or (r.lookup name) := by
  induction entries generalizing r with
  | nil => rfl
  | cons entry rest ih =>
    rw [List.foldl_cons, ih, lookup_register, ← Option.or_assoc, ← latest_append]
    rfl

-- Each method stands once and under its own name, and a declared cancel notification is
-- one of them.
structure Sound (r : Registry) : Prop where
  distinct : (Table.keys r.methods).Nodup
  named : ∀ name spec, r.lookup name = some spec → spec.name = name
  declared : ∀ settings, r.cancellation = some settings → r.contains settings.method

theorem empty_sound : Sound {} :=
  ⟨List.nodup_nil, nofun, nofun⟩

theorem Sound.register (sound : Sound r) (spec : MethodSpec) : Sound (r.register spec) := by
  refine ⟨Table.distinct_put _ _ sound.distinct, fun name found there => ?_, fun settings given => ?_⟩
  · rw [lookup_register, latest_singleton] at there
    split at there
    · rename_i same
      exact Option.some.inj there ▸ same.symm
    · exact sound.named name found there
  · rw [contains, lookup_register, Option.isSome_or, Bool.or_eq_true]
    exact .inr (sound.declared settings given)

theorem Sound.registerAll (sound : Sound r) (entries : List (String × MethodSpec)) :
    Sound (entries.foldl (fun r entry => r.register entry.2) r) := by
  induction entries generalizing r with
  | nil => exact sound
  | cons entry rest ih => exact ih (sound.register entry.2)

theorem Sound.named_entry (sound : Sound r) (key : String) (spec : MethodSpec) (present : (key, spec) ∈ r.methods) :
    spec.name = key :=
  sound.named key spec (Table.lookup_of_mem sound.distinct present)

-- In whatever order the entries are taken from the other registry.
theorem Sound.lookup_merged (sound : Sound other) (order : entries.Perm other.methods) (r : Registry) (name : String) :
    (entries.foldl (fun r entry => r.register entry.2) r).lookup name = (other.lookup name).or (r.lookup name) := by
  have distinct : (Table.keys entries).Nodup := (order.map Prod.fst).nodup_iff.mpr sound.distinct
  have named : ∀ key spec, (key, spec) ∈ entries → spec.name = key :=
    fun key spec present => sound.named_entry key spec (order.mem_iff.mp present)
  rw [lookup_registerAll, latest_entries distinct named, Table.lookup_perm distinct order]
  rfl

theorem Sound.lookup_extend (sound : Sound other) (r : Registry) (name : String) :
    (r.extend other).lookup name = (other.lookup name).or (r.lookup name) :=
  sound.lookup_merged (.refl _) r name

theorem Sound.declareCancellation (sound : Sound r) (settings : CancelSettings) :
    Sound (r.declareCancellation settings) := by
  have registered := sound.register (cancelSpec settings.method)
  refine ⟨registered.distinct, registered.named, fun given same => ?_⟩
  obtain rfl : settings = given := Option.some.inj same
  have there : (r.register (cancelSpec settings.method)).lookup settings.method = some (cancelSpec settings.method) := by
    rw [lookup_register, latest_singleton, if_pos (by rfl)]
    rfl
  exact Option.isSome_of_eq_some there

theorem Sound.extend (sound : Sound r) (other' : Sound other) : Sound (r.extend other) := by
  have merged := sound.registerAll other.methods
  refine ⟨merged.distinct, merged.named, fun settings given => ?_⟩
  rw [contains, other'.lookup_extend, Option.isSome_or, Bool.or_eq_true]
  cases mine : r.cancellation with
  | some own =>
    obtain rfl : own = settings := by simpa [Registry.extend, mine] using given
    exact .inr (sound.declared own mine)
  | none => exact .inl (other'.declared settings (by simpa [Registry.extend, mine] using given))

mutual

theorem apply_sound (path : String) : ∀ (step : Step) (r : Registry), Sound r → Sound (apply path r step)
  | .request _ _ _, _, sound | .notification _ _, _, sound => sound.register _
  | .cancellation settings, _, sound => sound.declareCancellation settings
  | .segment name steps, r, sound => applyAll_sound (path ++ name ++ "/") steps r sound
  | .extend steps, _, sound => sound.extend (applyAll_sound "" steps {} empty_sound)

theorem applyAll_sound (path : String) : ∀ (steps : List Step) (r : Registry), Sound r → Sound (applyAll path r steps)
  | [], _, sound => sound
  | step :: rest, r, sound => applyAll_sound path rest _ (apply_sound path step r sound)

end

-- What stands before a name inside segments.
def pathOf (segments : List String) : String :=
  segments.foldl (fun path segment => path ++ segment ++ "/") ""

theorem pathOf_append (segments : List String) (name : String) :
    pathOf segments ++ name = "/".intercalate (segments ++ [name]) := by
  have behind : ∀ path : String, segments.foldl (fun path segment => path ++ segment ++ "/") path ++ name =
      path ++ "/".intercalate (segments ++ [name]) := by
    induction segments with
    | nil => intro path; rfl
    | cons segment rest ih =>
      intro path
      rw [List.foldl_cons, ih]
      cases rest <;> simp [String.intercalate_cons_cons, String.append_assoc]
  simpa [pathOf] using behind ""

theorem pathOf_snoc (segments : List String) (name : String) :
    pathOf (segments ++ [name]) = pathOf segments ++ name ++ "/" := by
  rw [pathOf, List.foldl_append]
  rfl

mutual

-- A step adds its registrations to the table, the later over the earlier.
theorem apply_lookup (segments : List String) (name : String) : ∀ (step : Step) (r : Registry),
    (apply (pathOf segments) r step).lookup name = (latest (step.registrations segments) name).or (r.lookup name)
  | .request _ _ _, r | .notification _ _, r => by
    rw [Step.registrations, ← pathOf_append]
    exact lookup_register ..
  | .cancellation _, r => lookup_register ..
  | .segment inner steps, r => by
    rw [apply, Step.registrations, ← pathOf_snoc]
    exact applyAll_lookup (segments ++ [inner]) name steps r
  | .extend steps, r => by
    have built := applyAll_lookup [] name steps {}
    have sound := applyAll_sound "" steps {} empty_sound
    rw [apply, Step.registrations, sound.lookup_extend]
    exact congrArg (Option.or · (r.lookup name)) (built.trans (Option.or_none ..))

theorem applyAll_lookup (segments : List String) (name : String) : ∀ (steps : List Step) (r : Registry),
    (applyAll (pathOf segments) r steps).lookup name = (latest (registrations segments steps) name).or (r.lookup name)
  | [], _ => rfl
  | step :: rest, r => by
    rw [applyAll, registrations, applyAll_lookup segments name rest, apply_lookup segments name step r, latest_append,
      Option.or_assoc]

end

mutual

theorem apply_cancellation (path : String) : ∀ (step : Step) (r : Registry),
    (apply path r step).cancellation = step.declared.getLast?.or (r.cancellation.or step.lent.head?)
  | .request _ _ _, r | .notification _ _, r => (Option.or_none ..).symm
  | .cancellation _, _ => rfl
  | .segment name steps, r => applyAll_cancellation (path ++ name ++ "/") steps r
  | .extend steps, r => by
    have built : (applyAll "" {} steps).cancellation = (declared steps).getLast?.or (lent steps).head? :=
      applyAll_cancellation "" steps {}
    rw [apply, Registry.extend, built, Step.lent]
    cases r.cancellation <;> cases (declared steps).getLast?.or (lent steps).head? <;> rfl

theorem applyAll_cancellation (path : String) : ∀ (steps : List Step) (r : Registry),
    (applyAll path r steps).cancellation = (declared steps).getLast?.or (r.cancellation.or (lent steps).head?)
  | [], r => (Option.or_none ..).symm
  | step :: rest, r => by
    rw [applyAll, applyAll_cancellation path rest, apply_cancellation path step r, declared, lent, List.getLast?_append,
      List.head?_append]
    simp only [Option.or_assoc]

end

-- A registry holds, under each name, the last of all registrations in the order in which they
-- are written. Its cancel notification is the last one declared by a step, or else the first one
-- that came with another registry; and in whatever order the entries of a registry are merged
-- into another, the methods are the same.
theorem steps_build_a_flat_table (steps : List Step) :
    let built := ofSteps steps
    ((∀ name, built.lookup name = latest (registrations [] steps) name) ∧ (Table.keys built.methods).Nodup) ∧
    built.cancellation = (declared steps).getLast?.or (lent steps).head? ∧
    (∀ key spec, (key, spec) ∈ built.methods → spec.name = key) ∧
    (∀ settings, built.cancellation = some settings → built.contains settings.method) ∧
    ∀ (r : Registry) (entries : List (String × MethodSpec)), entries.Perm built.methods → ∀ name,
      (entries.foldl (fun r entry => r.register entry.2) r).lookup name = (r.extend built).lookup name := by
  intro built
  have sound : Sound built := applyAll_sound "" steps {} empty_sound
  refine ⟨⟨fun name => ?_, sound.distinct⟩, ?_, sound.named_entry, sound.declared, fun r entries order name => ?_⟩
  · exact (applyAll_lookup [] name steps {}).trans (Option.or_none ..)
  · exact applyAll_cancellation "" steps {}
  · rw [sound.lookup_merged order, sound.lookup_extend]

-- Names of another registry stay as they are inside a segment, and its cancel notification gives
-- way to a later one of the steps themselves.
example :
    let built := ofSteps [.segment "a" [.segment "b" [.request "m" .any .null], .extend [.cancellation ⟨"x", 1⟩]],
      .notification "m" .any, .cancellation ⟨"y", 2⟩]
    built.methods.map Prod.fst = ["a/b/m", "x", "m", "y"] ∧ built.cancellation = some ⟨"y", 2⟩ := by
  decide

end DuplexRpc.Registry
