import Mathlib.Data.List.Nodup
import DuplexRpc.Registry

namespace DuplexRpc.Table
variable {κ α : Type} [DecidableEq κ]

def keys (table : List (κ × α)) : List κ := table.map Prod.fst

theorem lookup_cons (key : κ) (entry : κ × α) (rest : List (κ × α)) :
    (entry :: rest).lookup key = if key = entry.1 then some entry.2 else rest.lookup key := by
  obtain ⟨head, value⟩ := entry
  by_cases same : key = head
  · simp [same]
  · simp [List.lookup_cons, same, beq_eq_false_iff_ne.mpr same]

@[simp] theorem lookup_put (key other : κ) (value : α) (table : List (κ × α)) :
    (put key value table).lookup other = if other = key then some value else table.lookup other := by
  induction table with
  | nil => simp [put, lookup_cons]
  | cons entry rest ih =>
    obtain ⟨head, old⟩ := entry
    by_cases here : head = key
    · subst here
      by_cases same : other = head <;> simp [put, lookup_cons, same]
    · by_cases same : other = head
      · subst same
        simp [put, lookup_cons, here]
      · simp [put, lookup_cons, here, same, ih]

@[simp] theorem lookup_erase (key other : κ) (table : List (κ × α)) :
    (erase key table).lookup other = if other = key then none else table.lookup other := by
  induction table with
  | nil => simp [erase]
  | cons entry rest ih =>
    obtain ⟨head, old⟩ := entry
    unfold erase at ih ⊢
    by_cases here : head = key
    · subst here
      rw [List.filter_cons_of_neg (by simp), ih]
      by_cases same : other = head <;> simp [lookup_cons, same]
    · rw [List.filter_cons_of_pos (by simpa using here), lookup_cons, ih, lookup_cons]
      by_cases same : other = head
      · subst same
        simp [here]
      · simp [same]

theorem lookup_only (key other : κ) (table : List (κ × α)) :
    (table.filter (·.1 = key)).lookup other = if other = key then table.lookup other else none := by
  induction table with
  | nil => simp
  | cons entry rest ih =>
    by_cases here : entry.1 = key
    · rw [List.filter_cons_of_pos (by simpa using here), lookup_cons, ih, lookup_cons]
      by_cases same : other = entry.1
      · simp [same, here]
      · simp [same]
    · rw [List.filter_cons_of_neg (by simpa using here), ih, lookup_cons]
      by_cases same : other = key
      · simp [same, Ne.symm here]
      · simp [same]

theorem lookup_eq_none {key : κ} {table : List (κ × α)} : table.lookup key = none ↔ key ∉ keys table := by
  induction table with
  | nil => simp [keys]
  | cons entry rest ih =>
    rw [lookup_cons]
    by_cases same : key = entry.1
    · simp [keys, same]
    · simpa [keys, same] using ih

theorem mem_of_lookup {key : κ} {value : α} {table : List (κ × α)} (found : table.lookup key = some value) :
    (key, value) ∈ table := by
  induction table with
  | nil => simp at found
  | cons entry rest ih =>
    rw [lookup_cons] at found
    split at found
    · rename_i same
      obtain rfl := Option.some.inj found
      exact same ▸ List.mem_cons_self
    · exact List.mem_cons_of_mem _ (ih found)

theorem lookup_of_mem {key : κ} {value : α} {table : List (κ × α)} (distinct : (keys table).Nodup)
    (present : (key, value) ∈ table) : table.lookup key = some value := by
  induction table with
  | nil => simp at present
  | cons entry rest ih =>
    obtain ⟨fresh, distinct⟩ := List.nodup_cons.mp distinct
    rw [lookup_cons]
    rcases List.mem_cons.mp present with rfl | later
    · simp
    · have other : key ≠ entry.1 := by
        intro same
        exact fresh (same ▸ List.mem_map_of_mem later)
      rw [if_neg other]
      exact ih distinct later

-- The order of distinct keys does not matter.
theorem lookup_perm {key : κ} {one two : List (κ × α)} (distinct : (keys one).Nodup) (order : one.Perm two) :
    one.lookup key = two.lookup key := by
  have distinct' : (keys two).Nodup := (order.map Prod.fst).nodup_iff.mp distinct
  refine Option.ext fun value => ⟨fun found => ?_, fun found => ?_⟩
  · exact lookup_of_mem distinct' (order.mem_iff.mp (mem_of_lookup found))
  · exact lookup_of_mem distinct (order.mem_iff.mpr (mem_of_lookup found))

theorem put_of_absent {key : κ} {value : α} {table : List (κ × α)} (absent : table.lookup key = none) :
    put key value table = table ++ [(key, value)] := by
  induction table with
  | nil => rfl
  | cons entry rest ih =>
    rw [lookup_cons] at absent
    split at absent
    · cases absent
    · rename_i other
      simp [put, Ne.symm other, ih absent]

theorem erase_of_absent {key : κ} {table : List (κ × α)} (absent : table.lookup key = none) :
    erase key table = table := by
  apply List.filter_eq_self.mpr
  intro entry present
  have other : entry.1 ≠ key := by
    rintro rfl
    exact lookup_eq_none.mp absent (List.mem_map_of_mem present)
  simpa using other

theorem erase_comm (one two : κ) (table : List (κ × α)) : erase one (erase two table) = erase two (erase one table) := by
  simp only [erase, List.filter_filter, Bool.and_comm]

-- A new entry that is taken back at once leaves no trace.
theorem erase_put {key : κ} {value : α} {table : List (κ × α)} (absent : table.lookup key = none) :
    erase key (put key value table) = table := by
  have kept : table.filter (·.1 ≠ key) = table := erase_of_absent absent
  rw [put_of_absent absent, erase, List.filter_append, kept]
  simp

theorem keys_put (key : κ) (value : α) (table : List (κ × α)) :
    keys (put key value table) = if key ∈ keys table then keys table else keys table ++ [key] := by
  induction table with
  | nil => simp [put, keys]
  | cons entry rest ih =>
    obtain ⟨head, old⟩ := entry
    unfold keys at ih ⊢
    by_cases here : head = key
    · subst here
      simp [put]
    · rw [put, if_neg here, List.map_cons, ih]
      by_cases later : key ∈ rest.map Prod.fst
      · simp only [List.map_cons, if_pos later, if_pos (List.mem_cons_of_mem _ later)]
      · have absent : key ∉ head :: rest.map Prod.fst := by simp [Ne.symm here, later]
        simp only [List.map_cons, if_neg later, if_neg absent, List.cons_append]

theorem distinct_put (key : κ) (value : α) {table : List (κ × α)} (distinct : (keys table).Nodup) :
    (keys (put key value table)).Nodup := by
  rw [keys_put]
  split
  · exact distinct
  · rename_i absent
    refine List.nodup_append.mpr ⟨distinct, by simp, ?_⟩
    rintro a present b last rfl
    exact absent (List.mem_singleton.mp last ▸ present)

theorem distinct_erase (key : κ) {table : List (κ × α)} (distinct : (keys table).Nodup) :
    (keys (erase key table)).Nodup :=
  (List.filter_sublist.map Prod.fst).nodup distinct

end DuplexRpc.Table
