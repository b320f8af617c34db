import Mathlib.Data.String.Basic
import DuplexRpc.Json.Value
import DuplexRpc.Proofs.Table

namespace DuplexRpc.Json
variable {α β : Type} {members : List (String × α)} {name key : String} {value : α}

theorem lookup_insertMember (name key : String) (value : α) (members : List (String × α)) :
    (insertMember name value members).lookup key = if key = name then some value else members.lookup key := by
  induction members with
  | nil => simp [insertMember, Table.lookup_cons]
  | cons member rest ih =>
    obtain ⟨head, old⟩ := member
    unfold insertMember
    split
    · rw [Table.lookup_cons]
    · split
      · rename_i same
        subst same
        rw [Table.lookup_cons, Table.lookup_cons]
        by_cases here : key = name <;> simp [here]
      · rename_i other
        rw [Table.lookup_cons, Table.lookup_cons, ih]
        by_cases here : key = head
        · have apart : key ≠ name := fun same => other (same ▸ here)
          simp [here, Ne.symm other]
        · simp [here]

theorem lookup_insertAll (members sorted : List (String × α)) (key : String) :
    (members.foldl (fun sorted (name, value) => insertMember name value sorted) sorted).lookup key =
      (members.reverse.lookup key).or (sorted.lookup key) := by
  induction members generalizing sorted with
  | nil => rfl
  | cons member rest ih =>
    obtain ⟨name, value⟩ := member
    rw [List.foldl_cons, ih, lookup_insertMember, List.reverse_cons, List.lookup_append, Table.lookup_cons]
    cases rest.reverse.lookup key with
    | some _ => rfl
    | none => by_cases here : key = name <;> simp [here]

-- Of a repeated name the last member is found.
theorem lookup_sortMembers (members : List (String × α)) (key : String) :
    (sortMembers members).lookup key = members.reverse.lookup key := by
  rw [sortMembers, lookup_insertAll]
  simp

theorem lookup_reverse (distinct : (Table.keys members).Nodup) (key : String) :
    members.reverse.lookup key = members.lookup key := by
  have distinct' : (Table.keys members.reverse).Nodup := by
    rw [Table.keys, List.map_reverse]
    exact List.nodup_reverse.mpr distinct
  cases found : members.lookup key with
  | some value =>
    exact Table.lookup_of_mem distinct' (List.mem_reverse.mpr (Table.mem_of_lookup found))
  | none =>
    have absent := Table.lookup_eq_none.mp found
    refine Table.lookup_eq_none.mpr fun present => absent ?_
    rw [Table.keys, List.map_reverse] at present
    exact List.mem_reverse.mp present

theorem lookup_map (f : α → β) (members : List (String × α)) (key : String) :
    (members.map fun m => (m.1, f m.2)).lookup key = (members.lookup key).map f := by
  induction members with
  | nil => rfl
  | cons member rest ih =>
    rw [List.map_cons, Table.lookup_cons, Table.lookup_cons, ih]
    split <;> rfl

theorem insertMember_map (f : α → β) (name : String) (value : α) (members : List (String × α)) :
    insertMember name (f value) (members.map fun m => (m.1, f m.2)) =
      (insertMember name value members).map fun m => (m.1, f m.2) := by
  induction members with
  | nil => rfl
  | cons member rest ih =>
    obtain ⟨head, old⟩ := member
    simp only [List.map_cons, insertMember]
    split
    · rfl
    · split
      · rfl
      · rw [ih]
        rfl

-- Sorting looks at the names alone.
theorem sortMembers_map (f : α → β) (members : List (String × α)) :
    sortMembers (members.map fun m => (m.1, f m.2)) = (sortMembers members).map fun m => (m.1, f m.2) := by
  have from' : ∀ sorted : List (String × α),
      (members.map fun m => (m.1, f m.2)).foldl (fun sorted (name, value) => insertMember name value sorted)
        (sorted.map fun m => (m.1, f m.2)) =
      (members.foldl (fun sorted (name, value) => insertMember name value sorted) sorted).map fun m => (m.1, f m.2) := by
    induction members with
    | nil => exact fun _ => rfl
    | cons member rest ih =>
      intro sorted
      obtain ⟨name, value⟩ := member
      simp only [List.map_cons, List.foldl_cons]
      rw [insertMember_map f name value sorted, ih]
  exact from' []

def InOrder (members : List (String × α)) : Prop := members.Pairwise fun one two => one.1 < two.1

theorem mem_insertMember {m : String × α} (present : m ∈ insertMember name value members) :
    m = (name, value) ∨ m ∈ members := by
  induction members with
  | nil =>
    rw [List.mem_singleton.mp present]
    exact .inl rfl
  | cons member rest ih =>
    obtain ⟨head, old⟩ := member
    unfold insertMember at present
    split at present
    · rcases List.mem_cons.mp present with rfl | later
      · exact .inl rfl
      · exact .inr later
    · split at present
      · rcases List.mem_cons.mp present with rfl | later
        · exact .inl rfl
        · exact .inr (List.mem_cons_of_mem _ later)
      · rcases List.mem_cons.mp present with rfl | later
        · exact .inr List.mem_cons_self
        · rcases ih later with same | later
          · exact .inl same
          · exact .inr (List.mem_cons_of_mem _ later)

theorem inOrder_cons {m : String × α} : InOrder (m :: members) ↔ (∀ later ∈ members, m.1 < later.1) ∧ InOrder members :=
  List.pairwise_cons

theorem insertMember_inOrder (name : String) (value : α) (ordered : InOrder members) :
    InOrder (insertMember name value members) := by
  induction members with
  | nil => exact List.pairwise_singleton ..
  | cons member rest ih =>
    obtain ⟨head, old⟩ := member
    obtain ⟨below, others⟩ := inOrder_cons.mp ordered
    unfold insertMember
    split
    · rename_i first
      refine inOrder_cons.mpr ⟨fun m present => ?_, inOrder_cons.mpr ⟨below, others⟩⟩
      rcases List.mem_cons.mp present with rfl | later
      · exact first
      · exact String.lt_trans first (below m later)
    · split
      · rename_i same
        subst same
        exact inOrder_cons.mpr ⟨below, others⟩
      · rename_i notFirst other
        refine inOrder_cons.mpr ⟨fun m present => ?_, ih others⟩
        rcases mem_insertMember present with rfl | later
        · exact lt_of_le_of_ne (not_lt.mp notFirst) (Ne.symm other)
        · exact below m later

theorem sortMembers_inOrder (members : List (String × α)) : InOrder (sortMembers members) := by
  have from' : ∀ sorted : List (String × α), InOrder sorted →
      InOrder (members.foldl (fun sorted (name, value) => insertMember name value sorted) sorted) := by
    induction members with
    | nil => exact fun _ ordered => ordered
    | cons member rest ih => exact fun sorted ordered => ih _ (insertMember_inOrder _ _ ordered)
  exact from' [] List.Pairwise.nil

theorem insertMember_last (above : ∀ m ∈ members, m.1 < name) :
    insertMember name value members = members ++ [(name, value)] := by
  induction members with
  | nil => rfl
  | cons member rest ih =>
    obtain ⟨head, old⟩ := member
    have first : head < name := above _ List.mem_cons_self
    rw [insertMember, if_neg (lt_asymm first), if_neg (ne_of_gt first),
      ih fun m later => above m (List.mem_cons_of_mem _ later)]
    rfl

-- What is in order stays as it is.
theorem sortMembers_of_inOrder (ordered : InOrder members) : sortMembers members = members := by
  have from' : ∀ sorted : List (String × α), InOrder (sorted ++ members) →
      members.foldl (fun sorted (name, value) => insertMember name value sorted) sorted = sorted ++ members := by
    clear ordered
    induction members with
    | nil => simp
    | cons member rest ih =>
      intro sorted ordered
      obtain ⟨name, value⟩ := member
      have above : ∀ m ∈ sorted, m.1 < name :=
        fun m present => (List.pairwise_append.mp ordered).2.2 m present _ List.mem_cons_self
      have split' : sorted ++ (name, value) :: rest = (sorted ++ [(name, value)]) ++ rest := by simp
      rw [split'] at ordered ⊢
      rw [List.foldl_cons, ← ih _ ordered, ← insertMember_last above]
  exact from' [] ordered

theorem sortMembers_sortMembers (members : List (String × α)) : sortMembers (sortMembers members) = sortMembers members :=
  sortMembers_of_inOrder (sortMembers_inOrder members)

theorem insertMember_perm (value : α) (absent : name ∉ Table.keys members) :
    (insertMember name value members).Perm ((name, value) :: members) := by
  induction members with
  | nil => exact .rfl
  | cons member rest ih =>
    obtain ⟨head, old⟩ := member
    rw [Table.keys, List.map_cons, List.mem_cons, not_or] at absent
    unfold insertMember
    split
    · exact .rfl
    · rw [if_neg absent.1]
      exact ((ih absent.2).cons _).trans (.swap ..)

-- Members under distinct names are all there.
theorem sortMembers_perm (distinct : (Table.keys members).Nodup) : (sortMembers members).Perm members := by
  have from' : ∀ sorted : List (String × α), (Table.keys (sorted ++ members)).Nodup →
      (members.foldl (fun sorted (name, value) => insertMember name value sorted) sorted).Perm (sorted ++ members) := by
    clear distinct
    induction members with
    | nil => simp
    | cons member rest ih =>
      intro sorted distinct
      obtain ⟨name, value⟩ := member
      have moved : (sorted ++ (name, value) :: rest).Perm ((name, value) :: (sorted ++ rest)) := List.perm_middle
      have distinct' := (moved.map Prod.fst).nodup_iff.mp distinct
      have absent : name ∉ Table.keys sorted := fun present =>
        (List.nodup_cons.mp distinct').1 (by simp only [List.map_append, List.mem_append]; exact .inl present)
      have first := (insertMember_perm value absent).append_right rest
      exact (ih _ ((first.map Prod.fst).nodup_iff.mpr distinct')).trans (first.trans moved.symm)
  exact from' [] distinct

end DuplexRpc.Json
