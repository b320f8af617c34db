import DuplexRpc.Proofs.Json.Exact

namespace DuplexRpc.Json
variable {members : List (String × Json)} {items : List Json} {v : Json} {key : String} {b : UInt8} {taken : Nat}

-- The members of every object in the value are in the order of their names.
def Ordered (v : Json) : Prop := v.sorted = v

theorem sortedItems_eq (items : List Json) : sortedItems items = items.map sorted := by
  induction items with
  | nil => rfl
  | cons v rest ih => rw [sortedItems, ih]; rfl

theorem mem_sortMembers {m : String × Json} (present : m ∈ sortMembers members) : m ∈ members := by
  have from' : ∀ sorted : List (String × Json),
      m ∈ members.foldl (fun sorted (name, value) => insertMember name value sorted) sorted → m ∈ sorted ∨ m ∈ members := by
    clear present
    induction members with
    | nil => exact fun _ here => .inl here
    | cons member rest ih =>
      intro sorted here
      obtain ⟨name, value⟩ := member
      rcases ih _ here with inside | later
      · rcases mem_insertMember inside with rfl | before
        · exact .inr List.mem_cons_self
        · exact .inl before
      · exact .inr (List.mem_cons_of_mem _ later)
  rcases from' [] present with nothing | here
  · cases nothing
  · exact here

theorem ordered_array (each : ∀ v ∈ items, v.Ordered) : (array items).Ordered := by
  rw [Ordered, sorted, sortedItems_eq, List.map_congr_left each, List.map_id']

theorem Ordered.item (ordered : (array items).Ordered) : ∀ v ∈ items, v.Ordered := by
  rw [Ordered, sorted, sortedItems_eq, array.injEq] at ordered
  exact List.map_inj_left.mp (ordered.trans (List.map_id items).symm)

theorem ordered_ofMembers (each : ∀ m ∈ members, m.2.Ordered) : (ofMembers members).Ordered := by
  have same : sortedMembers members = members := by
    rw [sortedMembers_eq]
    refine (List.map_congr_left fun m present => ?_).trans (List.map_id' members)
    exact congrArg (Prod.mk m.1) (each m present)
  rw [Ordered, ofMembers, sorted, sortedMembers_eq, ← sortMembers_map, ← sortedMembers_eq, same, sortMembers_sortMembers]

theorem Ordered.member (ordered : (object members).Ordered) : ∀ m ∈ members, m.2.Ordered := by
  intro m present
  rw [Ordered, sorted, object.injEq] at ordered
  rw [← ordered, sortedMembers_eq] at present
  obtain ⟨before, _, rfl⟩ := List.mem_map.mp (mem_sortMembers present)
  exact sorted_sorted before.2

-- Members under distinct names are found in the ordered object, in order themselves.
theorem lookup_sorted (distinct : (Table.keys members).Nodup) (key : String) :
    (sortMembers (sortedMembers members)).lookup key = (members.lookup key).map sorted := by
  have same : Table.keys (sortedMembers members) = Table.keys members := by
    rw [sortedMembers_eq, Table.keys, List.map_map]
    rfl
  rw [lookup_sortMembers, lookup_reverse (same ▸ distinct), sortedMembers_eq, lookup_map]

namespace Reader
variable {r r' : Reader}

def Enclosure.Ordered : Enclosure → Prop
  | .list items => ∀ v ∈ items, v.Ordered
  | .members done _ => ∀ m ∈ done, m.2.Ordered

def Mode.Ordered : Mode → Prop
  | .nextName done | .name done _ | .colon done _ => ∀ m ∈ done, m.2.Ordered
  | .literal _ v | .after v => v.Ordered
  | _ => True

-- Everything read so far is in order.
structure Ordered (r : Reader) : Prop where
  enclosing : ∀ e ∈ r.enclosing, e.Ordered
  mode : r.mode.Ordered

theorem located_ok {α : Type} {x : Except Cause α} {a : α} (moved : located taken x = .ok a) : x = .ok a := by
  cases x with
  | ok _ => exact congrArg _ (Except.ok.inj moved)
  | error _ => cases moved

theorem beginValue_ordered (ordered : r.Ordered) (moved : r.beginValue b = .ok r') : r'.Ordered := by
  unfold beginValue at moved
  repeat' split at moved
  all_goals cases moved
  all_goals first
    | exact ⟨ordered.enclosing, trivial⟩
    | exact ⟨ordered.enclosing, rfl⟩
    | refine ⟨List.forall_mem_cons.mpr ⟨?_, ordered.enclosing⟩, trivial⟩
      exact List.forall_mem_nil _

theorem afterValue_ordered (ordered : ∀ e ∈ r.enclosing, e.Ordered) (inOrder : v.Ordered)
    (moved : r.afterValue v b = .ok r') : r'.Ordered := by
  obtain ⟨enclosing, mode⟩ := r
  unfold afterValue at moved
  split at moved
  · cases moved
    exact ⟨ordered, inOrder⟩
  · cases enclosing with
    | nil => cases moved
    | cons e outer =>
      obtain ⟨inner, others⟩ := List.forall_mem_cons.mp ordered
      cases e with
      | list items =>
        have items' := List.forall_mem_cons.mpr ⟨inOrder, inner⟩
        dsimp only at moved
        split at moved
        · cases moved
          exact ⟨List.forall_mem_cons.mpr ⟨items', others⟩, trivial⟩
        · split at moved <;> cases moved
          refine ⟨others, ordered_array fun v present => ?_⟩
          exact items' v (List.mem_reverse.mp present)
      | members done name =>
        have done' : ∀ m ∈ (name, v) :: done, m.2.Ordered := List.forall_mem_cons.mpr ⟨inOrder, inner⟩
        dsimp only at moved
        split at moved
        · cases moved
          exact ⟨others, done'⟩
        · split at moved <;> cases moved
          refine ⟨others, ordered_ofMembers fun m present => ?_⟩
          exact done' m (List.mem_reverse.mp present)

theorem advance_ordered (ordered : r.Ordered) (moved : r.advance taken b = .ok r') : r'.Ordered := by
  obtain ⟨enclosing, mode⟩ := r
  obtain ⟨around, here⟩ := ordered
  cases mode with
  | value =>
    simp only [advance] at moved
    split at moved
    · cases moved
      exact ⟨around, here⟩
    · exact beginValue_ordered ⟨around, here⟩ (located_ok moved)
  | firstItem =>
    simp only [advance] at moved
    split at moved
    · cases moved
      exact ⟨around, here⟩
    · split at moved
      · cases moved
        exact ⟨fun e present => around e (List.mem_of_mem_tail present), rfl⟩
      · exact beginValue_ordered ⟨around, here⟩ (located_ok moved)
  | nextItem =>
    simp only [advance] at moved
    split at moved
    · cases moved
      exact ⟨around, here⟩
    · split at moved
      · cases moved
      · exact beginValue_ordered ⟨around, here⟩ (located_ok moved)
  | literal rest v =>
    simp only [advance] at moved
    split at moved
    · exact afterValue_ordered around here (located_ok moved)
    · split at moved <;> cases moved
      exact ⟨around, here⟩
    · split at moved <;> cases moved
      exact ⟨around, here⟩
  | numeral n =>
    simp only [advance] at moved
    split at moved
    · cases moved
      exact ⟨around, here⟩
    · cases moved
    · split at moved
      · rename_i x _
        exact afterValue_ordered (v := .number x) around rfl (located_ok moved)
      · cases moved
  | after v => exact afterValue_ordered around here (located_ok moved)
  | colon done name =>
    simp only [advance] at moved
    repeat' split at moved
    all_goals cases moved
    · exact ⟨around, here⟩
    · exact ⟨List.forall_mem_cons.mpr ⟨here, around⟩, trivial⟩
  | firstName =>
    simp only [advance] at moved
    repeat' split at moved
    all_goals cases moved
    · exact ⟨around, here⟩
    · exact ⟨around, List.forall_mem_nil _⟩
    · exact ⟨around, rfl⟩
  | nextName done | name done s =>
    simp only [advance] at moved
    repeat' split at moved
    all_goals cases moved
    all_goals exact ⟨around, here⟩
  | string s =>
    simp only [advance] at moved
    repeat' split at moved
    all_goals cases moved
    · exact ⟨around, trivial⟩
    · exact ⟨around, rfl⟩

theorem finishValue_ordered (inOrder : v.Ordered) {w : Json} (ended : r.finishValue v = .ok w) : w.Ordered := by
  unfold finishValue at ended
  split at ended <;> cases ended
  exact inOrder

theorem finish_ordered (ordered : r.Ordered) (ended : r.finish = .ok v) : v.Ordered := by
  obtain ⟨enclosing, mode⟩ := r
  cases mode with
  | numeral n =>
    simp only [finish] at ended
    cases finished : n.finish with
    | error cause => simp [finished, Except.bind] at ended
    | ok x =>
      rw [finished] at ended
      exact finishValue_ordered (v := .number x) rfl ended
  | after w => exact finishValue_ordered ordered.mode ended
  | _ => cases ended

theorem run_ordered {bytes : List UInt8} (ordered : r.Ordered) (ended : r.run taken bytes = .ok v) : v.Ordered := by
  induction bytes generalizing r taken with
  | nil => exact finish_ordered ordered (located_ok ended)
  | cons b rest ih =>
    unfold run at ended
    split at ended
    · rename_i next moved
      exact ih (advance_ordered ordered moved) ended
    · cases ended

end Reader

-- Whatever the text, the value read has the members of every object in order.
theorem read_ordered {bytes : List UInt8} (parses : read bytes = .ok v) : v.Ordered := by
  have nothing : Reader.start.Ordered := ⟨List.forall_mem_nil _, trivial⟩
  exact Reader.run_ordered nothing parses

end DuplexRpc.Json
