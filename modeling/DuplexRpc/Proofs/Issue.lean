import Mathlib.Logic.Relation
import DuplexRpc.Issue
import DuplexRpc.Proofs.Json.Ordered

namespace DuplexRpc.Issue

-- What the members of an issue's object tell of it.
inductive Part where
  | text
  | code
  | id
  | cause
  deriving DecidableEq

def part? (name : String) : Option Part :=
  if name = "text" ∨ name = "message" then some .text
  else if name = "code" then some .code
  else if name = "id" then some .id
  else if name = "cause" then some .cause
  else none

-- A member's value for a part, where the cause is told as said.
def Tells (f : Finding) (cause : Option (Json → Prop)) : Part → Json → Prop
  | .text, v => v = .string f.text
  | .code, v => v = .ofInt64 f.code
  | .id, v => ∃ id, f.id = some id ∧ v = id.toJson
  | .cause, v => ∃ told, cause = some told ∧ told v

-- A part that need not be told.
def Implied (f : Finding) (cause : Option (Json → Prop)) : Part → Prop
  | .text => False
  | .code => f.code = 0
  | .id => f.id = none
  | .cause => cause = none

-- Members in any order that tell each part once, and leave out none but those that are implied.
structure Complete (f : Finding) (cause : Option (Json → Prop)) (members : List (String × Json)) : Prop where
  once : (members.map fun m => part? m.1).Nodup
  tells : ∀ m ∈ members, ∃ p, part? m.1 = some p ∧ Tells f cause p m.2
  rest : ∀ p, (∀ m ∈ members, part? m.1 ≠ some p) → Implied f cause p

def InObject (f : Finding) (cause : Option (Json → Prop)) (v : Json) : Prop :=
  ∃ members, v = .object members ∧ Complete f cause members

-- The objects that tell an issue.
def Told : Issue → Json → Prop
  | .root f => InObject f none
  | .causedBy f cause => InObject f (some cause.Told)

-- An object written another way: the text under its other name, or a zero code left out, in the
-- object itself or in a cause.
inductive Rewritten : Json → Json → Prop
  | renamed (front back : List (String × Json)) (v : Json) :
      Rewritten (.object (front ++ ("text", v) :: back)) (.object (front ++ ("message", v) :: back))
  | shortened (front back : List (String × Json)) :
      Rewritten (.object (front ++ ("code", .ofInt64 0) :: back)) (.object (front ++ back))
  | inside (front back : List (String × Json)) {v w : Json} : Rewritten v w →
      Rewritten (.object (front ++ ("cause", v) :: back)) (.object (front ++ ("cause", w) :: back))

-- An issue and, one after another, its causes.
inductive Links : Issue → List Issue → Prop
  | last {i : Issue} : i.cause? = none → Links i [i]
  | next {i cause : Issue} {rest} : i.cause? = some cause → Links cause rest → Links i (i :: rest)

variable {f : Finding} {told : Option (Json → Prop)} {members others : List (String × Json)} {i cause : Issue} {v w : Json}
  {p : Part} {d : Draft} {name : String}

theorem part?_eq_some : part? name = some p ↔ match p with
    | .text => name = "text" ∨ name = "message"
    | .code => name = "code"
    | .id => name = "id"
    | .cause => name = "cause" := by
  unfold part?
  constructor
  · intro found
    repeat' split at found
    all_goals cases found
    all_goals assumption
  · intro named
    cases p with
    | text => rw [if_pos named]
    | code | id | cause => subst named; rfl

theorem Complete.perm (complete : Complete f told members) (order : members.Perm others) : Complete f told others where
  once := (order.map _).nodup_iff.mp complete.once
  tells m present := complete.tells m (order.mem_iff.mpr present)
  rest p untold := complete.rest p fun m present => untold m (order.mem_iff.mp present)

theorem Complete.distinct (complete : Complete f told members) : (Table.keys members).Nodup := by
  have once := complete.once
  have split : members.map (fun m => part? m.1) = (Table.keys members).map part? := by
    rw [Table.keys, List.map_map]
    rfl
  rw [split] at once
  exact once.of_map

-- The part of the draft that is what the issue says.
def Draft.Has (d : Draft) (f : Finding) (cause : Option Issue) : Part → Prop
  | .text => d.text = some f.text
  | .code => d.code = f.code
  | .id => d.id = f.id
  | .cause => d.cause = cause

theorem Draft.eq_of_has {cause : Option Issue} (has : ∀ p, d.Has f cause p) : d = ⟨some f.text, f.code, f.id, cause⟩ := by
  obtain ⟨text, code, id, inner⟩ := d
  obtain rfl : text = some f.text := has .text
  obtain rfl : code = f.code := has .code
  obtain rfl : id = f.id := has .id
  obtain rfl : inner = cause := has .cause
  rfl

theorem read_id (id : RequestId) : (Codec.option RequestId.codec).read id.toJson = .ok (some id) := by
  have read := Json.ofJson?_toJson id
  cases id <;> simp_all [Codec.option, RequestId.codec, RequestId.toJson, Json.ofInt64, Except.map]

-- One member fills its part of the draft and no other.
theorem putMembers_tells {cause : Option Issue} (part : part? name = some p) (tells : Tells f told p v)
    (unset : p = .text → d.text = none)
    (reads : ∀ told', told = some told' → ∃ c, cause = some c ∧ ∀ v, told' v → ofJson v = .ok c)
    (rest : List (String × Json)) :
    ∃ d' : Draft, putMembers d ((name, v) :: rest) = putMembers d' rest ∧ d'.Has f cause p ∧
      (∀ q, q ≠ p → d.Has f cause q → d'.Has f cause q) ∧ (p ≠ .text → d'.text = d.text) := by
  rw [part?_eq_some] at part
  cases p with
  | text =>
    obtain rfl := tells
    refine ⟨{ d with text := some f.text }, ?_, rfl, ?_, fun other => absurd rfl other⟩
    · rcases part with rfl | rfl <;> simp [putMembers, putText, unset rfl, Codec.string, Except.map]
    · intro q other has
      cases q <;> first | exact has | exact absurd rfl other
  | code =>
    obtain rfl := tells
    obtain rfl := part
    refine ⟨{ d with code := f.code }, ?_, rfl, ?_, fun _ => rfl⟩
    · simp [putMembers, putCode, Json.read_ofInt64, Except.map]
    · intro q other has
      cases q <;> first | exact has | exact absurd rfl other
  | id =>
    obtain ⟨id, carried, rfl⟩ := tells
    obtain rfl := part
    refine ⟨{ d with id := some id }, ?_, carried.symm, ?_, fun _ => rfl⟩
    · simp [putMembers, putId, read_id, Except.map]
    · intro q other has
      cases q <;> first | exact has | exact absurd rfl other
  | cause =>
    obtain ⟨told', is, here⟩ := tells
    obtain ⟨c, rfl, reads'⟩ := reads told' is
    obtain rfl := part
    have read := reads' v here
    have some' : v ≠ .null := by
      rintro rfl
      cases read
    refine ⟨{ d with cause := some c }, ?_, rfl, ?_, fun _ => rfl⟩
    · simp [putMembers, read, some', Except.map]
    · intro q other has
      cases q <;> first | exact has | exact absurd rfl other

-- Members that are complete fill the whole draft, whatever their order.
theorem putMembers_complete {cause : Option Issue} (once : (members.map fun m => part? m.1).Nodup)
    (tells : ∀ m ∈ members, ∃ p, part? m.1 = some p ∧ Tells f told p m.2)
    (rest : ∀ p, (∀ m ∈ members, part? m.1 ≠ some p) → d.Has f cause p)
    (unset : (∃ m ∈ members, part? m.1 = some .text) → d.text = none)
    (reads : ∀ told', told = some told' → ∃ c, cause = some c ∧ ∀ v, told' v → ofJson v = .ok c) :
    putMembers d members = .ok ⟨some f.text, f.code, f.id, cause⟩ := by
  induction members generalizing d with
  | nil =>
    rw [putMembers, Draft.eq_of_has fun p => rest p (List.forall_mem_nil _)]
  | cons m members ih =>
    obtain ⟨name, v⟩ := m
    obtain ⟨fresh, once⟩ := List.nodup_cons.mp once
    obtain ⟨⟨p, part, here⟩, later⟩ := List.forall_mem_cons.mp tells
    have other : ∀ m ∈ members, part? m.1 ≠ some p := fun m present same =>
      fresh (List.mem_map.mpr ⟨m, present, same.trans part.symm⟩)
    have unset' : p = .text → d.text = none := by
      rintro rfl
      exact unset ⟨_, List.mem_cons_self, part⟩
    obtain ⟨d', put, has, keeps, text⟩ := putMembers_tells part here unset' reads members
    rw [put]
    refine ih once later (fun q untold => ?_) ?_
    · by_cases same : q = p
      · exact same ▸ has
      · refine keeps q same (rest q (List.forall_mem_cons.mpr ⟨?_, untold⟩))
        exact fun told => same (Option.some.inj (told.symm.trans part))
    · rintro ⟨m, present, is⟩
      have other' : p ≠ .text := by
        rintro rfl
        exact other m present is
      rw [text other']
      exact unset ⟨m, List.mem_cons_of_mem _ present, is⟩

-- Reading an object that tells an issue gives that issue.
theorem Complete.read (complete : Complete f told members) (cause : Option Issue)
    (reads : ∀ told', told = some told' → ∃ c, cause = some c ∧ ∀ v, told' v → ofJson v = .ok c)
    (bare : told = none → cause = none) :
    ofJson (.object members) = .ok (Draft.issue ⟨some f.text, f.code, f.id, cause⟩ f.text) := by
  have put : putMembers {} members = .ok ⟨some f.text, f.code, f.id, cause⟩ := by
    refine putMembers_complete complete.once complete.tells (fun p untold => ?_) (fun _ => rfl) reads
    have implied := complete.rest p untold
    cases p with
    | text => exact implied.elim
    | code => exact Eq.symm implied
    | id => exact Eq.symm implied
    | cause => exact (bare implied).symm
  simp only [ofJson, put]

theorem Told.read (is : i.Told v) : ofJson v = .ok i := by
  induction i generalizing v with
  | root f =>
    obtain ⟨members, rfl, complete⟩ := is
    exact complete.read none (fun _ other => by cases other) fun _ => rfl
  | causedBy f cause ih =>
    obtain ⟨members, rfl, complete⟩ := is
    refine complete.read (some cause) (fun told' same => ?_) fun other => by cases other
    cases same
    exact ⟨cause, rfl, fun v => ih⟩

-- The members that an issue is written with, and its cause if it has one.
theorem complete_written (f : Finding) {causes : List (String × Json)}
    (tells : causes = [] ∧ told = none ∨ ∃ v told', causes = [("cause", v)] ∧ told = some told' ∧ told' v) :
    Complete f told (findingMembers f ++ causes) := by
  obtain ⟨text, code, id⟩ := f
  rcases tells with ⟨rfl, rfl⟩ | ⟨v, told', rfl, rfl, here⟩
  · cases id <;> exact {
      once := by simp [findingMembers, part?]
      tells := by simp [findingMembers, part?, Tells]
      rest := fun p => by cases p <;> simp [findingMembers, part?, Implied] }
  · cases id <;> exact {
      once := by simp [findingMembers, part?]
      tells := by simp [findingMembers, part?, Tells, here]
      rest := fun p => by cases p <;> simp [findingMembers, part?, Implied] }

theorem told_toJson (i : Issue) : i.Told i.toJson := by
  induction i with
  | root f => exact ⟨_, rfl, List.append_nil (findingMembers f) ▸ complete_written f (.inl ⟨rfl, rfl⟩)⟩
  | causedBy f cause ih => exact ⟨_, rfl, complete_written f (.inr ⟨_, _, rfl, rfl, ih⟩)⟩

variable {front back : List (String × Json)} {name' : String}

-- A member gives way to another one for the same part.
theorem Complete.replace (complete : Complete f told (front ++ (name, v) :: back)) (same : part? name' = part? name)
    (tells : ∀ p, part? name = some p → Tells f told p v → Tells f told p w) :
    Complete f told (front ++ (name', w) :: back) where
  once := by
    have once := complete.once
    rwa [List.map_append, List.map_cons, ← same, ← List.map_cons (f := fun m => part? m.1) (a := (name', w)),
      ← List.map_append] at once
  tells := by
    obtain ⟨first, here⟩ := List.forall_mem_append.mp complete.tells
    obtain ⟨⟨p, part, here⟩, last⟩ := List.forall_mem_cons.mp here
    exact List.forall_mem_append.mpr ⟨first, List.forall_mem_cons.mpr ⟨⟨p, same.trans part, tells p part here⟩, last⟩⟩
  rest p untold := by
    obtain ⟨first, here⟩ := List.forall_mem_append.mp untold
    obtain ⟨other, last⟩ := List.forall_mem_cons.mp here
    exact complete.rest p (List.forall_mem_append.mpr ⟨first, List.forall_mem_cons.mpr ⟨same ▸ other, last⟩⟩)

theorem Complete.without (complete : Complete f told (front ++ ("code", .ofInt64 0) :: back)) :
    Complete f told (front ++ back) where
  once := ((List.sublist_cons_self ..).append_left front |>.map _).nodup complete.once
  tells m present := complete.tells m (((List.sublist_cons_self ..).append_left front).subset present)
  rest p untold := by
    obtain ⟨first, last⟩ := List.forall_mem_append.mp untold
    by_cases code : p = .code
    · subst code
      obtain ⟨q, part, tells⟩ := complete.tells ("code", .ofInt64 0) (by simp)
      cases part
      have same := congrArg Codec.int64.read tells
      rw [Json.read_ofInt64, Json.read_ofInt64] at same
      exact (Except.ok.inj same).symm
    · refine complete.rest p (List.forall_mem_append.mpr ⟨first, List.forall_mem_cons.mpr ⟨?_, last⟩⟩)
      exact fun part => code (Option.some.inj part).symm

theorem Complete.map (complete : Complete f told members) (change : Json → Json)
    (tells : ∀ p v, Tells f told p v → Tells f told p (change v)) :
    Complete f told (members.map fun m => (m.1, change m.2)) where
  once := by
    rw [List.map_map]
    exact complete.once
  tells := by
    intro m present
    obtain ⟨m, present', rfl⟩ := List.mem_map.mp present
    obtain ⟨p, part, here⟩ := complete.tells m present'
    exact ⟨p, part, tells p _ here⟩
  rest p untold := complete.rest p fun m present =>
    untold (m.1, change m.2) (List.mem_map.mpr ⟨m, present, rfl⟩)

theorem Told.rewritten (is : i.Told v) (step : Rewritten v w) : i.Told w := by
  induction step generalizing i with
  | renamed =>
    cases i <;>
    · obtain ⟨_, same, complete⟩ := is
      cases same
      exact ⟨_, rfl, complete.replace rfl fun _ _ tells => tells⟩
  | shortened =>
    cases i <;>
    · obtain ⟨_, same, complete⟩ := is
      cases same
      exact ⟨_, rfl, complete.without⟩
  | inside _ _ _ ih =>
    cases i with
    | root f =>
      obtain ⟨_, same, complete⟩ := is
      cases same
      refine ⟨_, rfl, complete.replace rfl fun p part tells => ?_⟩
      cases part
      obtain ⟨_, other, _⟩ := tells
      cases other
    | causedBy f cause =>
      obtain ⟨_, same, complete⟩ := is
      cases same
      refine ⟨_, rfl, complete.replace rfl fun p part tells => ?_⟩
      cases part
      obtain ⟨_, same, here⟩ := tells
      cases same
      exact ⟨_, rfl, ih here⟩

-- The order of the names is one of the orders.
theorem InObject.sorted (object : InObject f told v) (causes : ∀ told', told = some told' → ∀ v, told' v → told' v.sorted) :
    InObject f told v.sorted := by
  obtain ⟨members, rfl, complete⟩ := object
  have complete' := complete.map Json.sorted fun p v tells => by
    cases p with
    | text | code =>
      obtain rfl := tells
      rfl
    | id =>
      obtain ⟨id, carried, rfl⟩ := tells
      refine ⟨id, carried, ?_⟩
      cases id <;> rfl
    | cause =>
      obtain ⟨told', is, here⟩ := tells
      exact ⟨told', is, causes told' is v here⟩
  rw [← Json.sortedMembers_eq] at complete'
  exact ⟨_, rfl, complete'.perm (Json.sortMembers_perm complete'.distinct).symm⟩

theorem Told.sorted (is : i.Told v) : i.Told v.sorted := by
  induction i generalizing v with
  | root f => exact InObject.sorted is fun _ other => by cases other
  | causedBy f cause ih =>
    refine InObject.sorted is fun told' same v here => ?_
    cases same
    exact ih here

def links : Issue → List Issue
  | .root f => [.root f]
  | .causedBy f cause => .causedBy f cause :: cause.links

theorem links_iff {others : List Issue} : Links i others ↔ others = i.links := by
  constructor
  · intro links
    induction links with
    | @last i ends =>
      cases i with
      | root f => rfl
      | causedBy f cause => cases ends
    | @next i cause rest has _ ih =>
      cases i with
      | root f => cases has
      | causedBy f cause =>
        cases has
        rw [ih]
        rfl
  · rintro rfl
    induction i with
    | root f => exact .last rfl
    | causedBy f cause ih => exact .next rfl ih

theorem map_links (i : Issue) : i.links.map finding = i.chain := by
  induction i with
  | root f => rfl
  | causedBy f cause ih => exact congrArg (f :: ·) ih

theorem getLast?_links (i : Issue) : i.links.getLast? = some (.root i.rootCause) := by
  induction i with
  | root f => rfl
  | causedBy f cause ih =>
    rw [links, List.getLast?_cons, ih]
    rfl

theorem display_eq (i : Issue) : i.display = ": ".intercalate (i.links.map text) := by
  induction i with
  | root f => exact (String.intercalate_singleton ..).symm
  | causedBy f cause ih =>
    rw [display, ih]
    cases cause <;> exact (String.intercalate_cons_cons ..).symm

-- An issue with all its causes is read back from the object that it is written as, and from that
-- object with any text under its other name and any zero code left out. It shows the texts of its
-- causes from the outermost to the deepest, which is its root cause.
theorem issues_survive_as_json (i : Issue) :
    ofJson i.toJson = .ok i ∧
      (∀ v, Relation.ReflTransGen Rewritten i.toJson v → ofJson v = .ok i ∧ ofJson v.sorted = .ok i) ∧
      ∃ links, (∀ others, Links i others ↔ others = links) ∧ links.map finding = i.chain ∧
        i.display = ": ".intercalate (links.map text) ∧ links.getLast? = some (.root i.rootCause) := by
  have told : ∀ v, Relation.ReflTransGen Rewritten i.toJson v → i.Told v := by
    intro v steps
    induction steps with
    | refl => exact told_toJson i
    | tail _ step is => exact is.rewritten step
  refine ⟨(told_toJson i).read, fun v steps => ⟨(told v steps).read, (told v steps).sorted.read⟩, ?_⟩
  exact ⟨i.links, fun _ => links_iff, map_links i, display_eq i, getLast?_links i⟩

-- Two texts under their other name, one of them in the deepest cause, and a zero code left out.
theorem issues_survive_as_json_renamed :
    let deepest : Issue := .root ⟨"Bar", 0, none⟩
    let i : Issue := .causedBy ⟨"Howdy!", 1234, some (.number 3)⟩ (.causedBy ⟨"Foo", 0, some (.text "3")⟩ deepest)
    let v : Json := .object [("message", .string "Howdy!"), ("code", .ofInt64 1234), ("id", .ofInt64 3),
      ("cause", .object [("text", .string "Foo"), ("id", .string "3"),
        ("cause", .object [("message", .string "Bar"), ("code", .ofInt64 0)])])]
    Relation.ReflTransGen Rewritten i.toJson v ∧ ofJson v = .ok i ∧ ofJson v.sorted = .ok i ∧
      i.display = "Howdy!: Foo: Bar" ∧ i.rootCause = ⟨"Bar", 0, none⟩ := by
  intro deepest i v
  let head : List (String × Json) := [("text", .string "Howdy!"), ("code", .ofInt64 1234), ("id", .ofInt64 3)]
  have deep : Rewritten deepest.toJson (.object [("message", .string "Bar"), ("code", .ofInt64 0)]) :=
    .renamed [] _ _
  have first : Rewritten i.toJson (.object (head ++ [("cause", .object [("text", .string "Foo"), ("id", .string "3"),
      ("cause", deepest.toJson)])])) :=
    .inside head [] (.shortened [("text", .string "Foo")] _)
  have second := Rewritten.inside head [] (.inside [("text", .string "Foo"), ("id", .string "3")] [] deep)
  have third : Rewritten _ v := .renamed [] _ _
  have steps : Relation.ReflTransGen Rewritten i.toJson v := ((Relation.ReflTransGen.single first).tail second).tail third
  obtain ⟨_, reads, _⟩ := issues_survive_as_json i
  exact ⟨steps, (reads v steps).1, (reads v steps).2, rfl, rfl⟩

end DuplexRpc.Issue
