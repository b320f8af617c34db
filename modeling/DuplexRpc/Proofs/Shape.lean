import DuplexRpc.Shape.Matching

namespace DuplexRpc.Shape
open Payload (itemsToJson fieldsToJson)

theorem plainIf_ok {matching : Bool} {shape : Shape} {v : Json} {p : Payload} :
    plainIf matching shape v = .ok p ↔ matching = true ∧ p = .json v := by
  cases matching <;> simp [plainIf, eq_comm]

theorem map_ok {α β ε : Type} {f : α → β} {x : Except ε α} {b : β} (mapped : x.map f = .ok b) :
    ∃ a, x = .ok a ∧ b = f a := by
  cases x with
  | error _ => cases mapped
  | ok a => exact ⟨a, rfl, (Except.ok.inj mapped).symm⟩

theorem map_eq_ok {α β ε : Type} {f : α → β} {x : Except ε α} {b : β} :
    x.map f = .ok b ↔ ∃ a, x = .ok a ∧ b = f a :=
  ⟨map_ok, by rintro ⟨a, rfl, rfl⟩; rfl⟩

section Collecting
variable {decode : Json → Except Misshape Payload} {decodeMember : String → Json → Except Misshape Payload}

theorem collectItems_cons {n : Nat} {v : Json} {rest : List Json} {ps : List Payload}
    (collected : collectItems decode n (v :: rest) = .ok ps) :
    ∃ p more, decode v = .ok p ∧ collectItems decode (n + 1) rest = .ok more ∧ ps = p :: more := by
  unfold collectItems at collected
  split at collected
  · cases collected
  · rename_i p first
    split at collected
    · cases collected
    · rename_i more later
      exact ⟨p, more, first, later, (Except.ok.inj collected).symm⟩

theorem collectMembers_cons {name : String} {v : Json} {rest : List (String × Json)} {ps : List (String × Payload)}
    (collected : collectMembers decodeMember ((name, v) :: rest) = .ok ps) :
    ∃ p more, decodeMember name v = .ok p ∧ collectMembers decodeMember rest = .ok more ∧ ps = (name, p) :: more := by
  unfold collectMembers at collected
  split at collected
  · cases collected
  · rename_i p first
    split at collected
    · cases collected
    · rename_i more later
      exact ⟨p, more, first, later, (Except.ok.inj collected).symm⟩

theorem collectItems_toJson (keeps : ∀ v p, decode v = .ok p → p.toJson = v) {n : Nat} {items : List Json}
    {ps : List Payload} (collected : collectItems decode n items = .ok ps) : itemsToJson ps = items := by
  induction items generalizing n ps with
  | nil =>
    cases collected
    rfl
  | cons v rest ih =>
    obtain ⟨p, more, first, later, rfl⟩ := collectItems_cons collected
    rw [itemsToJson, keeps v p first, ih later]

theorem collectMembers_toJson (keeps : ∀ name v p, decodeMember name v = .ok p → p.toJson = v)
    {members : List (String × Json)} {ps : List (String × Payload)}
    (collected : collectMembers decodeMember members = .ok ps) : fieldsToJson ps = members := by
  induction members generalizing ps with
  | nil =>
    cases collected
    rfl
  | cons member rest ih =>
    obtain ⟨name, v⟩ := member
    obtain ⟨p, more, first, later, rfl⟩ := collectMembers_cons collected
    rw [fieldsToJson, keeps name v p first, ih later]

theorem collectItems_ok_iff (decode : Json → Except Misshape Payload) (n : Nat) (items : List Json) :
    (∃ ps, collectItems decode n items = .ok ps) ↔ ∀ v ∈ items, ∃ p, decode v = .ok p := by
  induction items generalizing n with
  | nil => simp [collectItems]
  | cons v rest ih =>
    constructor
    · rintro ⟨ps, collected⟩
      obtain ⟨p, more, first, later, _⟩ := collectItems_cons collected
      exact List.forall_mem_cons.mpr ⟨⟨p, first⟩, (ih (n + 1)).mp ⟨more, later⟩⟩
    · intro each
      obtain ⟨⟨p, first⟩, others⟩ := List.forall_mem_cons.mp each
      obtain ⟨more, later⟩ := (ih (n + 1)).mpr others
      exact ⟨p :: more, by simp [collectItems, first, later]⟩

theorem collectMembers_ok_iff (decodeMember : String → Json → Except Misshape Payload) (members : List (String × Json)) :
    (∃ ps, collectMembers decodeMember members = .ok ps) ↔ ∀ m ∈ members, ∃ p, decodeMember m.1 m.2 = .ok p := by
  induction members with
  | nil => simp [collectMembers]
  | cons member rest ih =>
    obtain ⟨name, v⟩ := member
    constructor
    · rintro ⟨ps, collected⟩
      obtain ⟨p, more, first, later, _⟩ := collectMembers_cons collected
      exact List.forall_mem_cons.mpr ⟨⟨p, first⟩, ih.mp ⟨more, later⟩⟩
    · intro each
      obtain ⟨⟨p, first⟩, others⟩ := List.forall_mem_cons.mp each
      obtain ⟨more, later⟩ := ih.mpr others
      exact ⟨(name, p) :: more, by simp [collectMembers, first, later]⟩

end Collecting

theorem missingField?_none {fields : List (Field Shape)} {members : List (String × Json)} :
    missingField? fields members = none ↔ ∀ name ∈ requiredNames fields, (members.lookup name).isSome := by
  simp [missingField?]

mutual

-- Decoding adds structure and leaves the value as it was.
theorem decode_toJson : ∀ (s : Shape) (v : Json) (p : Payload), decode s v = .ok p → p.toJson = v
  | .any, v, p, read => by
    cases read
    rfl
  | .null, v, p, read | .bool, v, p, read | .number, v, p, read | .integer, v, p, read | .string, v, p, read => by
    rw [decode, plainIf_ok] at read
    rw [read.2]
    rfl
  | .array items, v, p, read => by
    unfold decode at read
    split at read
    · rename_i elements
      obtain ⟨ps, collected, rfl⟩ := map_ok read
      rw [Payload.toJson, collectItems_toJson (fun e p => decode_toJson items e p) collected]
    · cases read
  | .object fields, v, p, read => by
    unfold decode at read
    split at read
    · rename_i members
      split at read
      · cases read
      · obtain ⟨ps, collected, rfl⟩ := map_ok read
        rw [Payload.toJson, collectMembers_toJson (fun name e p => decodeMember_toJson fields name e p) collected]
    · cases read
  | .either left right, v, p, read => by
    unfold decode at read
    split at read
    · rename_i q first
      cases read
      exact decode_toJson left v q first
    · split at read
      · rename_i q second
        cases read
        exact decode_toJson right v q second
      · cases read

theorem decodeMember_toJson : ∀ (fields : List (Field Shape)) (name : String) (v : Json) (p : Payload),
    decodeMember fields name v = .ok p → p.toJson = v
  | [], _, v, p, read => by
    cases read
    rfl
  | ⟨declared, shape, presence⟩ :: rest, name, v, p, read => by
    unfold decodeMember at read
    split at read
    · split at read
      · cases read
        rfl
      · exact decode_toJson shape v p read
    · exact decodeMember_toJson rest name v p read

end

mutual

-- What decodes is what matches.
theorem decode_ok_iff : ∀ (s : Shape) (v : Json), (∃ p, decode s v = .ok p) ↔ Matches s v
  | .any, v => by simp [decode, Matches]
  | .null, v => by cases v <;> simp [decode, plainIf_ok, Matches, Json.kind]
  | .bool, v => by cases v <;> simp [decode, plainIf_ok, Matches, Json.kind]
  | .number, v => by cases v <;> simp [decode, plainIf_ok, Matches, Json.isNumber]
  | .integer, v => by
    cases v with
    | number n =>
      cases n with
      | integer n range => simpa [decode, plainIf_ok, Matches, Json.isInteger, Json.Number.isInteger] using range
      | _ => simp [decode, plainIf_ok, Matches, Json.isInteger, Json.Number.isInteger]
    | _ => simp [decode, plainIf_ok, Matches, Json.isInteger]
  | .string, v => by cases v <;> simp [decode, plainIf_ok, Matches, Json.kind]
  | .array items, v => by
    cases v with
    | array elements =>
      have each := collectItems_ok_iff (fun e => decode items e) 0 elements
      simp only [decode_ok_iff items] at each
      simp only [decode, Matches, Json.array.injEq, exists_eq_left', ← each]
      constructor
      · rintro ⟨p, read⟩
        obtain ⟨ps, collected, _⟩ := map_ok read
        exact ⟨ps, collected⟩
      · rintro ⟨ps, collected⟩
        exact ⟨.list ps, by rw [collected]; rfl⟩
    | _ => simp [decode, Matches]
  | .object fields, v => by
    cases v with
    | object members =>
      have each := collectMembers_ok_iff (fun name e => decodeMember fields name e) members
      simp only [decodeMember_ok_iff fields] at each
      simp only [decode, Matches, Json.object.injEq, exists_eq_left', ← missingField?_none, ← each]
      cases missingField? fields members with
      | some name => simp
      | none =>
        constructor
        · rintro ⟨p, read⟩
          obtain ⟨ps, collected, _⟩ := map_ok read
          exact ⟨rfl, ps, collected⟩
        · rintro ⟨_, ps, collected⟩
          exact ⟨.record ps, by dsimp only; rw [collected]; rfl⟩
    | _ => simp [decode, Matches]
  | .either left right, v => by
    have one := decode_ok_iff left v
    have two := decode_ok_iff right v
    rw [Matches, ← one, ← two, decode]
    cases decode left v with
    | ok p => simp
    | error _ => cases decode right v <;> simp

theorem decodeMember_ok_iff : ∀ (fields : List (Field Shape)) (name : String) (v : Json),
    (∃ p, decodeMember fields name v = .ok p) ↔ MemberMatches fields name v
  | [], _, v => by simp [decodeMember, MemberMatches]
  | ⟨declared, shape, presence⟩ :: rest, name, v => by
    have here := decode_ok_iff shape v
    have later := decodeMember_ok_iff rest name v
    rw [decodeMember, MemberMatches]
    split
    · split
      · rename_i absent
        simp [absent]
      · rename_i present
        rw [here]
        simp [present]
    · exact later

end

end DuplexRpc.Shape
