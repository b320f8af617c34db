import DuplexRpc.Proofs.Shape
import Mathlib.Data.List.Forall2

namespace DuplexRpc.Shape

mutual

-- The structure that a shape gives a value, said without decoding: a union takes its left
-- alternative where that matches, and the right one otherwise.
def Resolved : Shape → Json → Payload → Prop
  | .array items, v, p => ∃ elements, v = .array elements ∧
      ∃ ps, List.Forall₂ (fun e q => Resolved items e q) elements ps ∧ p = .list ps
  | .object fields, v, p => ∃ members, v = .object members ∧
      (∀ name ∈ requiredNames fields, (members.lookup name).isSome) ∧
      ∃ ps, List.Forall₂ (fun m q => q.1 = m.1 ∧ MemberResolved fields m.1 m.2 q.2) members ps ∧ p = .record ps
  | .either left right, v, p => (Matches left v ∧ ∃ q, Resolved left v q ∧ p = .left q) ∨
      (¬ Matches left v ∧ ∃ q, Resolved right v q ∧ p = .right q)
  | plain, v, p => Matches plain v ∧ p = .json v

-- The first declaration of a name says what becomes of its member.
def MemberResolved : List (Field Shape) → String → Json → Payload → Prop
  | [], _, v, p => p = .json v
  | ⟨declared, shape, presence⟩ :: rest, name, v, p =>
    if declared = name then
      if v = .null ∧ presence = .optional then p = .json v else Resolved shape v p
    else MemberResolved rest name v p

end

section Collecting
variable {decode : Json → Except Misshape Payload} {decodeMember : String → Json → Except Misshape Payload}

theorem collectItems_eq_ok {n : Nat} {items : List Json} {ps : List Payload} :
    collectItems decode n items = .ok ps ↔ List.Forall₂ (fun v p => decode v = .ok p) items ps := by
  constructor
  · intro collected
    induction items generalizing n ps with
    | nil =>
      cases collected
      exact .nil
    | cons v rest ih =>
      obtain ⟨p, more, first, later, rfl⟩ := collectItems_cons collected
      exact .cons first (ih later)
  · intro each
    induction each generalizing n with
    | nil => rfl
    | cons first _ ih => simp [collectItems, first, ih]

theorem collectMembers_eq_ok {members : List (String × Json)} {ps : List (String × Payload)} :
    collectMembers decodeMember members = .ok ps ↔
      List.Forall₂ (fun m q => q.1 = m.1 ∧ decodeMember m.1 m.2 = .ok q.2) members ps := by
  constructor
  · intro collected
    induction members generalizing ps with
    | nil =>
      cases collected
      exact .nil
    | cons member rest ih =>
      obtain ⟨p, more, first, later, rfl⟩ := collectMembers_cons collected
      exact .cons ⟨rfl, first⟩ (ih later)
  · intro each
    induction each with
    | nil => rfl
    | @cons member q _ _ first _ ih =>
      obtain ⟨name, p⟩ := q
      obtain ⟨rfl, first⟩ := first
      simp [collectMembers, first, ih]

end Collecting

theorem decode_either {left right : Shape} {v : Json} {p : Payload} :
    decode (.either left right) v = .ok p ↔ (Matches left v ∧ ∃ q, decode left v = .ok q ∧ p = .left q) ∨
      (¬ Matches left v ∧ ∃ q, decode right v = .ok q ∧ p = .right q) := by
  rw [decode, ← decode_ok_iff]
  cases decode left v with
  | ok q => simp [eq_comm]
  | error fault => cases decode right v <;> simp [eq_comm]

theorem decode_object {fields : List (Field Shape)} {members : List (String × Json)} {p : Payload} :
    decode (.object fields) (.object members) = .ok p ↔
      (∀ name ∈ requiredNames fields, (members.lookup name).isSome) ∧
      ∃ ps, collectMembers (fun name e => decodeMember fields name e) members = .ok ps ∧ p = .record ps := by
  simp only [decode, ← missingField?_none]
  cases missingField? fields members with
  | some name => simp
  | none => simp [map_eq_ok]

mutual

-- Decoding gives the resolved structure and no other.
theorem decode_eq_ok : ∀ (s : Shape) (v : Json) (p : Payload), decode s v = .ok p ↔ Resolved s v p
  | .any, v, p => by simp [decode, Resolved, Matches, eq_comm]
  | .null, v, p | .bool, v, p | .number, v, p | .integer, v, p | .string, v, p => by
    simp only [Resolved, ← decode_ok_iff, decode, plainIf_ok, exists_and_left, exists_eq, and_true]
  | .array items, v, p => by
    cases v with
    | array elements => simp [decode, Resolved, map_eq_ok, collectItems_eq_ok, decode_eq_ok items]
    | _ => simp [decode, Resolved]
  | .object fields, v, p => by
    cases v with
    | object members =>
      simp only [decode_object, Resolved, collectMembers_eq_ok, decodeMember_eq_ok fields, Json.object.injEq,
        exists_eq_left']
    | _ => simp [decode, Resolved]
  | .either left right, v, p => by
    simp only [decode_either, Resolved, decode_eq_ok left, decode_eq_ok right]

theorem decodeMember_eq_ok : ∀ (fields : List (Field Shape)) (name : String) (v : Json) (p : Payload),
    decodeMember fields name v = .ok p ↔ MemberResolved fields name v p
  | [], _, v, p => by simp [decodeMember, MemberResolved, eq_comm]
  | ⟨declared, shape, presence⟩ :: rest, name, v, p => by
    rw [decodeMember, MemberResolved]
    split
    · split
      · simp [eq_comm]
      · exact decode_eq_ok shape v p
    · exact decodeMember_eq_ok rest name v p

end

-- The name a value goes by plays no part in whether and how it decodes.
theorem decodeNamed_eq_ok {s : Shape} {v : Json} {p : Payload} {name : String} :
    s.decodeNamed name v = .ok p ↔ s.decode v = .ok p := by
  rw [decodeNamed]
  cases s.decode v <;> simp

-- Whatever a value is called, it decodes exactly when it matches, and then to the structure
-- that takes the left alternative of every union wherever that one matches.
theorem decodes_to_the_leftmost_match (s : Shape) (v : Json) (name : String) :
    ((∃ p, s.decodeNamed name v = .ok p) ↔ s.Matches v) ∧
      ∀ p, s.decodeNamed name v = .ok p ↔ s.Resolved v p := by
  constructor
  · rw [← decode_ok_iff]
    simp only [decodeNamed_eq_ok]
  · intro p
    rw [decodeNamed_eq_ok, decode_eq_ok]

end DuplexRpc.Shape
