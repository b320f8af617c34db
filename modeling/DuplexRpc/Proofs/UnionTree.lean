import DuplexRpc.Proofs.Payload
import DuplexRpc.Proofs.Shape.Resolution

namespace DuplexRpc

-- An alternative of a union: a shape and a type that is read exactly from the values that match
-- it, neither a union itself.
structure Alternative (α : Type) where
  shape : Shape
  codec : Codec α
  noUnion : ∀ left right, shape ≠ .either left right
  noSides : ∀ a, codec.sides a = []
  accepts : ∀ v, (∃ a, codec.read v = .ok a) ↔ shape.Matches v

def Alternative.bool : Alternative Bool where
  shape := .bool
  codec := .bool
  noUnion := by rintro _ _ ⟨⟩
  noSides _ := rfl
  accepts v := by cases v <;> simp [Codec.bool, Shape.Matches]

def Alternative.string : Alternative String where
  shape := .string
  codec := .string
  noUnion := by rintro _ _ ⟨⟩
  noSides _ := rfl
  accepts v := by cases v <;> simp [Codec.string, Shape.Matches]

-- A union of types, nested in any way, together with the union of shapes that is nested alike.
inductive UnionTree : Type → Type 1
  | leaf {α : Type} (alternative : Alternative α) : UnionTree α
  | either {α β : Type} (left : UnionTree α) (right : UnionTree β) : UnionTree (α ⊕ β)

namespace Codec
variable {α β : Type} {c : Codec α} {d : Codec β} {v : Json} {a : α} {b : β}

theorem either_read_left : (either c d).read v = .ok (.inl a) ↔ c.read v = .ok a := by
  cases left : c.read v with
  | ok a => simp [either, left]
  | error _ => cases right : d.read v <;> simp [either, left, right]

theorem either_read_right : (either c d).read v = .ok (.inr b) ↔ (¬ ∃ a, c.read v = .ok a) ∧ d.read v = .ok b := by
  cases left : c.read v with
  | ok a => simp [either, left]
  | error _ => cases right : d.read v <;> simp [either, left, right]

theorem either_accepts :
    (∃ u, (either c d).read v = .ok u) ↔ (∃ a, c.read v = .ok a) ∨ ∃ b, d.read v = .ok b := by
  cases left : c.read v with
  | ok a => simp [either, left]
  | error _ => cases right : d.read v <;> simp [either, left, right]

-- The structure of a payload plays no part in what it is read as.
theorem ofPayload_eq (c : Codec α) (p : Payload) : c.ofPayload p = c.read p.toJson := by
  rw [ofPayload, Payload.intoJson_eq]

end Codec

theorem Shape.decode_sides {s : Shape} {v : Json} {p : Payload} (noUnion : ∀ left right, s ≠ .either left right)
    (decoded : s.decode v = .ok p) : p.sides = [] := by
  rw [decode_eq_ok] at decoded
  cases s with
  | either left right => exact absurd rfl (noUnion left right)
  | array items =>
    obtain ⟨_, _, _, _, rfl⟩ := decoded
    rfl
  | object fields =>
    obtain ⟨_, _, _, _, _, rfl⟩ := decoded
    rfl
  | _ =>
    obtain ⟨_, rfl⟩ := decoded
    rfl

namespace UnionTree
variable {α : Type} {v : Json} {p : Payload}

def shape : {α : Type} → UnionTree α → Shape
  | _, .leaf alternative => alternative.shape
  | _, .either left right => .either left.shape right.shape

def codec : {α : Type} → UnionTree α → Codec α
  | _, .leaf alternative => alternative.codec
  | _, .either left right => .either left.codec right.codec

-- Which values the alternatives accept, from left to right.
def alternatives : {α : Type} → UnionTree α → List (Json → Prop)
  | _, .leaf alternative => [fun v => ∃ a, alternative.codec.read v = .ok a]
  | _, .either left right => left.alternatives ++ right.alternatives

-- Where among them the alternative of a value stands.
def place : {α : Type} → UnionTree α → α → Nat
  | _, .leaf _, _ => 0
  | _, .either left _, .inl a => left.place a
  | _, .either left right, .inr b => left.alternatives.length + right.place b

-- Each alternative reads back what it writes.
def ReadsBack : {α : Type} → UnionTree α → Prop
  | α, .leaf alternative => ∀ a : α, alternative.codec.read (alternative.codec.write a).sorted = .ok a
  | _, .either left right => left.ReadsBack ∧ right.ReadsBack

-- The alternative of a value, by itself, reads it from some JSON.
def Owns : {α : Type} → UnionTree α → α → Json → Prop
  | _, .leaf alternative, a, v => alternative.codec.read v = .ok a
  | _, .either left _, .inl a, v => left.Owns a v
  | _, .either _ right, .inr b, v => right.Owns b v

theorem place_lt (u : UnionTree α) (a : α) : u.place a < u.alternatives.length := by
  induction u with
  | leaf alternative => exact Nat.one_pos
  | either left right ihl ihr =>
    rw [alternatives, List.length_append]
    cases a with
    | inl a => exact Nat.lt_add_right _ (ihl a)
    | inr b => exact Nat.add_lt_add_left (ihr b) _

-- A union accepts what its shape matches, and what one of its alternatives accepts.
theorem accepts_iff (u : UnionTree α) (v : Json) : (∃ a, u.codec.read v = .ok a) ↔ u.shape.Matches v := by
  induction u with
  | leaf alternative => exact alternative.accepts v
  | either left right ihl ihr => rw [codec, shape, Codec.either_accepts, Shape.Matches, ihl, ihr]

theorem accepts_alternatives (u : UnionTree α) (v : Json) :
    (∃ a, u.codec.read v = .ok a) ↔ ∃ accepts ∈ u.alternatives, accepts v := by
  induction u with
  | leaf alternative => simp [codec, alternatives]
  | either left right ihl ihr =>
    rw [codec, alternatives, Codec.either_accepts, ihl, ihr]
    simp only [List.mem_append, or_and_right, exists_or]

-- Shapes and types take the same side at every union.
theorem sides_eq (u : UnionTree α) (a : α) (decoded : u.shape.decode v = .ok p) (read : u.codec.read v = .ok a) :
    p.sides = u.codec.sides a := by
  induction u generalizing p with
  | leaf alternative =>
    rw [codec, alternative.noSides, Shape.decode_sides alternative.noUnion decoded]
  | either left right ihl ihr =>
    rw [shape, Shape.decode_either, ← accepts_iff] at decoded
    cases a with
    | inl a =>
      have here : left.codec.read v = .ok a := Codec.either_read_left.mp read
      obtain ⟨_, q, inner, rfl⟩ | ⟨other, _⟩ := decoded
      · exact congrArg _ (ihl a inner here)
      · exact absurd ⟨a, here⟩ other
    | inr b =>
      obtain ⟨other, here⟩ := Codec.either_read_right.mp read
      obtain ⟨accepted, _⟩ | ⟨_, q, inner, rfl⟩ := decoded
      · exact absurd accepted other
      · exact congrArg _ (ihr b inner here)

-- A value is read where its own alternative reads it and none to the left accepts.
theorem read_iff (u : UnionTree α) (a : α) (owns : u.Owns a v) :
    u.codec.read v = .ok a ↔ ∀ accepts ∈ u.alternatives.take (u.place a), ¬ accepts v := by
  induction u with
  | leaf alternative => exact iff_of_true owns (by simp [place])
  | either left right ihl ihr =>
    cases a with
    | inl a =>
      have inside : left.place a ≤ left.alternatives.length := Nat.le_of_lt (left.place_lt a)
      rw [codec, Codec.either_read_left, ihl a owns, alternatives, place, List.take_append_of_le_length inside]
    | inr b =>
      have behind : (left.alternatives ++ right.alternatives).take (left.alternatives.length + right.place b) =
          left.alternatives ++ right.alternatives.take (right.place b) := by
        rw [List.take_append, List.take_of_length_le (Nat.le_add_right ..), Nat.add_sub_cancel_left]
      rw [codec, Codec.either_read_right, ihr b owns, accepts_alternatives, alternatives, place, behind]
      simp only [List.forall_mem_append, not_exists, not_and]

theorem owns_written (u : UnionTree α) (back : u.ReadsBack) (a : α) : u.Owns a (u.codec.write a).sorted := by
  induction u with
  | leaf alternative => exact back a
  | either left right ihl ihr =>
    cases a with
    | inl a => exact ihl back.1 a
    | inr b => exact ihr back.2 b

-- A union of shapes and the union of types that is nested alike accept the same values, and take
-- the same sides for them, be the type read from the value or from what the shape made of it. A
-- written value, which tells no sides, is read back as itself exactly when no alternative to the
-- left of its own accepts it.
theorem shapes_and_types_resolve_alike (u : UnionTree α) :
    (∀ (name : String) (v : Json),
      ((∃ p, u.shape.decodeNamed name v = .ok p) ↔ ∃ a, u.codec.read v = .ok a) ∧
      ∀ p, u.shape.decodeNamed name v = .ok p →
        ∃ a, u.codec.read v = .ok a ∧ u.codec.ofPayload p = .ok a ∧ p.sides = u.codec.sides a) ∧
    (u.ReadsBack → ∀ a, u.codec.read (u.codec.write a).sorted = .ok a ↔
      ∀ accepts ∈ u.alternatives.take (u.place a), ¬ accepts (u.codec.write a).sorted) := by
  refine ⟨fun name v => ?_, fun back a => u.read_iff a (u.owns_written back a)⟩
  simp only [Shape.decodeNamed_eq_ok]
  have same : (∃ p, u.shape.decode v = .ok p) ↔ ∃ a, u.codec.read v = .ok a :=
    (Shape.decode_ok_iff u.shape v).trans (u.accepts_iff v).symm
  refine ⟨same, fun p decoded => ?_⟩
  obtain ⟨a, read⟩ := same.mp ⟨p, decoded⟩
  refine ⟨a, read, ?_, u.sides_eq a decoded read⟩
  rw [Codec.ofPayload_eq, Shape.decode_toJson _ _ _ decoded, read]

-- A string on the right is read back on the left of it, where strings are accepted too.
theorem shapes_and_types_resolve_alike_overlapping :
    let u : UnionTree ((Bool ⊕ String) ⊕ String) := .either (.either (.leaf .bool) (.leaf .string)) (.leaf .string)
    u.ReadsBack ∧ u.shape.decodeNamed "params" (.string "x") = .ok (.left (.right (.json (.string "x")))) ∧
      u.codec.read (.string "x") = .ok (.inl (.inr "x")) ∧ u.codec.sides (.inl (.inr "x")) = [.left, .right] ∧
      u.codec.read (u.codec.write (.inl (.inr "x"))).sorted = .ok (.inl (.inr "x")) ∧
      u.codec.read (u.codec.write (.inr "x")).sorted ≠ .ok (.inr "x") := by
  let u : UnionTree ((Bool ⊕ String) ⊕ String) := .either (.either (.leaf .bool) (.leaf .string)) (.leaf .string)
  have back : u.ReadsBack := ⟨⟨fun _ => rfl, fun _ => rfl⟩, fun _ => rfl⟩
  obtain ⟨resolves, written⟩ := shapes_and_types_resolve_alike u
  have decoded : u.shape.decodeNamed "params" (.string "x") = .ok (.left (.right (.json (.string "x")))) := rfl
  obtain ⟨a, read, _, sides⟩ := (resolves "params" (.string "x")).2 _ decoded
  obtain rfl : a = .inl (.inr "x") := Except.ok.inj read.symm
  refine ⟨back, decoded, read, sides.symm, (written back (.inl (.inr "x"))).mpr ?_, fun same => ?_⟩
  · intro accepts earlier accepted
    obtain rfl := List.mem_singleton.mp earlier
    obtain ⟨_, other⟩ := accepted
    cases other
  · exact (written back (.inr "x")).mp same _ (.tail _ (.head _)) ⟨"x", rfl⟩

end UnionTree
end DuplexRpc
