import DuplexRpc.Json.Writer
import DuplexRpc.Proofs.Framing.Delivery
import DuplexRpc.Proofs.Json.Numerals

namespace DuplexRpc.Framing
variable {contentType : Option String}

def typeLine : Option String → List UInt8
  | some type => headerLine typeName type.toList
  | none => []

def header (contentType : Option String) (length : Nat) : List UInt8 :=
  headerLine lengthName (Nat.toDigits 10 length) ++ typeLine contentType ++ [13, 10]

theorem encode_eq (contentType : Option String) (body : List UInt8) :
    encode contentType body = header contentType body.length ++ body := by
  cases contentType <;> rfl

def framed (contentType : Option String) (body : List UInt8) : Frame := ⟨header contentType body.length, body⟩

theorem headerLine_eq (name value : List Char) :
    headerLine name value = Utf8.encode (name ++ ':' :: ' ' :: value) ++ [13, 10] := by
  have last : Utf8.encode ['\r', '\n'] = [13, 10] := rfl
  rw [headerLine, Utf8.encode_append, last]

-- The length's line breaks once, at its end.
theorem lengthLine_breaks (length : Nat) : (headerLine lengthName (Nat.toDigits 10 length)).count 10 = 1 := by
  have none' : 10 ∉ Utf8.encode (lengthName ++ ':' :: ' ' :: Nat.toDigits 10 length) := by
    intro present
    obtain ⟨c, listed, number⟩ := Utf8.mem_encode present (by decide)
    have named : c = '\n' := Char.toNat_inj.mp number
    subst named
    rcases List.mem_append.mp listed with front | back
    · exact absurd front (by decide)
    · simp only [List.mem_cons, Char.reduceEq, false_or] at back
      have digit := Nat.isDigit_of_mem_toDigits (by decide) (by decide) back
      cases digit
  rw [headerLine_eq, List.count_append, List.count_eq_zero.mpr none']
  rfl

theorem typeLine_first (contentType : Option String) :
    typeLine contentType = [] ∨ ∃ rest, typeLine contentType = 67 :: rest := by
  cases contentType with
  | none => exact .inl rfl
  | some type => exact .inr ⟨_, rfl⟩

-- A content type that puts no empty line into the header leaves it one header.
theorem isHeader (plain : ¬ terminator <:+: typeLine contentType) (length : Nat) :
    IsHeader (header contentType length) := by
  refine ⟨⟨_, rfl⟩, fun s cut ends => ?_⟩
  have whole : header contentType length =
      (headerLine lengthName (Nat.toDigits 10 length) ++ typeLine contentType ++ [13]) ++ [10] := by simp [header]
  rw [whole] at cut ⊢
  rcases List.prefix_concat_iff.mp cut with same | cut
  · exact same
  · exfalso
    rcases List.prefix_concat_iff.mp cut with rfl | cut
    · obtain ⟨front, last⟩ := getLast_terminator ends
      obtain ⟨_, clash⟩ := List.append_singleton_inj.mp last
      exact absurd clash (by decide)
    · have inside : terminator <:+: headerLine lengthName (Nat.toDigits 10 length) ++ typeLine contentType :=
        ends.isInfix.trans cut.isInfix
      rcases List.infix_append_iff_ne_nil.mp inside with first | second | ⟨one, two, _, some', split, _, begins⟩
      · have breaks := first.sublist.count_le 10
        rw [lengthLine_breaks] at breaks
        exact absurd breaks (by decide)
      · exact plain second
      -- What follows the first line does not begin like a line end.
      · obtain ⟨head, tail, rfl⟩ := List.exists_cons_of_ne_nil some'
        have listed : head ∈ terminator := by simp [split]
        rcases typeLine_first contentType with none' | ⟨rest, typed⟩
        · rw [none'] at begins
          exact absurd (List.prefix_nil.mp begins) (List.cons_ne_nil _ _)
        · rw [typed] at begins
          obtain ⟨rfl, _⟩ := List.cons_prefix_cons.mp begins
          exact absurd listed (by decide)

end DuplexRpc.Framing
