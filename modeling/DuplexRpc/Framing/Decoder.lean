import DuplexRpc.Framing.Header

namespace DuplexRpc.Framing

-- The header limit leaves room for a terminator.
structure Limits where
  maxBody : Nat
  maxHeader : Nat
  room : 4 ≤ maxHeader
  deriving DecidableEq

-- Smaller header limits are raised.
def Limits.of (maxBody maxHeader : Nat) : Limits :=
  ⟨maxBody, max maxHeader 4, Nat.le_max_right ..⟩

inductive Item where
  | body (octets : List UInt8)
  | fault (fault : Fault)
  deriving DecidableEq, Repr

-- Where in a frame the next buffered octet stands.
inductive Phase where
  | header
  | body (length : Nat)
  | skip (remaining : Nat)
  deriving DecidableEq, Repr

structure Decoder where
  limits : Limits
  phase : Phase := .header
  buffer : List UInt8 := []
  deriving DecidableEq

def terminator : List UInt8 := [13, 10, 13, 10]

-- What stands before the first terminator and what stands after it.
def splitBlock : List UInt8 → Option (List UInt8 × List UInt8)
  | [] => none
  | b :: rest =>
    if terminator.isPrefixOf (b :: rest) then some ([], rest.drop 3)
    else (splitBlock rest).map fun (block, after) => (b :: block, after)

namespace Decoder

def push (d : Decoder) (chunk : List UInt8) : Decoder :=
  { d with buffer := d.buffer ++ chunk }

-- The last octets that may begin a terminator.
def tail (buffer : List UInt8) : List UInt8 :=
  buffer.drop (buffer.length - 3)

-- No memory is set aside for the rest of a body that is waited for. The program reserves it, which fails
-- (capacity overflow) for a length above that of the largest buffer, where `maxBody` admits one.
def nextBody (d : Decoder) (length : Nat) : Option Item × Decoder :=
  if d.buffer.length < length then (none, { d with phase := .body length })
  else (some (.body (d.buffer.take length)), { d with phase := .header, buffer := d.buffer.drop length })

def nextHeader (d : Decoder) : Option Item × Decoder :=
  match splitBlock d.buffer with
  | none =>
    if d.limits.maxHeader < d.buffer.length then
      (some (.fault (.headerTooLarge d.limits.maxHeader)), { d with phase := .header, buffer := tail d.buffer })
    else (none, { d with phase := .header })
  | some (block, rest) =>
    match readBlock block with
    | .error fault => (some (.fault fault), { d with phase := .header, buffer := rest })
    | .ok length =>
      if d.limits.maxBody < length then
        (some (.fault (.frameTooLarge length d.limits.maxBody)), { d with phase := .skip length, buffer := rest })
      else nextBody { d with buffer := rest } length

def nextSkip (d : Decoder) (remaining : Nat) : Option Item × Decoder :=
  if d.buffer.length < remaining then
    (none, { d with phase := .skip (remaining - d.buffer.length), buffer := [] })
  else nextHeader { d with buffer := d.buffer.drop remaining }

-- The next item of the buffered octets, if they hold one.
def next (d : Decoder) : Option Item × Decoder :=
  match d.phase with
  | .header => d.nextHeader
  | .body length => d.nextBody length
  | .skip remaining => d.nextSkip remaining

end Decoder

theorem length_splitBlock {buffer block rest : List UInt8} (h : splitBlock buffer = some (block, rest)) :
    rest.length < buffer.length := by
  induction buffer generalizing block with
  | nil => simp [splitBlock] at h
  | cons b tail ih =>
    unfold splitBlock at h
    split at h
    · obtain ⟨_, rfl⟩ := Prod.mk.inj (Option.some.inj h)
      simp only [List.length_drop, List.length_cons]
      omega
    · obtain ⟨⟨inner, after⟩, found, same⟩ := Option.map_eq_some_iff.mp h
      obtain ⟨_, rfl⟩ := Prod.mk.inj same
      have := ih found
      simp only [List.length_cons]
      omega

namespace Decoder

-- Octets still to be taken; a body that has been announced counts by itself.
def weight (d : Decoder) : Nat :=
  2 * d.buffer.length + match d.phase with
    | .body _ => 1
    | _ => 0

theorem weight_le (d : Decoder) : d.weight ≤ 2 * d.buffer.length + 1 := by
  unfold weight
  split <;> omega

theorem length_nextBody (d : Decoder) (length : Nat) :
    (d.nextBody length).2.buffer.length ≤ d.buffer.length := by
  unfold nextBody
  split <;> simp

theorem length_nextHeader {d after : Decoder} {item : Item} (h : d.nextHeader = (some item, after)) :
    after.buffer.length < d.buffer.length := by
  unfold nextHeader at h
  split at h
  · split at h
    · obtain ⟨_, rfl⟩ := Prod.mk.inj h
      have := d.limits.room
      simp only [tail, List.length_drop]
      omega
    · simp at h
  · rename_i block rest found
    have shorter := length_splitBlock found
    split at h
    · obtain ⟨_, rfl⟩ := Prod.mk.inj h
      exact shorter
    · split at h
      · obtain ⟨_, rfl⟩ := Prod.mk.inj h
        exact shorter
      · rename_i length _ _
        have := length_nextBody { d with buffer := rest } length
        rw [h] at this
        exact Nat.lt_of_le_of_lt this shorter

theorem weight_next {d after : Decoder} {item : Item} (h : d.next = (some item, after)) :
    after.weight < d.weight := by
  have bound := after.weight_le
  unfold next at h
  split at h
  · rename_i phase
    have here : d.weight = 2 * d.buffer.length := by simp [weight, phase]
    have := length_nextHeader h
    omega
  · rename_i length phase
    have here : d.weight = 2 * d.buffer.length + 1 := by simp [weight, phase]
    have shorter := length_nextBody d length
    rw [h] at shorter
    unfold nextBody at h
    split at h
    · simp at h
    · obtain ⟨_, rfl⟩ := Prod.mk.inj h
      rw [here]
      simp only [weight] at shorter ⊢
      omega
  · rename_i remaining phase
    have here : d.weight = 2 * d.buffer.length := by simp [weight, phase]
    unfold nextSkip at h
    split at h
    · simp at h
    · have shorter := length_nextHeader h
      simp only [List.length_drop] at shorter
      omega

-- All items of the buffered octets, and the decoder that waits for more.
def drain (d : Decoder) : List Item × Decoder :=
  match _h : d.next with
  | (none, after) => ([], after)
  | (some item, after) =>
    let (items, last) := after.drain
    (item :: items, last)
termination_by d.weight
decreasing_by exact weight_next _h

-- A chunk arrives and everything it completes is taken out.
def feed (d : Decoder) (chunk : List UInt8) : List Item × Decoder :=
  (d.push chunk).drain

-- What the end of the stream yields.
inductive Ending where
  | item (item : Item)
  | clean
  | truncated
  deriving DecidableEq

-- One more attempt; without an item, the end is clean when nothing is buffered.
def finish (d : Decoder) : Ending × Decoder :=
  match d.next with
  | (some item, after) => (.item item, after)
  | (none, after) => (if after.buffer = [] then .clean else .truncated, after)

end Decoder
end DuplexRpc.Framing
