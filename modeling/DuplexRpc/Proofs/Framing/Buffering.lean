import DuplexRpc.Proofs.Framing.Search

namespace DuplexRpc.Framing.Decoder
variable {limits : Limits} {d after : Decoder} {maxBody maxHeader length : Nat}

-- The decoders of some limits, when octets come and items are asked for in any order.
inductive Reached (limits : Limits) : Decoder → Prop
  | initial : Reached limits { limits := limits }
  | pushed {d : Decoder} (chunk : List UInt8) : Reached limits d → Reached limits (d.push chunk)
  | asked {d : Decoder} : Reached limits d → Reached limits d.next.2

theorem Reached.limits_eq (reached : Reached limits d) : d.limits = limits := by
  induction reached with
  | initial => rfl
  | pushed chunk _ ih => exact ih
  | asked _ ih => rw [next_limits, ih]

theorem Reached.drain (reached : Reached limits d) : Reached limits d.drain.2 := by
  induction d using drain.induct with
  | case1 d after waits =>
    have asked := reached.asked
    rw [waits] at asked
    rwa [drain_of_none waits]
  | case2 d item after next _ _ _ ih =>
    have asked := reached.asked
    rw [next] at asked
    rw [drain_of_some next]
    exact ih asked

theorem Reached.feedAll (reached : Reached limits d) (chunks : List (List UInt8)) :
    Reached limits (d.feedAll chunks).2 := by
  induction chunks generalizing d with
  | nil => exact reached
  | cons chunk chunks ih => exact ih (reached.pushed chunk).drain

-- A body that is waited for is no longer than the limit.
def Announced (d : Decoder) : Prop := ∀ length, d.phase = .body length → length ≤ d.limits.maxBody

theorem nextBody_announced (small : length ≤ d.limits.maxBody) : (d.nextBody length).2.Announced := by
  unfold nextBody
  split <;> intro _ waited <;> cases waited
  exact small

theorem nextHeader_announced (d : Decoder) : d.nextHeader.2.Announced := by
  cases split : splitBlock d.buffer with
  | none =>
    by_cases small : d.buffer.length ≤ d.limits.maxHeader
    · rw [nextHeader_wait split small]
      rintro _ ⟨⟩
    · rw [nextHeader_oversize split (Nat.lt_of_not_le small)]
      rintro _ ⟨⟩
  | some found =>
    obtain ⟨block, rest⟩ := found
    cases read : readBlock block with
    | error fault =>
      rw [nextHeader_fault split read]
      rintro _ ⟨⟩
    | ok length =>
      by_cases large : d.limits.maxBody < length
      · rw [nextHeader_large split read large]
        rintro _ ⟨⟩
      · have small := Nat.le_of_not_lt large
        rw [nextHeader_body split read small]
        exact nextBody_announced (d := { d with buffer := rest }) small

theorem Announced.next (announced : d.Announced) : d.next.2.Announced := by
  unfold Decoder.next
  split
  · exact nextHeader_announced d
  · rename_i length phase
    exact nextBody_announced (announced length phase)
  · unfold nextSkip
    split
    · rintro _ ⟨⟩
    · exact nextHeader_announced _

theorem Reached.announced (reached : Reached limits d) : d.Announced := by
  induction reached with
  | initial => rintro _ ⟨⟩
  | pushed chunk _ ih => exact ih
  | asked _ ih => exact ih.next

-- How many octets are left while more are waited for: at most a header's, fewer than the body
-- has, or none of what is skipped.
def Bounded (maxBody maxHeader : Nat) (d : Decoder) : Prop :=
  match d.phase with
  | .header => d.buffer.length ≤ maxHeader
  | .body length => d.buffer.length < length ∧ length ≤ maxBody
  | .skip _ => d.buffer = []

theorem Bounded.total (bounded : d.Bounded maxBody maxHeader) : d.buffer.length ≤ max maxHeader maxBody := by
  unfold Bounded at bounded
  split at bounded
  · omega
  · omega
  · simp [bounded]

theorem nextBody_bounded (small : length ≤ maxBody) (waits : d.nextBody length = (none, after)) :
    after.Bounded maxBody maxHeader := by
  obtain ⟨short, rfl⟩ := nextBody_none waits
  exact ⟨short, small⟩

theorem nextHeader_bounded (waits : d.nextHeader = (none, after)) :
    after.Bounded d.limits.maxBody d.limits.maxHeader := by
  unfold nextHeader at waits
  split at waits
  · split at waits
    · cases waits
    · rename_i small
      cases waits
      exact Nat.le_of_not_lt small
  · split at waits
    · cases waits
    · split at waits
      · cases waits
      · rename_i small
        exact nextBody_bounded (Nat.le_of_not_lt small) waits

theorem next_bounded (announced : d.Announced) (waits : d.next = (none, after)) :
    after.Bounded d.limits.maxBody d.limits.maxHeader := by
  unfold next at waits
  split at waits
  · exact nextHeader_bounded waits
  · rename_i length phase
    exact nextBody_bounded (announced length phase) waits
  · unfold nextSkip at waits
    split at waits
    · cases waits
      rfl
    · exact nextHeader_bounded (d := { d with buffer := d.buffer.drop _ }) waits

-- Whatever has come and however it was asked for, a decoder that has no item left keeps no more
-- than the larger of its limits; so it does after every chunk of a stream.
theorem buffers_stay_bounded (maxBody maxHeader : Nat) :
    (∀ d after, Reached (.of maxBody maxHeader) d → d.next = (none, after) →
      after.Bounded maxBody (max maxHeader 4) ∧ after.buffer.length ≤ max (max maxHeader 4) maxBody) ∧
    ∀ chunks last, (feedAll { limits := .of maxBody maxHeader } chunks).2 = last →
      last.Bounded maxBody (max maxHeader 4) ∧ last.buffer.length ≤ max (max maxHeader 4) maxBody := by
  have waiting : ∀ d after, Reached (.of maxBody maxHeader) d → d.next = (none, after) →
      after.Bounded maxBody (max maxHeader 4) ∧ after.buffer.length ≤ max (max maxHeader 4) maxBody := by
    intro d after reached waits
    have bounded := next_bounded reached.announced waits
    rw [reached.limits_eq] at bounded
    exact ⟨bounded, bounded.total⟩
  refine ⟨waiting, ?_⟩
  rintro chunks _ rfl
  exact waiting _ _ (Reached.initial.feedAll chunks) (feedAll_waits (initial_waits _) chunks)

-- The bounds are reached: by a header whose end has not come, asked for twice, by a body short of
-- one octet, and by what is skipped, of which nothing is left.
theorem buffers_stay_bounded_full :
    ∃ header body skipped : Decoder,
      (push { limits := .of 4 24 } (Utf8.encode "none\r\n\r\nX-Padding: aaaaaaaaa\r\nCo".toList)).next.2.next =
        (none, header) ∧ header.phase = .header ∧ header.buffer.length = 24 ∧
      (feedAll { limits := .of 30 0 } [Utf8.encode "Content-Length: 30\r\n\r\n".toList, List.replicate 29 120]).2 = body ∧
      body.phase = .body 30 ∧ body.buffer.length = 29 ∧
      (feedAll { limits := .of 4 24 } [Utf8.encode "Content-Length: 30\r\n\r\n".toList, List.replicate 29 120]).2 = skipped ∧
      skipped.phase = .skip 1 ∧ skipped.buffer = [] ∧
      header.Bounded 4 24 ∧ body.Bounded 30 4 ∧ skipped.Bounded 4 24 := by
  let started := push { limits := .of 4 24 } (Utf8.encode "none\r\n\r\nX-Padding: aaaaaaaaa\r\nCo".toList)
  have reached : Reached (.of 4 24) started.next.2 := .asked (.pushed _ .initial)
  have waits : started.next.2.next = (none, started.next.2.next.2) := Prod.ext (by decide +kernel) rfl
  refine ⟨_, _, _, waits, ?_, ?_, rfl, ?_, ?_, rfl, ?_, ?_, ((buffers_stay_bounded 4 24).1 _ _ reached waits).1,
    ((buffers_stay_bounded 30 0).2 _ _ rfl).1, ((buffers_stay_bounded 4 24).2 _ _ rfl).1⟩ <;> decide +kernel

end DuplexRpc.Framing.Decoder
