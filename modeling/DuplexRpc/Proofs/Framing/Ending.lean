import DuplexRpc.Proofs.Framing.Buffering
import DuplexRpc.Proofs.Framing.Passage

namespace DuplexRpc.Framing

-- Where a stream stops: between frames, inside a header, behind some octets of a body or inside
-- what is skipped.
inductive Stop where
  | boundary
  | header
  | body (come : Nat)
  | skipped
  deriving DecidableEq, Repr

-- What is kept of a header while its end has not come: its octets as they are, or the last three
-- of them each time when they are more than the limit.
def retained (limits : Limits) (kept : List UInt8) : List (List UInt8) → List UInt8
  | [] => kept
  | chunk :: chunks =>
    let come := kept ++ chunk
    retained limits (if limits.maxHeader < come.length then come.drop (come.length - 3) else come) chunks

-- Chunks begin with a header whose end has come, with what is read of it and what comes behind it.
inductive Headed (limits : Limits) : List (List UInt8) → List UInt8 → List (List UInt8) → Prop
  | intro {early late more read rest} : ¬ terminator <:+: early.flatten →
      splitBlock (retained limits [] early ++ late) = some (read, rest) →
      Headed limits (early ++ late :: more) read (rest :: more)

-- Where a stream stops that comes in chunks, frame by frame.
inductive Stops (limits : Limits) : List (List UInt8) → Stop → Prop
  | boundary {chunks} : chunks.flatten = [] → Stops limits chunks .boundary
  | header {chunks} : chunks.flatten ≠ [] → ¬ terminator <:+: chunks.flatten → Stops limits chunks .header
  | refused {chunks read behind fault stop} : Headed limits chunks read behind → readBlock read = .error fault →
      Stops limits behind stop → Stops limits chunks stop
  | passed {chunks read behind length octets further stop} : Headed limits chunks read behind →
      readBlock read = .ok length → takeOctets length behind = some (octets, further) →
      Stops limits further stop → Stops limits chunks stop
  | body {chunks read behind length} : Headed limits chunks read behind → readBlock read = .ok length →
      length ≤ limits.maxBody → takeOctets length behind = none → Stops limits chunks (.body behind.flatten.length)
  | skipped {chunks read behind length} : Headed limits chunks read behind → readBlock read = .ok length →
      limits.maxBody < length → takeOctets length behind = none → Stops limits chunks .skipped

variable {limits : Limits} {kept read octets : List UInt8} {early chunks behind further : List (List UInt8)} {length : Nat}
  {stop : Stop}

namespace Decoder
variable {d after : Decoder} {item : Item}

theorem finish_item (more : d.finish = (.item item, after)) : d.next = (some item, after) := by
  unfold finish at more
  split at more
  · cases more
    assumption
  · split at more <;> cases more

-- The end of the stream is asked for until no item is left, and then judged.
def finishAll (d : Decoder) : List Item × Ending :=
  match _h : d.finish with
  | (.item item, after) => (item :: after.finishAll.1, after.finishAll.2)
  | (ending, _) => ([], ending)
termination_by d.weight
decreasing_by all_goals exact weight_next (finish_item _h)

theorem finishAll_of_none (waits : d.next = (none, after)) :
    d.finishAll = ([], if after.buffer = [] then .clean else .truncated) := by
  have judged : d.finish = (if after.buffer = [] then .clean else .truncated, after) := by simp only [finish, waits]
  rw [finishAll]
  split
  · rename_i more
    rw [judged] at more
    split at more <;> cases more
  · rename_i same
    rw [judged] at same
    cases same
    rfl

theorem feedAll_retained (small : kept.length ≤ limits.maxHeader) (unended : ¬ terminator <:+: kept ++ early.flatten) :
    ((holding limits kept).feedAll early).2 = holding limits (retained limits kept early) := by
  induction early generalizing kept with
  | nil => rfl
  | cons chunk early ih =>
    rw [List.flatten_cons, ← List.append_assoc] at unended
    have first : ¬ terminator <:+: kept ++ chunk := fun found => unended (found.trans (List.prefix_append ..).isInfix)
    rw [feedAll_cons, feed_unended first, retained]
    split
    · rename_i large
      obtain ⟨front, _, cut, three⟩ := exists_cut (Nat.lt_trans limits.room large)
      rw [cut, List.append_assoc] at unended
      exact ih (three ▸ Nat.le_of_succ_le limits.room) fun found => unended (found.trans (List.suffix_append ..).isInfix)
    · rename_i fits
      exact ih (Nat.le_of_not_lt fits) unended

theorem feedAll_headed (headed : Headed limits chunks read behind) :
    ((holding limits []).feedAll chunks).2 = (behindHeader limits read behind).2 := by
  obtain ⟨unended, split⟩ := headed
  have small : ([] : List UInt8).length ≤ limits.maxHeader := Nat.zero_le _
  rw [feedAll_append, feedAll_retained small unended, feedAll_ended split]
  rfl

-- The decoder knows where the stream stops.
def stopsAt (d : Decoder) : Stop :=
  match d.phase with
  | .header => if d.buffer = [] then .boundary else .header
  | .body _ => .body d.buffer.length
  | .skip _ => .skipped

theorem stopsAt_holding (kept : List UInt8) : (holding limits kept).stopsAt = if kept = [] then .boundary else .header := rfl

-- A header that has not ended leaves something of it.
theorem stopsAt_unended (unended : ¬ terminator <:+: chunks.flatten) :
    ((holding limits []).feedAll chunks).2.stopsAt = if chunks.flatten = [] then .boundary else .header := by
  have small : ([] : List UInt8).length ≤ limits.maxHeader := Nat.zero_le _
  obtain ⟨reports, lost, last, searched, fed⟩ := feedAll_unended small unended
  have parts : chunks.flatten = lost ++ last := searched.parts
  rw [fed, stopsAt_holding, parts]
  rcases searched.enough with rfl | enough
  · rfl
  · have some' : last ≠ [] := by
      rintro rfl
      cases enough
    simp [some']

-- Behind a body that has come as a whole, delivered or skipped, a frame begins.
theorem behindHeader_taken (readAs : readBlock read = .ok length)
    (taken : takeOctets length behind = some (octets, further)) :
    (behindHeader limits read behind).2 = ((holding limits []).feedAll further).2 := by
  rw [behindHeader, readAs]
  dsimp only
  split
  · rw [feedAll_skip, taken]
    rfl
  · rw [feedAll_body (.inl rfl), List.length_nil, Nat.sub_zero, taken]
    rfl

-- Of a body that has not, everything is kept, or nothing if it is skipped.
theorem behindHeader_short (readAs : readBlock read = .ok length) (short : takeOctets length behind = none) :
    (behindHeader limits read behind).2 =
      if limits.maxBody < length then { limits := limits, phase := .skip (length - behind.flatten.length) }
      else { limits := limits, phase := .body length, buffer := behind.flatten } := by
  rw [behindHeader, readAs]
  dsimp only
  split
  · rw [feedAll_skip, short]
    rfl
  · rw [feedAll_body (.inl rfl), List.length_nil, Nat.sub_zero, short]
    rfl

theorem stopsAt_feedAll (stops : Stops limits chunks stop) : ((holding limits []).feedAll chunks).2.stopsAt = stop := by
  induction stops with
  | boundary nothing =>
    rw [stopsAt_unended (by rw [nothing]; decide), if_pos nothing]
  | header some' unended => rw [stopsAt_unended unended, if_neg some']
  | refused headed refuses _ ih =>
    rw [feedAll_headed headed, behindHeader, refuses]
    exact ih
  | passed headed readAs taken _ ih => rw [feedAll_headed headed, behindHeader_taken readAs taken, ih]
  | body headed readAs small short =>
    rw [feedAll_headed headed, behindHeader_short readAs short, if_neg (Nat.not_lt.mpr small)]
    rfl
  | skipped headed readAs large short =>
    rw [feedAll_headed headed, behindHeader_short readAs short, if_pos large]
    rfl

end Decoder

open Decoder (feedAll feedAll_retained feedAll_unended holding splitBlock_kept)

-- A stream that holds a terminator begins with a header that ends.
theorem exists_headed (limits : Limits) (ended : terminator <:+: chunks.flatten) :
    ∃ read behind, Headed limits chunks read behind ∧ behind.flatten.length < chunks.flatten.length := by
  have nothing : ¬ terminator <:+: [] := by decide
  have small : ([] : List UInt8).length ≤ limits.maxHeader := Nat.zero_le _
  obtain ⟨early, late, more, block, rest, rfl, unended, split⟩ := exists_late nothing ended
  have retains := feedAll_retained small unended
  obtain ⟨reports, lost, last, searched, fed⟩ := feedAll_unended small unended
  have same : retained limits [] early = last := congrArg Decoder.buffer (retains.symm.trans (congrArg Prod.snd fed))
  have fewer := length_splitBlock split
  rw [List.nil_append] at unended split searched
  rw [searched.parts] at split
  obtain ⟨read, _, split'⟩ := splitBlock_kept (searched.parts ▸ unended) searched.enough split
  refine ⟨read, rest :: more, .intro unended (same ▸ split'), ?_⟩
  simp only [List.flatten_append, List.flatten_cons, List.length_append, List.nil_append] at fewer ⊢
  omega

theorem exists_stop (limits : Limits) (chunks : List (List UInt8)) : ∃ stop, Stops limits chunks stop := by
  -- There are fewer octets behind each frame.
  induction size : chunks.flatten.length using Nat.strongRecOn generalizing chunks with
  | ind n ih =>
    subst size
    by_cases ended : terminator <:+: chunks.flatten
    · obtain ⟨read, behind, headed, fewer⟩ := exists_headed limits ended
      cases readAs : readBlock read with
      | error fault =>
        obtain ⟨stop, stops⟩ := ih _ fewer _ rfl
        exact ⟨stop, .refused headed readAs stops⟩
      | ok length =>
        cases taken : takeOctets length behind with
        | some found =>
          obtain ⟨octets, further⟩ := found
          obtain ⟨stop, stops⟩ := ih _ (Nat.lt_of_le_of_lt (takeOctets_length taken) fewer) _ rfl
          exact ⟨stop, .passed headed readAs taken stops⟩
        | none =>
          by_cases small : length ≤ limits.maxBody
          · exact ⟨_, .body headed readAs small taken⟩
          · exact ⟨_, .skipped headed readAs (Nat.lt_of_not_le small) taken⟩
    · by_cases nothing : chunks.flatten = []
      · exact ⟨_, .boundary nothing⟩
      · exact ⟨_, .header nothing ended⟩

namespace Decoder

-- The end of a stream is judged by what is buffered alone. It is clean where a frame ends, and as
-- well right behind a header that announces a body and inside what is skipped, where nothing is
-- buffered; inside a header, or a body of which something has come, it is not.
theorem ends_are_judged_by_the_buffer (limits : Limits) (chunks : List (List UInt8)) :
    ∃ stop, (∀ other, Stops limits chunks other ↔ other = stop) ∧
      ∃ ending, (feedAll { limits := limits } chunks).2.finishAll = ([], ending) ∧
        (ending = .clean ↔ stop = .boundary ∨ stop = .body 0 ∨ stop = .skipped) ∧
        (ending = .truncated ↔ stop = .header ∨ ∃ come, 0 < come ∧ stop = .body come) := by
  obtain ⟨stop, stops⟩ := exists_stop limits chunks
  have known := stopsAt_feedAll stops
  refine ⟨stop, fun other => ⟨fun also' => (stopsAt_feedAll also').symm.trans known, fun same => same ▸ stops⟩, ?_⟩
  have waits := feedAll_waits (initial_waits limits) chunks
  have bounded := next_bounded (Reached.initial.feedAll chunks).announced waits
  refine ⟨_, finishAll_of_none waits, ?_⟩
  generalize (feedAll { limits := limits } chunks).2 = last at known bounded
  subst known
  cases phase : last.phase with
  | header => by_cases empty : last.buffer = [] <;> simp [stopsAt, phase, empty]
  | body length => by_cases empty : last.buffer = [] <;> simp [stopsAt, phase, empty, List.length_pos_iff]
  | skip remaining =>
    have empty : last.buffer = [] := by simpa only [Bounded, phase] using bounded
    simp [stopsAt, phase, empty]

-- A stream that is cut inside what is skipped, or right before a body, ends like a whole one. An
-- octet of the body more, and it does not.
theorem cut_frames_end_clean :
    let skipped := [Utf8.encode "Content-Length: 9\r\n\r\nabc".toList]
    let awaited := [Utf8.encode "Content-Length: 3\r\n\r\n".toList]
    let begun := [Utf8.encode "Content-Length: 3\r\n\r\na".toList]
    Stops (.of 4 64) skipped .skipped ∧
      (feedAll { limits := .of 4 64 } skipped).2.finishAll = ([], .clean) ∧
    Stops (.of 4 64) awaited (.body 0) ∧
      (feedAll { limits := .of 4 64 } awaited).2.finishAll = ([], .clean) ∧
    Stops (.of 4 64) begun (.body 1) ∧
      (feedAll { limits := .of 4 64 } begun).2.finishAll = ([], .truncated) := by
  have headed : ∀ read late rest, splitBlock late = some (read, rest) → Headed (.of 4 64) [late] read [rest] := by
    intro read late rest split
    have nothing : ¬ terminator <:+: [] := by decide
    exact @Headed.intro _ [] late [] _ _ nothing split
  have nine : readBlock (Utf8.encode "Content-Length: 9".toList) = .ok 9 := rfl
  have three : readBlock (Utf8.encode "Content-Length: 3".toList) = .ok 3 := rfl
  refine ⟨.skipped (headed _ _ [97, 98, 99] rfl) nine ?_ rfl, ?_, .body (headed _ _ [] rfl) three ?_ rfl, ?_,
    .body (headed _ _ [97] rfl) three ?_ rfl, ?_⟩ <;> decide +kernel

end Decoder
end DuplexRpc.Framing
