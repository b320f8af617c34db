import DuplexRpc.Proofs.Framing.Passage

namespace DuplexRpc.Framing

-- A search for the end of a header, from one place of a stream: it ends at the first terminator
-- from there on, whatever has been reported before. Only a long header is reported, and what is
-- read of one that has not been reported is all of it.
structure Ended (limits : Limits) (stream : List UInt8) (here ends reports : Nat) (read : List UInt8) : Prop where
  forward : here ≤ ends
  found : terminator <+: stream.drop ends
  first : ∀ place, here ≤ place → place < ends → ¬ terminator <+: stream.drop place
  large : 0 < reports → limits.maxHeader < ends - here + 3
  parts : ∃ lost, stream.extract here ends = lost ++ read ∧ (reports = 0 → lost = [])

-- What the octets of a stream yield from one place on, where a header is searched for, and the
-- decoder behind the last of them. The place that the next search starts from is the end of the
-- terminator, of what is skipped or of the body.
inductive Resumes (limits : Limits) (stream : List UInt8) : Nat → List Item → Decoder → Prop
  | searching {here reports lost kept} :
      (∀ place, here ≤ place → ¬ terminator <+: stream.drop place) →
      stream.drop here = lost ++ kept → (reports = 0 → lost = []) →
      Resumes limits stream here (List.replicate reports limits.oversize) { limits := limits, buffer := kept }
  | refused {here ends reports read fault items last} :
      Ended limits stream here ends reports read → readBlock read = .error fault →
      Resumes limits stream (ends + 4) items last →
      Resumes limits stream here (List.replicate reports limits.oversize ++ .fault fault :: items) last
  | skipped {here ends reports read length items last} :
      Ended limits stream here ends reports read → readBlock read = .ok length → limits.maxBody < length →
      ends + 4 + length ≤ stream.length → Resumes limits stream (ends + 4 + length) items last →
      Resumes limits stream here
        (List.replicate reports limits.oversize ++ .fault (.frameTooLarge length limits.maxBody) :: items) last
  | skipping {here ends reports read length} :
      Ended limits stream here ends reports read → readBlock read = .ok length → limits.maxBody < length →
      stream.length < ends + 4 + length →
      Resumes limits stream here
        (List.replicate reports limits.oversize ++ [.fault (.frameTooLarge length limits.maxBody)])
        { limits := limits, phase := .skip (ends + 4 + length - stream.length) }
  | delivered {here ends reports read length items last} :
      Ended limits stream here ends reports read → readBlock read = .ok length → length ≤ limits.maxBody →
      ends + 4 + length ≤ stream.length → Resumes limits stream (ends + 4 + length) items last →
      Resumes limits stream here
        (List.replicate reports limits.oversize ++ .body (stream.extract (ends + 4) (ends + 4 + length)) :: items) last
  | awaited {here ends reports read length} :
      Ended limits stream here ends reports read → readBlock read = .ok length → length ≤ limits.maxBody →
      stream.length < ends + 4 + length →
      Resumes limits stream here (List.replicate reports limits.oversize)
        { limits := limits, phase := .body length, buffer := stream.drop (ends + 4) }

variable {limits : Limits} {buffer block rest front late lost kept read : List UInt8}
  {early chunks more : List (List UInt8)} {reports length : Nat}

-- Where a block ends, as a place among the octets.
theorem splitBlock_place (split : splitBlock buffer = some (block, rest)) :
    terminator <+: buffer.drop block.length ∧ ∀ place < block.length, ¬ terminator <+: buffer.drop place := by
  induction buffer generalizing block with
  | nil => cases split
  | cons b buffer ih =>
    rw [splitBlock] at split
    split at split
    · rename_i here
      obtain ⟨rfl, _⟩ := Prod.mk.inj (Option.some.inj split)
      exact ⟨List.isPrefixOf_iff_prefix.mp here, fun place before => absurd before (Nat.not_lt_zero place)⟩
    · rename_i other
      obtain ⟨⟨inner, after⟩, found, same⟩ := Option.map_eq_some_iff.mp split
      obtain ⟨rfl, rfl⟩ := Prod.mk.inj same
      obtain ⟨ends, first⟩ := ih found
      refine ⟨ends, fun place before begins => ?_⟩
      cases place with
      | zero => exact other (List.isPrefixOf_iff_prefix.mpr begins)
      | succ place => exact first place (Nat.lt_of_succ_lt_succ before) begins

-- Octets without a terminator have none at any place, whatever stands before them.
theorem unended_place (unended : ¬ terminator <:+: rest) (place : Nat) (behind : front.length ≤ place) :
    ¬ terminator <+: (front ++ rest).drop place := by
  obtain ⟨inside, rfl⟩ := Nat.exists_eq_add_of_le behind
  rw [List.drop_length_add_append]
  exact fun begins => unended (begins.isInfix.trans (List.drop_suffix ..).isInfix)

-- Fewer octets have come than are waited for.
theorem takeOctets_none (taken : takeOctets length (rest :: more) = none) : (rest :: more).flatten.length < length := by
  induction more generalizing rest length with
  | nil =>
    rw [takeOctets] at taken
    split at taken
    · cases taken
    · rename_i short
      simpa using short
  | cons chunk more ih =>
    rw [takeOctets] at taken
    split at taken
    · cases taken
    · have := ih (Option.map_eq_none_iff.mp taken)
      rw [List.flatten_cons, List.length_append]
      omega

-- A header whose end has come, as places of the stream.
theorem Searched.ended (searched : Searched limits early.flatten reports lost kept)
    (unended : ¬ terminator <:+: early.flatten)
    (split : splitBlock (early.flatten ++ late) = some (lost ++ read, rest)) (front : List UInt8) (more : List (List UInt8)) :
    Ended limits (front ++ (early ++ late :: more).flatten) front.length (front.length + (lost ++ read).length) reports
      read := by
  have split' := splitBlock_append split more.flatten
  have whole : (early ++ late :: more).flatten = early.flatten ++ late ++ more.flatten := by simp
  rw [← whole] at split'
  obtain ⟨found, first⟩ := splitBlock_place split'
  exact {
    forward := Nat.le_add_right ..
    found := by rwa [List.drop_length_add_append]
    first := fun place behind before begins => by
      obtain ⟨inside, rfl⟩ := Nat.exists_eq_add_of_le behind
      rw [List.drop_length_add_append] at begins
      exact first inside (Nat.add_lt_add_iff_left.mp before) begins
    large := fun reported => by
      have long := searched.reported.mp reported
      have cut : early.flatten.length < (lost ++ read ++ terminator).length :=
        splitBlock_late split (splitBlock_eq_none.mpr unended)
      rw [List.length_append] at cut
      change _ < (lost ++ read).length + 4 at cut
      omega
    parts := by
      refine ⟨lost, ?_, searched.lossless.mp⟩
      rw [(splitBlock_iff.mp split').1, List.extract_eq_take_drop, List.drop_left, Nat.add_sub_cancel_left,
        List.append_assoc, List.take_left] }

namespace Decoder

-- Behind a header, with the searches that start further on.
theorem behindHeader_resumes {stream before : List UInt8} {here ends : Nat}
    (header : Ended limits stream here ends reports read)
    (whole : stream = before ++ (rest :: more).flatten) (place : before.length = ends + 4)
    (later : ∀ octets behind, (rest :: more).flatten = octets ++ behind.flatten →
      Resumes limits stream (ends + 4 + octets.length) ((holding limits []).feedAll behind).1
        ((holding limits []).feedAll behind).2) :
    Resumes limits stream here
      (following (List.replicate reports limits.oversize) (behindHeader limits read (rest :: more))).1
      (following (List.replicate reports limits.oversize) (behindHeader limits read (rest :: more))).2 := by
  have size : stream.length = ends + 4 + (rest :: more).flatten.length := by
    rw [whole, List.length_append, place]
  rw [behindHeader]
  cases readAs : readBlock read with
  | error fault => exact .refused header readAs (later [] _ rfl)
  | ok length =>
    dsimp only
    cases taken : takeOctets length (rest :: more) with
    | none =>
      have short := takeOctets_none taken
      have short' : stream.length < ends + 4 + length := by omega
      split
      · rename_i large
        have left : ends + 4 + length - stream.length = length - (rest :: more).flatten.length := by omega
        have skipping := Resumes.skipping header readAs large short'
        rw [left] at skipping
        rw [feedAll_skip, taken]
        exact skipping
      · rename_i small
        have awaited := Resumes.awaited header readAs (Nat.le_of_not_lt small) short'
        have come : stream.drop (ends + 4) = (rest :: more).flatten := by
          rw [whole, ← place, List.drop_left]
        rw [come] at awaited
        rw [feedAll_body (.inl rfl), List.length_nil, Nat.sub_zero, taken]
        simpa [following] using awaited
    | some found =>
      obtain ⟨octets, behind⟩ := found
      obtain ⟨counted, parts⟩ := takeOctets_some taken
      have resumed := later octets behind parts
      rw [counted] at resumed
      have enough : ends + 4 + length ≤ stream.length := by
        rw [size, parts, List.length_append, counted]
        omega
      split
      · rename_i large
        rw [feedAll_skip, taken]
        exact .skipped header readAs large enough resumed
      · rename_i small
        have come : stream.extract (ends + 4) (ends + 4 + length) = octets := by
          rw [whole, parts, List.extract_eq_take_drop, ← place, List.drop_left, Nat.add_sub_cancel_left, ← counted,
            List.take_left]
        have delivered := Resumes.delivered header readAs (Nat.le_of_not_lt small) enough resumed
        rw [come] at delivered
        rw [feedAll_body (.inl rfl), List.length_nil, Nat.sub_zero, taken]
        exact delivered

-- Behind some octets of a stream, where a header is searched for.
theorem feedAll_resumes (limits : Limits) (front : List UInt8) (chunks : List (List UInt8)) :
    Resumes limits (front ++ chunks.flatten) front.length ((holding limits []).feedAll chunks).1
      ((holding limits []).feedAll chunks).2 := by
  -- Each header leaves fewer octets behind it, and it does not matter what those before it were.
  induction size : chunks.flatten.length using Nat.strongRecOn generalizing front chunks with
  | ind n ih =>
    subst size
    by_cases ended : terminator <:+: chunks.flatten
    · have nothing : ¬ terminator <:+: [] := by decide
      obtain ⟨early, late, more, block, rest, rfl, unended, split⟩ := exists_late nothing ended
      rw [List.nil_append] at unended split
      obtain ⟨reports, lost, kept, read, searched, rfl, fed⟩ := feedAll_header unended split more
      rw [fed]
      have header := searched.ended unended split front more
      have cut : (early ++ late :: more).flatten = lost ++ read ++ terminator ++ (rest :: more).flatten := by
        have := (splitBlock_iff.mp split).1
        simp only [List.flatten_append, List.flatten_cons, ← List.append_assoc, this]
      have place : (front ++ (lost ++ read ++ terminator)).length = front.length + (lost ++ read).length + 4 := by
        rw [List.length_append, List.length_append, ← Nat.add_assoc]
        rfl
      apply behindHeader_resumes header (by rw [cut, ← List.append_assoc]) place
      intro octets behind parts
      have fewer : behind.flatten.length < (early ++ late :: more).flatten.length := by
        rw [cut, parts]
        simp only [List.length_append, terminator, List.length_cons, List.length_nil]
        omega
      have resumed := ih _ fewer (front ++ (lost ++ read ++ terminator) ++ octets) behind rfl
      rw [List.append_assoc _ octets, ← parts, List.append_assoc front, ← cut, List.length_append, place] at resumed
      exact resumed
    · have start : ([] : List UInt8).length ≤ limits.maxHeader := Nat.zero_le _
      obtain ⟨reports, lost, last, searched, fed⟩ := feedAll_unended start ended
      rw [fed]
      refine .searching (unended_place ended) ?_ searched.lossless.mp
      rw [List.drop_left]
      exact searched.parts

-- Every search for a header starts where the frame before it ends, and ends at the first
-- terminator from there on, whatever has been reported and wherever the chunks are cut.
theorem searches_resume_where_frames_end (limits : Limits) (chunks : List (List UInt8)) :
    Resumes limits chunks.flatten 0 (feedAll { limits := limits } chunks).1 (feedAll { limits := limits } chunks).2 :=
  feedAll_resumes limits [] chunks

-- What is skipped may look like a frame. The next one is read right behind it.
example :
    let announced := Utf8.encode "Content-Length: 23\r\n\r\nContent-Length: 2\r".toList
    let frames := Utf8.encode "\n\r\nnoContent-Length: 2\r\n\r\nok".toList
    feedAll { limits := .of 4 64 } [announced, frames] =
      ([.fault (.frameTooLarge 23 4), .body (Utf8.encode "ok".toList)], holding (.of 4 64) []) := by
  decide +kernel

end Decoder
end DuplexRpc.Framing
