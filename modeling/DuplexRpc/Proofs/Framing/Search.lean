import DuplexRpc.Proofs.Framing.Cuts

namespace DuplexRpc.Framing
variable {limits : Limits} {buffer kept lost last block rest late chunk : List UInt8} {early more : List (List UInt8)}

theorem splitBlock_eq_none : splitBlock buffer = none ↔ ¬ terminator <:+: buffer := by
  induction buffer with
  | nil => simp [splitBlock, terminator]
  | cons b buffer ih =>
    rw [splitBlock, List.infix_cons_iff, not_or, ← ih, ← List.isPrefixOf_iff_prefix]
    split <;> simp [*]

-- What is reported of a header that is longer than the limit and has not ended.
def Limits.oversize (limits : Limits) : Item := .fault (.headerTooLarge limits.maxHeader)

-- What has become of a header's octets while its end has not come: those that are lost, those
-- that are kept, and how often the header was reported.
structure Searched (limits : Limits) (whole : List UInt8) (reports : Nat) (lost kept : List UInt8) : Prop where
  parts : whole = lost ++ kept
  enough : lost = [] ∨ 3 ≤ kept.length
  reported : 0 < reports ↔ limits.maxHeader < whole.length
  lossless : reports = 0 ↔ lost = []

-- One report more, with all but the last octets lost before the search goes on.
theorem Searched.behind {front : List UInt8} {reports : Nat} (some' : front ≠ []) (three : kept.length = 3)
    (large : limits.maxHeader < (front ++ (kept ++ rest)).length) (searched : Searched limits (kept ++ rest) reports lost last) :
    Searched limits (front ++ (kept ++ rest)) (reports + 1) (front ++ lost) last := by
  refine ⟨by rw [searched.parts, List.append_assoc], .inr ?_, by simpa using large, by simp [some']⟩
  rcases searched.enough with rfl | enough
  · have := congrArg List.length searched.parts
    simp only [List.length_append, three, List.nil_append] at this
    omega
  · exact enough

namespace Decoder

-- A decoder inside a header, or at its begin, with the octets it has kept of it.
abbrev holding (limits : Limits) (kept : List UInt8) : Decoder := { limits := limits, buffer := kept }

-- What a run yields behind what has been yielded.
def following (items : List Item) (run : List Item × Decoder) : List Item × Decoder := (items ++ run.1, run.2)

@[simp] theorem following_nil (run : List Item × Decoder) : following [] run = run := rfl

@[simp] theorem following_following (one two : List Item) (run : List Item × Decoder) :
    following one (following two run) = following (one ++ two) run := by
  simp [following]

theorem feedAll_cons (d : Decoder) (chunk : List UInt8) (chunks : List (List UInt8)) :
    d.feedAll (chunk :: chunks) = following (d.feed chunk).1 ((d.feed chunk).2.feedAll chunks) := rfl

theorem feedAll_append (d : Decoder) (one two : List (List UInt8)) :
    d.feedAll (one ++ two) = following (d.feedAll one).1 ((d.feedAll one).2.feedAll two) := by
  induction one generalizing d with
  | nil => rfl
  | cons chunk one ih => rw [List.cons_append, feedAll_cons, ih, feedAll_cons, following_following]; rfl

theorem drain_congr {d d' : Decoder} (same : d.next = d'.next) : d.drain = d'.drain := by
  rw [drain, drain, same]

theorem tail_suffix (buffer : List UInt8) : tail buffer <:+ buffer := List.drop_suffix ..

theorem length_tail (buffer : List UInt8) : (tail buffer).length = min 3 buffer.length := by
  simp only [tail, List.length_drop]
  omega

theorem exists_cut (long : 3 < buffer.length) :
    ∃ front, front ≠ [] ∧ buffer = front ++ tail buffer ∧ (tail buffer).length = 3 := by
  refine ⟨buffer.take (buffer.length - 3), ?_, (List.take_append_drop ..).symm, by rw [length_tail]; omega⟩
  apply List.ne_nil_of_length_pos
  simp only [List.length_take]
  omega

theorem nextHeader_oversize {d : Decoder} (split : splitBlock d.buffer = none)
    (large : d.limits.maxHeader < d.buffer.length) :
    d.nextHeader = (some d.limits.oversize, { d with phase := .header, buffer := tail d.buffer }) := by
  simp only [nextHeader, split, if_pos large, Limits.oversize]

-- A chunk that does not end the header is kept, or reported and all but its last octets dropped.
theorem feed_unended (unended : ¬ terminator <:+: kept ++ chunk) :
    (holding limits kept).feed chunk =
      if limits.maxHeader < (kept ++ chunk).length then ([limits.oversize], holding limits (tail (kept ++ chunk)))
      else ([], holding limits (kept ++ chunk)) := by
  have split : splitBlock ((holding limits kept).push chunk).buffer = none := splitBlock_eq_none.mpr unended
  rw [feed]
  split
  · rename_i large
    have short : (tail (kept ++ chunk)).length ≤ limits.maxHeader := by
      have := limits.room
      rw [length_tail]
      omega
    have still : splitBlock (tail (kept ++ chunk)) = none :=
      splitBlock_eq_none.mpr fun found => unended (found.trans (tail_suffix _).isInfix)
    have yields : (push (holding limits kept) chunk).next = (some limits.oversize, holding limits (tail (kept ++ chunk))) :=
      nextHeader_oversize split large
    have waits : (holding limits (tail (kept ++ chunk))).next = (none, holding limits (tail (kept ++ chunk))) :=
      nextHeader_wait still short
    rw [drain_of_some yields, drain_of_none waits]
  · rename_i small
    exact drain_of_none (d := push (holding limits kept) chunk) (nextHeader_wait split (Nat.le_of_not_lt small))

-- Chunks that do not end the header, behind what is kept of it, which the limit has let through.
theorem feedAll_unended (small : kept.length ≤ limits.maxHeader) (unended : ¬ terminator <:+: kept ++ early.flatten) :
    ∃ reports lost last, Searched limits (kept ++ early.flatten) reports lost last ∧
      (holding limits kept).feedAll early = (List.replicate reports limits.oversize, holding limits last) := by
  induction early generalizing kept with
  | nil =>
    refine ⟨0, [], kept, ⟨by simp, .inl rfl, ?_, by simp⟩, rfl⟩
    simpa using small
  | cons chunk early ih =>
    rw [List.flatten_cons, ← List.append_assoc] at unended ⊢
    have first : ¬ terminator <:+: kept ++ chunk := fun found => unended (found.trans (List.prefix_append ..).isInfix)
    rw [feedAll_cons, feed_unended first]
    split
    · rename_i large
      have long : 3 < (kept ++ chunk).length := Nat.lt_trans limits.room large
      obtain ⟨front, some', cut, three⟩ := exists_cut long
      have short : (tail (kept ++ chunk)).length ≤ limits.maxHeader := three ▸ Nat.le_of_succ_le limits.room
      rw [cut, List.append_assoc] at unended
      obtain ⟨reports, lost, last, searched, fed⟩ :=
        ih short fun found => unended (found.trans (List.suffix_append ..).isInfix)
      have whole : kept ++ chunk ++ early.flatten = front ++ (tail (kept ++ chunk) ++ early.flatten) := by
        rw [← List.append_assoc, ← cut]
      have longer : limits.maxHeader < (front ++ (tail (kept ++ chunk) ++ early.flatten)).length := by
        rw [← whole, List.length_append]
        omega
      refine ⟨reports + 1, front ++ lost, last, whole ▸ searched.behind some' three longer, ?_⟩
      rw [fed]
      rfl
    · rename_i fits
      exact ih (Nat.le_of_not_lt fits) unended

-- What is kept of a header is enough to find its end where it is.
theorem splitBlock_kept (unended : ¬ terminator <:+: lost ++ last) (enough : lost = [] ∨ 3 ≤ last.length)
    (split : splitBlock (lost ++ last ++ late) = some (block, rest)) :
    ∃ read, block = lost ++ read ∧ splitBlock (last ++ late) = some (read, rest) := by
  have late' := splitBlock_late split (splitBlock_eq_none.mpr unended)
  obtain ⟨whole, first⟩ := splitBlock_iff.mp split
  have short : lost.length ≤ block.length := by
    rcases enough with rfl | enough
    · exact Nat.zero_le _
    · simp only [List.length_append, terminator, List.length_cons, List.length_nil] at late'
      omega
  have inside : lost <+: block := by
    refine List.prefix_of_prefix_length_le ?_ ⟨terminator ++ rest, (List.append_assoc ..).symm⟩ short
    rw [← whole, List.append_assoc]
    exact List.prefix_append ..
  obtain ⟨read, rfl⟩ := inside
  refine ⟨read, rfl, splitBlock_iff.mpr ⟨?_, fun s cut ends => ?_⟩⟩
  · simpa using whole
  · have same := first (lost ++ s) (by simpa using cut) (ends.trans (List.suffix_append ..))
    simpa using same

-- The run behind a header, whose lines have been read from some octets.
def behindHeader (limits : Limits) (read : List UInt8) (chunks : List (List UInt8)) : List Item × Decoder :=
  match readBlock read with
  | .error fault => following [.fault fault] ((holding limits []).feedAll chunks)
  | .ok length =>
    if limits.maxBody < length then
      following [.fault (.frameTooLarge length limits.maxBody)] (feedAll { limits := limits, phase := .skip length } chunks)
    else feedAll { limits := limits, phase := .body length } chunks

theorem feedAll_ended {read : List UInt8} (split : splitBlock (kept ++ late) = some (read, rest))
    (more : List (List UInt8)) : (holding limits kept).feedAll (late :: more) = behindHeader limits read (rest :: more) := by
  have split' : splitBlock ((holding limits kept).push late).buffer = some (read, rest) := split
  rw [feedAll_cons, feed, behindHeader]
  cases readAs : readBlock read with
  | error fault =>
    rw [drain_of_some (d := push (holding limits kept) late) (nextHeader_fault split' readAs)]
    rfl
  | ok length =>
    dsimp only
    split
    · rename_i large
      rw [drain_of_some (d := push (holding limits kept) late) (nextHeader_large split' readAs large)]
      rfl
    · rename_i small
      let waiting : Decoder := { limits := limits, phase := .body length }
      have same : (push (holding limits kept) late).next = (waiting.push rest).next :=
        nextHeader_body split' readAs (Nat.le_of_not_lt small)
      rw [drain_congr same]
      rfl

-- A header that comes in several chunks is read from what is kept of it when its end comes.
theorem feedAll_header (unended : ¬ terminator <:+: early.flatten)
    (split : splitBlock (early.flatten ++ late) = some (block, rest)) (more : List (List UInt8)) :
    ∃ reports lost kept read, Searched limits early.flatten reports lost kept ∧ block = lost ++ read ∧
      (holding limits []).feedAll (early ++ late :: more) =
        following (List.replicate reports limits.oversize) (behindHeader limits read (rest :: more)) := by
  have small : ([] : List UInt8).length ≤ limits.maxHeader := Nat.zero_le _
  obtain ⟨reports, lost, kept, searched, fed⟩ := feedAll_unended small unended
  rw [List.nil_append] at searched
  rw [searched.parts] at split
  obtain ⟨read, same, split'⟩ := splitBlock_kept (searched.parts ▸ unended) searched.enough split
  refine ⟨reports, lost, kept, read, searched, same, ?_⟩
  rw [feedAll_append, fed, feedAll_ended split']

end Decoder
end DuplexRpc.Framing
