import DuplexRpc.Proofs.Framing.Search

namespace DuplexRpc.Framing

-- The first octets of what comes in chunks, and the chunks behind them, the rest of the last
-- one first.
def takeOctets : Nat → List (List UInt8) → Option (List UInt8 × List (List UInt8))
  | _, [] => none
  | n, chunk :: more =>
    if n ≤ chunk.length then some (chunk.take n, chunk.drop n :: more)
    else (takeOctets (n - chunk.length) more).map fun (octets, behind) => (chunk ++ octets, behind)

-- A header as it comes, in some chunks and the one that ends it. It is reported when more octets
-- than the limit come before that one, and then some of them are lost; otherwise it is read as a
-- whole, however long it is.
structure Heading (limits : Limits) (early : List (List UInt8)) (late : List UInt8) (reports : Nat)
    (read rest : List UInt8) : Prop where
  unended : ¬ terminator <:+: early.flatten
  split : ∃ lost kept, Searched limits early.flatten reports lost kept ∧
    splitBlock (early.flatten ++ late) = some (lost ++ read, rest)

-- What a stream yields, header by header.
inductive Yields (limits : Limits) : List (List UInt8) → List Item → Prop
  | unended {chunks reports lost kept} : ¬ terminator <:+: chunks.flatten →
      Searched limits chunks.flatten reports lost kept → Yields limits chunks (List.replicate reports limits.oversize)
  | refused {early late more reports read rest fault items} : Heading limits early late reports read rest →
      readBlock read = .error fault → Yields limits (rest :: more) items →
      Yields limits (early ++ late :: more) (List.replicate reports limits.oversize ++ .fault fault :: items)
  | skipped {early late more reports read rest length octets behind items} :
      Heading limits early late reports read rest → readBlock read = .ok length → limits.maxBody < length →
      takeOctets length (rest :: more) = some (octets, behind) → Yields limits behind items →
      Yields limits (early ++ late :: more)
        (List.replicate reports limits.oversize ++ .fault (.frameTooLarge length limits.maxBody) :: items)
  | skipping {early late more reports read rest length} :
      Heading limits early late reports read rest → readBlock read = .ok length → limits.maxBody < length →
      takeOctets length (rest :: more) = none →
      Yields limits (early ++ late :: more)
        (List.replicate reports limits.oversize ++ [.fault (.frameTooLarge length limits.maxBody)])
  | delivered {early late more reports read rest length octets behind items} :
      Heading limits early late reports read rest → readBlock read = .ok length → length ≤ limits.maxBody →
      takeOctets length (rest :: more) = some (octets, behind) → Yields limits behind items →
      Yields limits (early ++ late :: more) (List.replicate reports limits.oversize ++ .body octets :: items)
  | awaited {early late more reports read rest length} :
      Heading limits early late reports read rest → readBlock read = .ok length → length ≤ limits.maxBody →
      takeOctets length (rest :: more) = none →
      Yields limits (early ++ late :: more) (List.replicate reports limits.oversize)

variable {limits : Limits} {read octets kept rest late : List UInt8} {early chunks more behind : List (List UInt8)} {length : Nat}

theorem takeOctets_some (taken : takeOctets length chunks = some (octets, behind)) :
    octets.length = length ∧ chunks.flatten = octets ++ behind.flatten := by
  induction chunks generalizing length octets with
  | nil => cases taken
  | cons chunk more ih =>
    rw [takeOctets] at taken
    split at taken
    · rename_i enough
      cases taken
      refine ⟨by simp [enough], ?_⟩
      rw [List.flatten_cons, List.flatten_cons, ← List.append_assoc, List.take_append_drop]
    · rename_i short
      obtain ⟨⟨later, _⟩, found, same⟩ := Option.map_eq_some_iff.mp taken
      cases same
      obtain ⟨counted, whole⟩ := ih found
      refine ⟨?_, by simp [whole]⟩
      simp only [List.length_append, counted]
      omega

theorem takeOctets_length (taken : takeOctets length chunks = some (octets, behind)) :
    behind.flatten.length ≤ chunks.flatten.length := by
  rw [(takeOctets_some taken).2, List.length_append]
  exact Nat.le_add_left ..

-- Of chunks that hold a terminator, one is the first to end one.
theorem exists_late (unended : ¬ terminator <:+: kept) (ended : terminator <:+: kept ++ chunks.flatten) :
    ∃ early late more block rest, chunks = early ++ late :: more ∧ ¬ terminator <:+: kept ++ early.flatten ∧
      splitBlock (kept ++ early.flatten ++ late) = some (block, rest) := by
  induction chunks generalizing kept with
  | nil => exact absurd (by simpa using ended) unended
  | cons chunk chunks ih =>
    by_cases here : terminator <:+: kept ++ chunk
    · obtain ⟨⟨block, rest⟩, split⟩ : ∃ found, splitBlock (kept ++ chunk) = some found := by
        rw [← Option.ne_none_iff_exists']
        exact fun missing => splitBlock_eq_none.mp missing here
      exact ⟨[], chunk, chunks, block, rest, rfl, by simpa using unended, by simpa using split⟩
    · obtain ⟨early, late, more, block, rest, rfl, unended', split⟩ := ih here (by simpa using ended)
      exact ⟨chunk :: early, late, more, block, rest, rfl, by simpa using unended', by simpa using split⟩

namespace Decoder

-- A body that is waited for is delivered when its last octet has come.
theorem feedAll_body (short : kept = [] ∨ kept.length < length) :
    feedAll { limits := limits, phase := .body length, buffer := kept } chunks =
      match takeOctets (length - kept.length) chunks with
      | some (octets, behind) => following [.body (kept ++ octets)] ((holding limits []).feedAll behind)
      | none => ([], { limits := limits, phase := .body length, buffer := kept ++ chunks.flatten }) := by
  induction chunks generalizing kept with
  | nil => simp [feedAll, takeOctets]
  | cons chunk more ih =>
    let d : Decoder := { limits := limits, phase := .body length, buffer := kept }
    have fits : kept.length ≤ length := by
      rcases short with rfl | short
      · exact Nat.zero_le _
      · exact Nat.le_of_lt short
    by_cases enough : length - kept.length ≤ chunk.length
    · rw [takeOctets, if_pos enough]
      have all : ¬ (kept ++ chunk).length < length := by
        simp only [List.length_append]
        omega
      have yields : (d.push chunk).next =
          (some (.body (kept ++ chunk.take (length - kept.length))), holding limits (chunk.drop (length - kept.length))) := by
        simp only [d, next, push, nextBody, if_neg all, List.take_append, List.take_of_length_le fits,
          List.drop_append, List.drop_eq_nil_of_le fits, List.nil_append]
      rw [feedAll_cons, feed, drain_of_some yields]
      rfl
    · rw [takeOctets, if_neg enough]
      have less : (kept ++ chunk).length < length := by
        simp only [List.length_append]
        omega
      have waits : (d.push chunk).next = (none, { limits := limits, phase := .body length, buffer := kept ++ chunk }) :=
        if_pos less
      have left : length - (kept ++ chunk).length = length - kept.length - chunk.length := by
        simp only [List.length_append]
        omega
      rw [feedAll_cons, feed, drain_of_none waits, ih (.inr less), left]
      cases takeOctets (length - kept.length - chunk.length) more <;> simp

-- What is skipped yields nothing, and a header begins right behind it.
theorem feedAll_skip : feedAll { limits := limits, phase := .skip length } chunks =
    match takeOctets length chunks with
    | some (_, behind) => (holding limits []).feedAll behind
    | none => ([], { limits := limits, phase := .skip (length - chunks.flatten.length) }) := by
  induction chunks generalizing length with
  | nil => rfl
  | cons chunk more ih =>
    let d : Decoder := { limits := limits, phase := .skip length }
    by_cases enough : length ≤ chunk.length
    · rw [takeOctets, if_pos enough]
      have same : (d.push chunk).next = (push (holding limits []) (chunk.drop length)).next :=
        (nextSkip_header (d := d.push chunk) enough).trans (nextHeader_phase _ .header).symm
      rw [feedAll_cons, feed, drain_congr same]
      rfl
    · rw [takeOctets, if_neg enough]
      have waits : (d.push chunk).next = (none, { limits := limits, phase := .skip (length - chunk.length) }) :=
        nextSkip_wait (d := d.push chunk) (Nat.lt_of_not_le enough)
      rw [feedAll_cons, feed, drain_of_none waits, following_nil, ih]
      cases takeOctets (length - chunk.length) more <;> simp [Nat.sub_sub]

-- The limit of a header counts what comes of it before the chunk that ends it.
theorem header_limit_counts_what_came_before (limits : Limits) (chunks : List (List UInt8)) :
    Yields limits chunks (feedAll { limits := limits } chunks).1 := by
  -- A header and what it announces may take many chunks, or a part of one; there are fewer octets
  -- behind them each time.
  induction size : chunks.flatten.length using Nat.strongRecOn generalizing chunks with
  | ind n ih =>
    subst size
    by_cases ended : terminator <:+: chunks.flatten
    · have nothing : ¬ terminator <:+: [] := by decide
      obtain ⟨early, late, more, block, rest, rfl, unended, split⟩ := exists_late nothing ended
      rw [List.nil_append] at unended split
      obtain ⟨reports, lost, kept, read, searched, rfl, fed⟩ := feedAll_header unended split more
      have heading : Heading limits early late reports read rest := ⟨unended, lost, kept, searched, split⟩
      have fewer : (rest :: more).flatten.length < (early ++ late :: more).flatten.length := by
        have := length_splitBlock split
        simp only [List.flatten_append, List.flatten_cons, List.length_append] at this ⊢
        omega
      rw [fed, behindHeader]
      cases readAs : readBlock read with
      | error fault => exact .refused heading readAs (ih _ fewer _ rfl)
      | ok length =>
        dsimp only
        split
        · rename_i large
          rw [feedAll_skip]
          cases taken : takeOctets length (rest :: more) with
          | none => exact .skipping heading readAs large taken
          | some found =>
            have later := ih _ (Nat.lt_of_le_of_lt (takeOctets_length taken) fewer) _ rfl
            exact .skipped heading readAs large taken later
        · rename_i small
          have fits := Nat.le_of_not_lt small
          rw [feedAll_body (.inl rfl)]
          cases taken : takeOctets length (rest :: more) with
          | none => simpa [following] using Yields.awaited heading readAs fits taken
          | some found =>
            have later := ih _ (Nat.lt_of_le_of_lt (takeOctets_length taken) fewer) _ rfl
            exact .delivered heading readAs fits taken later
    · have start : ([] : List UInt8).length ≤ limits.maxHeader := Nat.zero_le _
      obtain ⟨reports, lost, last, searched, fed⟩ := feedAll_unended start ended
      rw [fed]
      exact .unended ended searched

-- A header that comes at once is delivered although it is longer than the limit. So is, after a
-- report, what is left of one that comes in two chunks.
theorem long_headers_are_delivered :
    let whole := Utf8.encode "Content-Length: 0\r\n\r\n".toList
    let early := Utf8.encode "X-Padding: aaaaaaaaa\r\nCon".toList
    let late := Utf8.encode "tent-Length: 0\r\n\r\n".toList
    headerOf whole = whole ∧ 16 < whole.length ∧
      feedAll { limits := .of 1024 16 } [whole] = ([.body []], holding (.of 1024 16) []) ∧
      headerOf (early ++ late) = early ++ late ∧ 16 < (early ++ late).length ∧
      feedAll { limits := .of 1024 16 } [early, late] =
        ([.fault (.headerTooLarge 16), .body []], holding (.of 1024 16) []) := by
  decide +kernel

end Decoder
end DuplexRpc.Framing
