import DuplexRpc.Proofs.Framing.Delivery

namespace DuplexRpc.Framing
variable {limits : Limits} {buffer block rest more : List UInt8} {d after : Decoder} {item : Item}

-- A block ends at the first terminator: none ends earlier.
theorem splitBlock_iff : splitBlock buffer = some (block, rest) ↔
    buffer = block ++ terminator ++ rest ∧
      ∀ s, s <+: block ++ terminator → terminator <:+ s → s = block ++ terminator := by
  constructor
  · intro split
    refine ⟨splitBlock_some split, ?_⟩
    induction buffer generalizing block with
    | nil => cases split
    | cons b tail ih =>
      intro s cut ends
      have whole := splitBlock_some split
      unfold splitBlock at split
      split at split
      · obtain ⟨rfl, _⟩ := Prod.mk.inj (Option.some.inj split)
        exact cut.eq_of_length (Nat.le_antisymm cut.length_le ends.length_le)
      · rename_i other
        obtain ⟨⟨inner, back⟩, found, same⟩ := Option.map_eq_some_iff.mp split
        obtain ⟨rfl, rfl⟩ := Prod.mk.inj same
        cases s with
        | nil => exact absurd ends.length_le (by decide)
        | cons c s =>
          obtain ⟨rfl, cut'⟩ := List.cons_prefix_cons.mp cut
          rcases List.suffix_cons_iff.mp ends with here | later
          · have begins : terminator <+: c :: tail := by
              rw [here, whole]
              exact cut.trans (List.prefix_append ..)
            exact absurd (List.isPrefixOf_iff_prefix.mpr begins) other
          · rw [ih found s cut' later]
            rfl
  · rintro ⟨rfl, first⟩
    induction block with
    | nil => rfl
    | cons b block ih =>
      have other : ¬ terminator.isPrefixOf (b :: (block ++ terminator ++ rest)) = true := by
        intro begins
        have cut : terminator <+: b :: (block ++ terminator) ++ rest := List.isPrefixOf_iff_prefix.mp begins
        have inside : terminator <+: b :: (block ++ terminator) := by
          apply List.prefix_of_prefix_length_le cut (List.prefix_append ..)
          simp only [List.length_cons, List.length_append]
          omega
        have same := congrArg List.length (first terminator inside List.suffix_rfl)
        simp only [List.cons_append, List.length_cons, List.length_append] at same
        omega
      have later : ∀ s, s <+: block ++ terminator → terminator <:+ s → s = block ++ terminator := by
        intro s cut ends
        have whole := first (b :: s) (List.cons_prefix_cons.mpr ⟨rfl, cut⟩) (ends.trans (List.suffix_cons ..))
        exact (List.cons.inj whole).2
      change splitBlock (b :: (block ++ terminator ++ rest)) = _
      rw [splitBlock, if_neg other, ih later]
      rfl

theorem splitBlock_append (split : splitBlock buffer = some (block, rest)) (more : List UInt8) :
    splitBlock (buffer ++ more) = some (block, rest ++ more) := by
  obtain ⟨rfl, first⟩ := splitBlock_iff.mp split
  exact splitBlock_iff.mpr ⟨List.append_assoc .., first⟩

-- A block that shows only once more octets have come was cut off.
theorem splitBlock_late (split : splitBlock (buffer ++ more) = some (block, rest)) (early : splitBlock buffer = none) :
    buffer.length < (block ++ terminator).length := by
  apply Nat.lt_of_not_le
  intro long
  obtain ⟨whole, first⟩ := splitBlock_iff.mp split
  have cut : block ++ terminator <+: buffer := by
    apply List.prefix_of_prefix_length_le _ (List.prefix_append buffer more) long
    rw [whole]
    exact List.prefix_append ..
  obtain ⟨back, rfl⟩ := cut
  cases early.symm.trans (splitBlock_iff.mpr ⟨rfl, first⟩)

-- The header that some octets begin with, with its terminator once that has come.
def headerOf (octets : List UInt8) : List UInt8 :=
  match splitBlock octets with
  | some (block, _) => block ++ terminator
  | none => octets

-- Without a terminator all octets so far belong to the header.
theorem headerOf_early (early : splitBlock buffer = none) : buffer.length ≤ (headerOf (buffer ++ more)).length := by
  unfold headerOf
  cases split : splitBlock (buffer ++ more) with
  | none => simp
  | some found => exact Nat.le_of_lt (splitBlock_late split early)

namespace Decoder

-- The header at the next boundary of a frame, once the boundary is reached.
def header? (d : Decoder) : Option (List UInt8) :=
  match d.phase with
  | .header => some (headerOf d.buffer)
  | .body _ => none
  | .skip remaining => if d.buffer.length < remaining then none else some (headerOf (d.buffer.drop remaining))

-- All headers met until the buffered octets hold no further item.
def headers (d : Decoder) : List (List UInt8) :=
  match _h : d.next with
  | (none, _) => d.header?.toList
  | (some _, after) => d.header?.toList ++ after.headers
termination_by d.weight
decreasing_by exact weight_next _h

-- No header that is met is longer than the limit.
def Fits (d : Decoder) : Prop := ∀ h ∈ d.headers, h.length ≤ d.limits.maxHeader

instance (d : Decoder) : Decidable d.Fits := inferInstanceAs (Decidable (∀ h ∈ d.headers, h.length ≤ d.limits.maxHeader))

-- Chunks arrive one after another.
def feedAll (d : Decoder) : List (List UInt8) → List Item × Decoder
  | [] => ([], d)
  | chunk :: chunks =>
    let (items, after) := d.feed chunk
    let (later, last) := after.feedAll chunks
    (items ++ later, last)

theorem push_push (d : Decoder) (one two : List UInt8) : (d.push one).push two = d.push (one ++ two) := by
  simp [push]

theorem drain_of_some (next : d.next = (some item, after)) : d.drain = (item :: after.drain.1, after.drain.2) := by
  rw [drain]
  split
  · rename_i other
    cases other.symm.trans next
  · rename_i same
    cases same.symm.trans next
    rfl

theorem drain_of_none (next : d.next = (none, after)) : d.drain = ([], after) := by
  rw [drain]
  split
  · rename_i same
    cases same.symm.trans next
    rfl
  · rename_i other
    cases other.symm.trans next

theorem headers_of_some (next : d.next = (some item, after)) : d.headers = d.header?.toList ++ after.headers := by
  rw [headers]
  split
  · rename_i other
    cases other.symm.trans next
  · rename_i same
    cases same.symm.trans next
    rfl

theorem headers_of_none (next : d.next = (none, after)) : d.headers = d.header?.toList := by
  rw [headers]
  split
  · rfl
  · rename_i other
    cases other.symm.trans next

theorem mem_headers {h : List UInt8} (met : d.header? = some h) : h ∈ d.headers := by
  cases next : d.next with
  | mk found after =>
    cases found with
    | none => simp [headers_of_none next, met]
    | some item => simp [headers_of_some next, met]

theorem header?_skip {remaining : Nat} {h : List UInt8} (phase : d.phase = .skip remaining) :
    d.header? = some h ↔ remaining ≤ d.buffer.length ∧ headerOf (d.buffer.drop remaining) = h := by
  by_cases early : d.buffer.length < remaining
  · simp [header?, phase, early, Nat.not_le.mpr early]
  · simp [header?, phase, early, Nat.le_of_not_lt early]

@[simp] theorem push_limits (d : Decoder) (chunk : List UInt8) : (d.push chunk).limits = d.limits := rfl

theorem nextBody_limits (d : Decoder) (length : Nat) : (d.nextBody length).2.limits = d.limits := by
  unfold nextBody
  split <;> rfl

theorem nextHeader_limits (d : Decoder) : d.nextHeader.2.limits = d.limits := by
  unfold nextHeader
  split
  · split <;> rfl
  · split
    · rfl
    · split
      · rfl
      · exact nextBody_limits ..

theorem next_limits (d : Decoder) : d.next.2.limits = d.limits := by
  unfold next
  split
  · exact nextHeader_limits d
  · exact nextBody_limits ..
  · unfold nextSkip
    split
    · rfl
    · exact nextHeader_limits _

-- An item that is there stays when more octets come; where octets were missing, the decoder
-- that waits takes them up.
def resume (more : List UInt8) : Option Item × Decoder → Option Item × Decoder
  | (some item, after) => (some item, after.push more)
  | (none, after) => (after.push more).next

theorem nextBody_push (d : Decoder) (more : List UInt8) (length : Nat) :
    (d.push more).nextBody length = resume more (d.nextBody length) := by
  by_cases short : d.buffer.length < length
  · have waits : d.nextBody length = (none, { d with phase := .body length }) := if_pos short
    rw [waits]
    rfl
  · have enough : length ≤ d.buffer.length := Nat.le_of_not_lt short
    have enough' : ¬ (d.buffer ++ more).length < length := by
      simp only [List.length_append]
      omega
    simp only [nextBody, push, if_neg short, if_neg enough', resume, List.take_append_of_le_length enough,
      List.drop_append_of_le_length enough]

-- The phase plays no part once a header is read.
theorem nextHeader_phase (d : Decoder) (phase : Phase) : ({ d with phase := phase }).nextHeader = d.nextHeader := by
  simp only [nextHeader, nextBody]

theorem nextHeader_wait (split : splitBlock d.buffer = none) (small : d.buffer.length ≤ d.limits.maxHeader) :
    d.nextHeader = (none, { d with phase := .header }) := by
  simp only [nextHeader, split, if_neg (Nat.not_lt.mpr small)]

theorem nextHeader_fault {fault : Fault} (split : splitBlock d.buffer = some (block, rest))
    (read : readBlock block = .error fault) :
    d.nextHeader = (some (.fault fault), { d with phase := .header, buffer := rest }) := by
  simp only [nextHeader, split, read]

theorem nextHeader_large {length : Nat} (split : splitBlock d.buffer = some (block, rest))
    (read : readBlock block = .ok length) (large : d.limits.maxBody < length) :
    d.nextHeader = (some (.fault (.frameTooLarge length d.limits.maxBody)),
      { d with phase := .skip length, buffer := rest }) := by
  simp only [nextHeader, split, read, if_pos large]

theorem nextHeader_body {length : Nat} (split : splitBlock d.buffer = some (block, rest))
    (read : readBlock block = .ok length) (small : length ≤ d.limits.maxBody) :
    d.nextHeader = nextBody { d with buffer := rest } length := by
  simp only [nextHeader, split, read, if_neg (Nat.not_lt.mpr small)]

theorem nextHeader_push (more : List UInt8) (fits : (headerOf (d.buffer ++ more)).length ≤ d.limits.maxHeader) :
    (d.push more).nextHeader = resume more d.nextHeader := by
  cases split : splitBlock d.buffer with
  | none =>
    rw [nextHeader_wait split (Nat.le_trans (headerOf_early split) fits)]
    exact (nextHeader_phase (d.push more) .header).symm
  | some found =>
    obtain ⟨block, rest⟩ := found
    have split' : splitBlock (d.push more).buffer = some (block, rest ++ more) := splitBlock_append split more
    cases read : readBlock block with
    | error fault =>
      rw [nextHeader_fault split read, nextHeader_fault split' read]
      rfl
    | ok length =>
      by_cases large : d.limits.maxBody < length
      · rw [nextHeader_large split read large, nextHeader_large split' read large]
        rfl
      · have small := Nat.le_of_not_lt large
        rw [nextHeader_body split read small, nextHeader_body split' read small]
        exact nextBody_push { d with buffer := rest } more length

theorem nextSkip_wait {remaining : Nat} (short : d.buffer.length < remaining) :
    d.nextSkip remaining = (none, { d with phase := .skip (remaining - d.buffer.length), buffer := [] }) :=
  if_pos short

theorem nextSkip_header {remaining : Nat} (enough : remaining ≤ d.buffer.length) :
    d.nextSkip remaining = nextHeader { d with buffer := d.buffer.drop remaining } :=
  if_neg (Nat.not_lt.mpr enough)

-- Octets that are skipped are the same octets whether they are skipped at once or not.
theorem nextSkip_append (d : Decoder) (more : List UInt8) {remaining : Nat} (short : d.buffer.length < remaining) :
    (d.push more).nextSkip remaining =
      nextSkip { d with phase := .skip (remaining - d.buffer.length), buffer := more } (remaining - d.buffer.length) := by
  have total : (d.push more).buffer.length = d.buffer.length + more.length := List.length_append
  by_cases short' : more.length < remaining - d.buffer.length
  · rw [nextSkip_wait (by omega), nextSkip_wait short', total, Nat.sub_add_eq]
    rfl
  · have cut : (d.buffer ++ more).drop remaining = more.drop (remaining - d.buffer.length) := by
      rw [List.drop_append, List.drop_eq_nil_of_le (Nat.le_of_lt short)]
      rfl
    rw [nextSkip_header (by omega), nextSkip_header (Nat.le_of_not_lt short')]
    simp only [push, cut]
    exact (nextHeader_phase _ _).symm

theorem nextSkip_push (more : List UInt8) (remaining : Nat)
    (fits : remaining ≤ d.buffer.length →
      (headerOf ((d.buffer ++ more).drop remaining)).length ≤ d.limits.maxHeader) :
    (d.push more).nextSkip remaining = resume more (d.nextSkip remaining) := by
  by_cases short : d.buffer.length < remaining
  · rw [nextSkip_append d more short, nextSkip_wait short]
    rfl
  · have enough : remaining ≤ d.buffer.length := Nat.le_of_not_lt short
    have cut : (d.buffer ++ more).drop remaining = d.buffer.drop remaining ++ more :=
      List.drop_append_of_le_length enough
    have enough' : remaining ≤ (d.push more).buffer.length := by
      simp only [push, List.length_append]
      omega
    rw [nextSkip_header enough, nextSkip_header enough']
    rw [← nextHeader_push (d := { d with buffer := d.buffer.drop remaining }) more (cut ▸ fits enough)]
    simp only [push, cut]

theorem next_push (more : List UInt8) (fits : ∀ h, (d.push more).header? = some h → h.length ≤ d.limits.maxHeader) :
    (d.push more).next = resume more d.next := by
  cases phase : d.phase with
  | header =>
    have here : (d.push more).header? = some (headerOf (d.buffer ++ more)) := by simp [header?, push, phase]
    simp only [next, push, phase]
    exact nextHeader_push more (fits _ here)
  | body length =>
    simp only [next, push, phase]
    exact nextBody_push d more length
  | skip remaining =>
    simp only [next, push, phase]
    apply nextSkip_push
    intro enough
    have reached : remaining ≤ (d.buffer ++ more).length := by
      simp only [List.length_append]
      omega
    exact fits _ ((header?_skip (d := d.push more) phase).mpr ⟨reached, rfl⟩)

theorem nextBody_none {length : Nat} (waits : d.nextBody length = (none, after)) :
    d.buffer.length < length ∧ after = { d with phase := .body length } := by
  unfold nextBody at waits
  split at waits
  · rename_i short
    obtain ⟨_, rfl⟩ := Prod.mk.inj waits
    exact ⟨short, rfl⟩
  · cases waits

-- A decoder waits for the end of a header, or for the end of a body whose header it has read.
theorem nextHeader_none (waits : d.nextHeader = (none, after)) :
    d.nextHeader = (none, { d with phase := .header }) ∧ after = { d with phase := .header } ∨
      ∃ length rest, rest.length < length ∧ after = { d with phase := .body length, buffer := rest } := by
  cases split : splitBlock d.buffer with
  | none =>
    by_cases small : d.buffer.length ≤ d.limits.maxHeader
    · have found := nextHeader_wait split small
      cases waits.symm.trans found
      exact .inl ⟨found, rfl⟩
    · simp [nextHeader, split, Nat.lt_of_not_le small] at waits
  | some found =>
    obtain ⟨block, rest⟩ := found
    cases read : readBlock block with
    | error fault => cases waits.symm.trans (nextHeader_fault split read)
    | ok length =>
      by_cases large : d.limits.maxBody < length
      · cases waits.symm.trans (nextHeader_large split read large)
      · rw [nextHeader_body split read (Nat.le_of_not_lt large)] at waits
        obtain ⟨short, rfl⟩ := nextBody_none waits
        exact .inr ⟨length, rest, short, rfl⟩

-- A decoder that has found no item finds none until more octets come, and it has read no
-- header but those that are met anyway.
theorem next_none (waits : d.next = (none, after)) : after.next = (none, after) ∧
    ∀ more h, (after.push more).header? = some h → (d.push more).header? = some h := by
  cases phase : d.phase with
  | header =>
    simp only [next, phase] at waits
    rcases nextHeader_none waits with ⟨found, rfl⟩ | ⟨length, rest, short, rfl⟩
    · refine ⟨(nextHeader_phase d .header).trans found, ?_⟩
      intro more h met
      simpa [header?, push, phase] using met
    · refine ⟨if_pos short, ?_⟩
      intro more h met
      cases met
  | body length =>
    simp only [next, phase] at waits
    obtain ⟨short, rfl⟩ := nextBody_none waits
    refine ⟨if_pos short, ?_⟩
    intro more h met
    cases met
  | skip remaining =>
    simp only [next, phase] at waits
    by_cases short : d.buffer.length < remaining
    · rw [nextSkip_wait short] at waits
      obtain ⟨_, rfl⟩ := Prod.mk.inj waits
      have left : 0 < remaining - d.buffer.length := by omega
      refine ⟨nextSkip_wait left, ?_⟩
      intro more h met
      obtain ⟨reached, rfl⟩ := (header?_skip rfl).mp met
      simp only [push, List.nil_append] at reached ⊢
      refine (header?_skip (d := d.push more) phase).mpr ⟨?_, ?_⟩
      · simp only [push, List.length_append]
        omega
      · simp only [push, List.drop_append, List.drop_eq_nil_of_le (Nat.le_of_lt short), List.nil_append]
    · have enough := Nat.le_of_not_lt short
      rw [nextSkip_header enough] at waits
      rcases nextHeader_none waits with ⟨found, rfl⟩ | ⟨length, rest, missing, rfl⟩
      · refine ⟨(nextHeader_phase { d with buffer := d.buffer.drop remaining } .header).trans found, ?_⟩
        intro more h met
        refine (header?_skip (d := d.push more) phase).mpr ⟨?_, ?_⟩
        · simp only [push, List.length_append]
          omega
        · simp only [push, List.drop_append_of_le_length enough]
          exact Option.some.inj met
      · refine ⟨if_pos missing, ?_⟩
        intro more h met
        cases met

theorem Fits.header {h : List UInt8} (fits : d.Fits) (met : d.header? = some h) : h.length ≤ d.limits.maxHeader :=
  fits h (mem_headers met)

theorem Fits.next (fits : d.Fits) (next : d.next = (some item, after)) : after.Fits := by
  intro h met
  have limits : after.limits = d.limits := by simpa [next] using d.next_limits
  rw [limits]
  apply fits
  rw [headers_of_some next]
  exact List.mem_append_right _ met

theorem Fits.waits (fits : (d.push more).Fits) (waits : d.next = (none, after))
    (same : (d.push more).next = (after.push more).next) : (after.push more).Fits := by
  have limits : after.limits = d.limits := by simpa [waits] using d.next_limits
  obtain ⟨_, known⟩ := next_none waits
  intro h met
  rw [push_limits, limits]
  cases next : (after.push more).next with
  | mk found last =>
    cases found with
    | none =>
      rw [headers_of_none next] at met
      exact fits.header (known more h (by simpa using met))
    | some item =>
      rw [headers_of_some next, List.mem_append] at met
      rcases met with first | later
      · exact fits.header (known more h (by simpa using first))
      · apply fits
        rw [headers_of_some (same.trans next)]
        exact List.mem_append_right _ later

-- Draining what has come and then what comes later is draining it all.
theorem drain_push (d : Decoder) (more : List UInt8) (fits : (d.push more).Fits) :
    (d.push more).drain = (d.drain.1 ++ (d.drain.2.push more).drain.1, (d.drain.2.push more).drain.2) ∧
      (d.drain.2.push more).Fits := by
  induction d using drain.induct with
  | case1 d after waits =>
    have same : (d.push more).next = (after.push more).next := by
      rw [next_push (d := d) more fun h met => fits.header met, waits, resume]
    rw [drain_of_none waits]
    refine ⟨?_, fits.waits waits same⟩
    rw [drain, drain, same]
    rfl
  | case2 d item after next _ _ _ ih =>
    have same : (d.push more).next = (some item, after.push more) := by
      rw [next_push (d := d) more fun h met => fits.header met, next, resume]
    obtain ⟨whole, fits'⟩ := ih (fits.next same)
    rw [drain_of_some next, drain_of_some same, whole]
    exact ⟨rfl, fits'⟩

theorem drain_waits (d : Decoder) : d.drain.2.next = (none, d.drain.2) := by
  induction d using drain.induct with
  | case1 d after waits =>
    rw [drain_of_none waits]
    exact (next_none waits).1
  | case2 d item after next _ _ _ ih =>
    rw [drain_of_some next]
    exact ih

-- A decoder that has been fed waits for more, and asking it again changes nothing.
theorem feedAll_waits (waits : d.next = (none, d)) (chunks : List (List UInt8)) :
    (d.feedAll chunks).2.next = (none, (d.feedAll chunks).2) := by
  induction chunks generalizing d with
  | nil => exact waits
  | cons chunk chunks ih => exact ih (drain_waits _)

-- A decoder that waits takes chunks one after another as it takes them at once.
theorem feedAll_flatten (waits : d.next = (none, d)) (chunks : List (List UInt8)) (fits : (d.push chunks.flatten).Fits) :
    d.feedAll chunks = d.feed chunks.flatten := by
  induction chunks generalizing d with
  | nil =>
    have same : d.push [] = d := by simp [push]
    rw [List.flatten_nil, feed, same, drain_of_none waits]
    rfl
  | cons chunk chunks ih =>
    rw [List.flatten_cons, ← push_push] at fits
    obtain ⟨whole, fits'⟩ := drain_push (d.push chunk) chunks.flatten fits
    rw [List.flatten_cons, feed, ← push_push, whole, feedAll]
    dsimp only [feed]
    rw [ih (drain_waits _) fits']
    rfl

theorem initial_waits (limits : Limits) : ({ limits := limits } : Decoder).next = (none, { limits := limits }) :=
  nextHeader_wait (d := { limits := limits }) rfl (Nat.zero_le _)

-- How a stream is cut into chunks makes no difference to what comes out of it and to what is
-- left, as long as no header of the stream is longer than the limit.
theorem cuts_make_no_difference (limits : Limits) (one two : List (List UInt8)) (same : one.flatten = two.flatten)
    (fits : ({ limits := limits, buffer := one.flatten } : Decoder).Fits) :
    feedAll { limits := limits } one = feedAll { limits := limits } two := by
  rw [feedAll_flatten (initial_waits limits) one fits, feedAll_flatten (initial_waits limits) two (same ▸ fits), same]

-- A frame, a frame too large, a header that is none and the begin of another, cut inside a
-- terminator, inside a length and inside what is skipped.
theorem cuts_make_no_difference_mixed :
    ∃ stream : List UInt8,
      ({ limits := .of 4 21, buffer := stream } : Decoder).Fits ∧
      feedAll { limits := .of 4 21 } [stream.take 19, (stream.drop 19).take 19, [], (stream.drop 38).take 8, stream.drop 46] =
        feedAll { limits := .of 4 21 } [stream] ∧
      (feedAll { limits := .of 4 21 } [stream]).1 =
        [.body [111, 107], .fault (.frameTooLarge 5 4), .fault (.malformedLine "none")] := by
  let stream := Utf8.encode "Content-Length: 2\r\n\r\nokContent-Length: 5\r\n\r\nabcdenone\r\n\r\nConte".toList
  have fits : ({ limits := .of 4 21, buffer := stream } : Decoder).Fits := by decide +kernel
  refine ⟨stream, fits, ?_, by decide +kernel⟩
  symm
  apply cuts_make_no_difference
  · decide +kernel
  · rw [List.flatten_singleton]
    exact fits

end Decoder
end DuplexRpc.Framing
