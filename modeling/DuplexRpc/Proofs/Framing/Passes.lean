import Mathlib.Data.List.Infix
import DuplexRpc.Proofs.Framing.Buffering

namespace DuplexRpc.Framing

-- A difference that would be below zero is none.
def difference? (whole part : Nat) : Option Nat := if part ≤ whole then some (whole - part) else none

-- The first octets of a buffer and the others; there are none where the buffer is shorter.
def takeFirst? (count : Nat) (buffer : List UInt8) : Option (List UInt8 × List UInt8) :=
  if count ≤ buffer.length then some (buffer.take count, buffer.drop count) else none

-- The place of the first terminator.
def terminatorAt? (buffer : List UInt8) : Option Nat := buffer.tails.findIdx? terminator.isPrefixOf

namespace Decoder

-- What a pass of the decoder's loop comes to: an answer, or another pass.
inductive Turn where
  | answer (item : Option Item) (after : Decoder)
  | again (after : Decoder)

-- One pass, by the phase alone. It has no outcome if it would count below zero or take more octets
-- than there are. What a body lacks is only counted, to make room for it.
def pass? (d : Decoder) : Option Turn :=
  match d.phase with
  | .header =>
    match terminatorAt? d.buffer with
    | none =>
      if d.limits.maxHeader < d.buffer.length then do
        let keep ← difference? terminator.length 1
        let (_, kept) ← takeFirst? (d.buffer.length - keep) d.buffer
        return .answer (some (.fault (.headerTooLarge d.limits.maxHeader))) { d with buffer := kept }
      else return .answer none d
    | some place => do
      let (header, rest) ← takeFirst? (place + terminator.length) d.buffer
      let (block, _) ← takeFirst? place header
      match readBlock block with
      | .error fault => return .answer (some (.fault fault)) { d with buffer := rest }
      | .ok length =>
        if d.limits.maxBody < length then
          return .answer (some (.fault (.frameTooLarge length d.limits.maxBody)))
            { d with phase := .skip length, buffer := rest }
        else return .again { d with phase := .body length, buffer := rest }
  | .body length =>
    if d.buffer.length < length then do
      let _ ← difference? length d.buffer.length
      return .answer none d
    else do
      let (body, rest) ← takeFirst? length d.buffer
      return .answer (some (.body body)) { d with phase := .header, buffer := rest }
  | .skip remaining => do
    let skipped := min remaining d.buffer.length
    let (_, rest) ← takeFirst? skipped d.buffer
    if skipped < remaining then do
      let left ← difference? remaining skipped
      return .answer none { d with phase := .skip left, buffer := rest }
    else return .again { d with phase := .header, buffer := rest }

-- One call: passes follow one another until one answers.
inductive Answers : Decoder → Nat → Option Item × Decoder → Prop
  | last {d item after} : d.pass? = some (.answer item after) → Answers d 1 (item, after)
  | again {d mid passes result} : d.pass? = some (.again mid) → Answers mid passes result →
      Answers d (passes + 1) result

-- Calls until one gives no item.
inductive Empties : Decoder → List Item → Decoder → Prop
  | last {d passes after} : Answers d passes (none, after) → Empties d [] after
  | more {d passes item mid items last} : Answers d passes (some item, mid) → Empties mid items last →
      Empties d (item :: items) last

-- The phases that come about under some limits, whatever is buffered at each call.
inductive Attained (limits : Limits) : Phase → Prop
  | initial : Attained limits .header
  | called {phase buffer passes item after} : Attained limits phase →
      Answers { limits := limits, phase := phase, buffer := buffer } passes (item, after) → Attained limits after.phase

-- A run: octets come and items are asked for in any order.
inductive Run (limits : Limits) : List UInt8 → List Item → Decoder → Prop
  | initial : Run limits [] [] { limits := limits }
  | pushed {received items d} (chunk : List UInt8) : Run limits received items d →
      Run limits (received ++ chunk) items (d.push chunk)
  | called {received items d passes item after} : Run limits received items d → Answers d passes (item, after) →
      Run limits received (items ++ item.toList) after

end Decoder

variable {limits : Limits} {phase : Phase} {buffer received : List UInt8} {items : List Item} {d after last : Decoder}
  {item : Item} {found : Option Item} {passes place length remaining : Nat} {result : Option Item × Decoder}

theorem takeFirst?_of_le {count : Nat} (enough : count ≤ buffer.length) :
    takeFirst? count buffer = some (buffer.take count, buffer.drop count) := if_pos enough

theorem difference?_of_le {whole part : Nat} (fits : part ≤ whole) : difference? whole part = some (whole - part) :=
  if_pos fits

theorem terminatorAt?_cons (b : UInt8) (buffer : List UInt8) : terminatorAt? (b :: buffer) =
    if terminator.isPrefixOf (b :: buffer) then some 0 else (terminatorAt? buffer).map (· + 1) := by
  rw [terminatorAt?, List.tails_cons, List.findIdx?_cons, ← terminatorAt?]

-- A block is what stands before the place, and the rest what stands behind the terminator.
theorem splitBlock_place? (buffer : List UInt8) : splitBlock buffer =
    (terminatorAt? buffer).map fun place => (buffer.take place, buffer.drop (place + terminator.length)) := by
  induction buffer with
  | nil => rfl
  | cons b buffer ih =>
    rw [splitBlock, terminatorAt?_cons]
    split
    · rfl
    · rw [ih, Option.map_map, Option.map_map]
      rfl

theorem terminatorAt?_room (found : terminatorAt? buffer = some place) :
    place + terminator.length ≤ buffer.length := by
  induction buffer generalizing place with
  | nil => cases found
  | cons b buffer ih =>
    rw [terminatorAt?_cons] at found
    split at found
    · rename_i begins
      cases found
      rw [Nat.zero_add]
      exact (List.isPrefixOf_iff_prefix.mp begins).length_le
    · obtain ⟨inner, found', rfl⟩ := Option.map_eq_some_iff.mp found
      have := ih found'
      rw [List.length_cons]
      omega

namespace Decoder

theorem answers_body (phase' : d.phase = .body length) : Answers d 1 (d.nextBody length) := by
  have same : { d with phase := .body length } = d := by rw [← phase']
  by_cases short : d.buffer.length < length
  · have waits : d.nextBody length = (none, d) := by rw [nextBody, if_pos short, same]
    rw [waits]
    apply Answers.last
    simp [pass?, phase', if_pos short, difference?_of_le (Nat.le_of_lt short)]
  · have yields : d.nextBody length =
        (some (.body (d.buffer.take length)), { d with phase := .header, buffer := d.buffer.drop length }) := if_neg short
    rw [yields]
    apply Answers.last
    simp [pass?, phase', if_neg short, takeFirst?_of_le (Nat.le_of_not_lt short)]

theorem answers_header (phase' : d.phase = .header) : ∃ passes ≤ 2, Answers d passes d.nextHeader := by
  have same : { d with phase := .header } = d := by rw [← phase']
  cases found : terminatorAt? d.buffer with
  | none =>
    have split : splitBlock d.buffer = none := by rw [splitBlock_place?, found]; rfl
    by_cases small : d.buffer.length ≤ d.limits.maxHeader
    · refine ⟨1, Nat.le_succ 1, ?_⟩
      rw [nextHeader_wait split small, same]
      apply Answers.last
      simp [pass?, phase', found, Nat.not_lt.mpr small]
    · have large := Nat.lt_of_not_le small
      refine ⟨1, Nat.le_succ 1, ?_⟩
      rw [nextHeader_oversize split large]
      apply Answers.last
      have keep : difference? terminator.length 1 = some 3 := rfl
      have enough : d.buffer.length - 3 ≤ d.buffer.length := Nat.sub_le ..
      simp [pass?, phase', found, large, keep, takeFirst?_of_le enough, Limits.oversize, tail]
  | some place =>
    have room := terminatorAt?_room found
    have split : splitBlock d.buffer = some (d.buffer.take place, d.buffer.drop (place + terminator.length)) := by
      rw [splitBlock_place?, found]
      rfl
    have inside : place ≤ (d.buffer.take (place + terminator.length)).length := by
      rw [List.length_take]
      omega
    have block : (d.buffer.take (place + terminator.length)).take place = d.buffer.take place := by
      rw [List.take_take, Nat.min_eq_left (Nat.le_add_right ..)]
    cases read : readBlock (d.buffer.take place) with
    | error fault =>
      refine ⟨1, Nat.le_succ 1, ?_⟩
      rw [nextHeader_fault split read]
      apply Answers.last
      simp [pass?, phase', found, takeFirst?_of_le room, takeFirst?_of_le inside, block, read]
    | ok length =>
      by_cases large : d.limits.maxBody < length
      · refine ⟨1, Nat.le_succ 1, ?_⟩
        rw [nextHeader_large split read large]
        apply Answers.last
        simp [pass?, phase', found, takeFirst?_of_le room, takeFirst?_of_le inside, block, read, large]
      · refine ⟨2, Nat.le_refl 2, ?_⟩
        rw [nextHeader_body split read (Nat.le_of_not_lt large)]
        have goes : d.pass? = some (.again
            { d with phase := .body length, buffer := d.buffer.drop (place + terminator.length) }) := by
          simp [pass?, phase', found, takeFirst?_of_le room, takeFirst?_of_le inside, block, read, large]
        exact .again goes (answers_body rfl)

theorem answers_skip (phase' : d.phase = .skip remaining) : ∃ passes ≤ 3, Answers d passes (d.nextSkip remaining) := by
  by_cases short : d.buffer.length < remaining
  · have all : min remaining d.buffer.length = d.buffer.length := Nat.min_eq_right (Nat.le_of_lt short)
    refine ⟨1, by decide, ?_⟩
    rw [nextSkip_wait short]
    apply Answers.last
    simp [pass?, phase', all, takeFirst?_of_le, short, difference?_of_le (Nat.le_of_lt short)]
  · have enough := Nat.le_of_not_lt short
    have some' : min remaining d.buffer.length = remaining := Nat.min_eq_left enough
    obtain ⟨passes, few, answers⟩ :=
      answers_header (d := { d with phase := .header, buffer := d.buffer.drop remaining }) rfl
    refine ⟨passes + 1, Nat.succ_le_succ few, ?_⟩
    rw [nextSkip_header enough, ← nextHeader_phase _ .header]
    apply Answers.again _ answers
    simp [pass?, phase', some', takeFirst?_of_le enough]

theorem answers_next (d : Decoder) : ∃ passes ≤ 3, Answers d passes d.next := by
  cases phase' : d.phase with
  | header =>
    obtain ⟨passes, few, answers⟩ := answers_header phase'
    rw [next, phase']
    exact ⟨passes, Nat.le_succ_of_le few, answers⟩
  | body length =>
    rw [next, phase']
    exact ⟨1, by decide, answers_body phase'⟩
  | skip remaining =>
    rw [next, phase']
    exact answers_skip phase'

-- A pass has one outcome, and so has a call.
theorem Answers.unique {others : Nat} {other : Option Item × Decoder} (one : Answers d passes result)
    (two : Answers d others other) : others = passes ∧ other = result := by
  induction one generalizing others with
  | last ends =>
    cases two with
    | last ends' => cases ends.symm.trans ends'; exact ⟨rfl, rfl⟩
    | again goes _ => cases ends.symm.trans goes
  | again goes _ ih =>
    cases two with
    | last ends => cases goes.symm.trans ends
    | again goes' later =>
      cases goes.symm.trans goes'
      obtain ⟨rfl, rfl⟩ := ih later
      exact ⟨rfl, rfl⟩

theorem exists_answer (d : Decoder) :
    ∃ count ≤ 3, ∀ passes result, Answers d passes result ↔ passes = count ∧ result = d.next := by
  obtain ⟨count, few, answers⟩ := answers_next d
  refine ⟨count, few, fun passes result => ⟨answers.unique, ?_⟩⟩
  rintro ⟨rfl, rfl⟩
  exact answers

theorem Answers.eq_next (answers : Answers d passes result) : result = d.next := by
  obtain ⟨_, _, known⟩ := exists_answer d
  exact ((known ..).mp answers).2

-- What is left of the buffer is its end.
theorem nextBody_suffix (d : Decoder) (length : Nat) : (d.nextBody length).2.buffer <:+ d.buffer := by
  unfold nextBody
  split
  · exact List.suffix_rfl
  · exact List.drop_suffix ..

theorem nextHeader_suffix (d : Decoder) : d.nextHeader.2.buffer <:+ d.buffer := by
  unfold nextHeader
  split
  · split
    · exact tail_suffix _
    · exact List.suffix_rfl
  · rename_i block rest split'
    have behind : rest <:+ d.buffer := ⟨block ++ terminator, (splitBlock_some split').symm⟩
    split
    · exact behind
    · split
      · exact behind
      · exact (nextBody_suffix { d with buffer := rest } _).trans behind

theorem next_suffix (d : Decoder) : d.next.2.buffer <:+ d.buffer := by
  unfold next
  split
  · exact nextHeader_suffix d
  · exact nextBody_suffix d _
  · unfold nextSkip
    split
    · exact List.nil_suffix
    · exact (nextHeader_suffix { d with buffer := d.buffer.drop _ }).trans (List.drop_suffix ..)

-- An empty body is delivered with its header, so none is waited for.
theorem nextBody_phase (d : Decoder) (length : Nat) : (d.nextBody length).2.phase ≠ .body 0 := by
  unfold nextBody
  split
  · rename_i short
    rintro ⟨⟩
    cases short
  · rintro ⟨⟩

theorem nextHeader_awaits (d : Decoder) : d.nextHeader.2.phase ≠ .body 0 := by
  unfold nextHeader
  split
  · split <;> rintro ⟨⟩
  · rename_i block rest _
    split
    · rintro ⟨⟩
    · split
      · rintro ⟨⟩
      · exact nextBody_phase { d with buffer := rest } _

theorem next_phase (d : Decoder) : d.next.2.phase ≠ .body 0 := by
  unfold next
  split
  · exact nextHeader_awaits d
  · exact nextBody_phase d _
  · unfold nextSkip
    split
    · rintro ⟨⟩
    · exact nextHeader_awaits _

-- Some of what is buffered goes with every item: a header, or what is lost of it, or a body that
-- is not empty.
theorem next_takes (awaits : d.phase ≠ .body 0) (next : d.next = (some item, after)) :
    ∃ taken, taken ≠ [] ∧ d.buffer = taken ++ after.buffer := by
  have shorter : after.buffer.length < d.buffer.length := by
    unfold Decoder.next at next
    split at next
    · exact length_nextHeader next
    · rename_i length phase'
      have some' : 0 < length := by
        refine Nat.pos_of_ne_zero ?_
        rintro rfl
        exact awaits phase'
      unfold nextBody at next
      split at next <;> cases next
      rw [List.length_drop]
      omega
    · unfold nextSkip at next
      split at next
      · cases next
      · refine Nat.lt_of_lt_of_le (length_nextHeader next) ?_
        rw [List.length_drop]
        exact Nat.sub_le ..
  have suffix' := next_suffix d
  rw [next] at suffix'
  obtain ⟨taken, whole⟩ := suffix'
  refine ⟨taken, ?_, whole.symm⟩
  rintro rfl
  rw [← whole] at shorter
  exact Nat.lt_irrefl _ shorter

theorem Answers.awaits (answers : Answers d passes (found, after)) : after.phase ≠ .body 0 := by
  have awaits := next_phase d
  rwa [← answers.eq_next] at awaits

theorem Answers.count (answers : Answers d passes (found, after)) (awaits : d.phase ≠ .body 0) :
    found.toList.length + after.buffer.length ≤ d.buffer.length := by
  have next := answers.eq_next.symm
  cases found with
  | none =>
    have shorter := (next_suffix d).length_le
    rw [next] at shorter
    simpa using shorter
  | some item =>
    obtain ⟨taken, some', whole⟩ := next_takes awaits next
    have := List.length_pos_iff.mpr some'
    rw [whole, List.length_append]
    change 1 + after.buffer.length ≤ _
    omega

theorem Attained.awaits (attained : Attained limits phase) : phase ≠ .body 0 := by
  cases attained with
  | initial => rintro ⟨⟩
  | called _ answers => exact answers.awaits

theorem empties_iff {d last : Decoder} {items : List Item} : Empties d items last ↔ items = d.drain.1 ∧ last = d.drain.2 := by
  induction d using drain.induct generalizing items with
  | case1 d after waits =>
    obtain ⟨count, _, known⟩ := exists_answer d
    rw [waits] at known
    rw [drain_of_none waits]
    constructor
    · intro empties
      cases empties with
      | last answers => cases ((known ..).mp answers).2; exact ⟨rfl, rfl⟩
      | more answers _ => cases ((known ..).mp answers).2
    · rintro ⟨rfl, rfl⟩
      exact .last ((known ..).mpr ⟨rfl, rfl⟩)
  | case2 d item after next _ _ _ ih =>
    obtain ⟨count, _, known⟩ := exists_answer d
    rw [next] at known
    rw [drain_of_some next]
    constructor
    · intro empties
      cases empties with
      | last answers => cases ((known ..).mp answers).2
      | more answers later =>
        cases ((known ..).mp answers).2
        obtain ⟨rfl, rfl⟩ := ih.mp later
        exact ⟨rfl, rfl⟩
    · rintro ⟨rfl, rfl⟩
      exact .more ((known ..).mpr ⟨rfl, rfl⟩) (ih.mpr ⟨rfl, rfl⟩)

-- Each item of them costs an octet.
theorem Empties.count (empties : Empties d items last) (awaits : d.phase ≠ .body 0) :
    items.length + last.buffer.length ≤ d.buffer.length := by
  induction empties with
  | last answers => exact answers.count awaits
  | more answers _ ih =>
    have first := answers.count awaits
    have others := ih answers.awaits
    rw [Option.toList_some, List.length_singleton] at first
    rw [List.length_cons]
    omega

theorem Run.attained (run : Run limits received items d) : d.limits = limits ∧ Attained limits d.phase := by
  induction run with
  | initial => exact ⟨rfl, .initial⟩
  | pushed _ _ ih => exact ih
  | @called _ _ d _ _ after _ answers ih =>
    obtain ⟨rfl, attained⟩ := ih
    have same := next_limits d
    rw [← answers.eq_next] at same
    exact ⟨same, .called attained answers⟩

theorem Run.count (run : Run limits received items d) : items.length + d.buffer.length ≤ received.length := by
  induction run with
  | initial => exact Nat.le_refl 0
  | pushed chunk _ ih =>
    simp only [push, List.length_append]
    omega
  | called run answers ih =>
    have counted := answers.count run.attained.2.awaits
    rw [List.length_append]
    omega

-- Whatever the limits and whatever is buffered, a call ends after at most three passes, none of
-- which counts below zero, and an item takes octets with it. So asking until there is no item ends,
-- and no run gives more items than octets have come.
theorem decoding_makes_progress (maxBody maxHeader : Nat) :
    (∀ d : Decoder, d.limits = .of maxBody maxHeader → Attained (.of maxBody maxHeader) d.phase →
      (∃ count ≤ 3, ∀ passes result, Answers d passes result ↔ passes = count ∧ result = d.next) ∧
      (∀ item after, d.next = (some item, after) → ∃ taken, taken ≠ [] ∧ d.buffer = taken ++ after.buffer) ∧
      ∃ items last, (∀ others other, Empties d others other ↔ others = items ∧ other = last) ∧
        items.length + last.buffer.length ≤ d.buffer.length) ∧
    ∀ received items d, Run (.of maxBody maxHeader) received items d →
      d.limits = .of maxBody maxHeader ∧ Attained (.of maxBody maxHeader) d.phase ∧
        items.length + d.buffer.length ≤ received.length := by
  refine ⟨fun d _ attained => ⟨exists_answer d, fun item after => next_takes attained.awaits, ?_⟩, ?_⟩
  · have empties : Empties d d.drain.1 d.drain.2 := empties_iff.mpr ⟨rfl, rfl⟩
    exact ⟨_, _, fun _ _ => empties_iff, empties.count attained.awaits⟩
  · intro received items d run
    exact ⟨run.attained.1, run.attained.2, run.count⟩

theorem Run.next (run : Run limits received items d) : Run limits received (items ++ d.next.1.toList) d.next.2 := by
  obtain ⟨passes, _, answers⟩ := answers_next d
  exact .called run answers

-- The least limits: a header that is too large, what is left of it, an empty body and one that is
-- skipped. When its octet comes with an empty body behind it, one call passes over the former and
-- gives the latter.
theorem decoding_makes_progress_least :
    ∃ (received : List UInt8) (items : List Item) (d : Decoder),
      Run (.of 0 0) received items d ∧
      items = [.fault (.headerTooLarge 4), .fault (.malformedLine "aaa"), .body [], .fault (.frameTooLarge 1 0)] ∧
      items.length + d.buffer.length ≤ received.length ∧
      let more := d.push (Utf8.encode "xContent-Length: 0\r\n\r\n".toList)
      more.limits = .of 0 0 ∧ Attained (.of 0 0) more.phase ∧ more.phase = .skip 1 ∧
      more.next = (some (.body []), holding (.of 0 0) []) ∧
      (∃ taken, taken ≠ [] ∧ more.buffer = taken ++ []) ∧
      ∃ passes ≤ 3, Answers more passes more.next := by
  let long := push { limits := .of 0 0 } (Utf8.encode "aaaaa".toList)
  let rest := long.next.2.push (Utf8.encode "\r\n\r\nContent-Length: 0\r\n\r\nContent-Length: 1\r\n\r\n".toList)
  have run : Run (.of 0 0) _ _ rest.next.2.next.2.next.2 := .next (.next (.next (.pushed _ (.next (.pushed _ .initial)))))
  obtain ⟨known, attained, counted⟩ := (decoding_makes_progress 0 0).2 _ _ _ run
  have yields : (push rest.next.2.next.2.next.2 (Utf8.encode "xContent-Length: 0\r\n\r\n".toList)).next =
      (some (.body []), holding (.of 0 0) []) := by decide +kernel
  obtain ⟨⟨count, few, answers⟩, takes, _⟩ := (decoding_makes_progress 0 0).1
    (push rest.next.2.next.2.next.2 (Utf8.encode "xContent-Length: 0\r\n\r\n".toList)) known attained
  refine ⟨_, _, _, run, ?_, counted, known, attained, ?_, yields, takes _ _ yields, count, few, ?_⟩
  · decide +kernel
  · decide +kernel
  · exact (answers ..).mpr ⟨rfl, rfl⟩

end Decoder
end DuplexRpc.Framing
