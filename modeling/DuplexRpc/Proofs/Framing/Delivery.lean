import DuplexRpc.Framing.Decoder
import DuplexRpc.Framing.Header
import DuplexRpc.Proofs.Text.Utf8

namespace DuplexRpc.Framing

-- What has come out of a stream: bodies, each right after an empty line, and gaps.
inductive Delivered : List UInt8 → List (List UInt8) → Prop
  | nil : Delivered [] []
  | gap {s bodies} (gap : List UInt8) : Delivered s bodies → Delivered (s ++ gap) bodies
  | body {s bodies} (body : List UInt8) : Delivered s bodies → terminator <:+ s → Delivered (s ++ body) (bodies ++ [body])

variable {received s chunk : List UInt8} {bodies : List (List UInt8)} {d after : Decoder} {item : Option Item}

def Item.body? : Item → Option (List UInt8)
  | .body octets => some octets
  | .fault _ => none

theorem splitBlock_some {buffer block rest : List UInt8} (split : splitBlock buffer = some (block, rest)) :
    buffer = block ++ terminator ++ rest := by
  induction buffer generalizing block with
  | nil => cases split
  | cons b tail ih =>
    unfold splitBlock at split
    split at split
    · rename_i here
      obtain ⟨rfl, rfl⟩ := Prod.mk.inj (Option.some.inj split)
      obtain ⟨rest, whole⟩ := List.isPrefixOf_iff_prefix.mp here
      rw [List.nil_append, ← whole]
      obtain ⟨_, rfl⟩ := List.cons.inj whole
      rfl
    · obtain ⟨⟨inner, after⟩, found, same⟩ := Option.map_eq_some_iff.mp split
      obtain ⟨rfl, rfl⟩ := Prod.mk.inj same
      rw [ih found]
      rfl

namespace Decoder

-- The decoder has taken some octets and buffers the others; a body it waits for begins right
-- after an empty line.
def Took (d : Decoder) (received : List UInt8) (bodies : List (List UInt8)) : Prop :=
  ∃ s, Delivered s bodies ∧ received = s ++ d.buffer ∧ ∀ length, d.phase = .body length → terminator <:+ s

theorem took_initial (limits : Limits) : Took { limits := limits } [] [] :=
  ⟨[], .nil, rfl, fun _ waits => by cases waits⟩

theorem Took.push (took : d.Took received bodies) (chunk : List UInt8) :
    (d.push chunk).Took (received ++ chunk) bodies := by
  obtain ⟨s, delivered, rfl, waits⟩ := took
  exact ⟨s, delivered, List.append_assoc .., waits⟩

theorem took_nextBody {length : Nat} (delivered : Delivered s bodies) (ends : terminator <:+ s)
    (next : d.nextBody length = (item, after)) :
    after.Took (s ++ d.buffer) (bodies ++ (item.bind Item.body?).toList) := by
  unfold nextBody at next
  split at next <;> obtain ⟨rfl, rfl⟩ := Prod.mk.inj next
  · refine ⟨s, ?_, rfl, fun _ _ => ends⟩
    simpa using delivered
  · refine ⟨s ++ d.buffer.take length, .body _ delivered ends, ?_, fun _ waits => by cases waits⟩
    rw [List.append_assoc, List.take_append_drop]

theorem took_nextHeader (delivered : Delivered s bodies) (next : d.nextHeader = (item, after)) :
    after.Took (s ++ d.buffer) (bodies ++ (item.bind Item.body?).toList) := by
  unfold nextHeader at next
  split at next
  · split at next <;> obtain ⟨rfl, rfl⟩ := Prod.mk.inj next
    · refine ⟨s ++ d.buffer.take (d.buffer.length - 3), ?_, ?_, fun _ waits => by cases waits⟩
      · simpa [Item.body?] using delivered.gap _
      · rw [tail, List.append_assoc, List.take_append_drop]
    · refine ⟨s, ?_, rfl, fun _ waits => by cases waits⟩
      simpa using delivered
  · rename_i block rest split'
    have whole : s ++ d.buffer = (s ++ (block ++ terminator)) ++ rest := by
      rw [splitBlock_some split']
      simp only [List.append_assoc]
    have passed := delivered.gap (block ++ terminator)
    have ends : terminator <:+ s ++ (block ++ terminator) := ⟨s ++ block, List.append_assoc ..⟩
    rw [whole]
    split at next
    · obtain ⟨rfl, rfl⟩ := Prod.mk.inj next
      refine ⟨_, ?_, rfl, fun _ waits => by cases waits⟩
      simpa [Item.body?] using passed
    · split at next
      · obtain ⟨rfl, rfl⟩ := Prod.mk.inj next
        refine ⟨_, ?_, rfl, fun _ waits => by cases waits⟩
        simpa [Item.body?] using passed
      · exact took_nextBody (d := { d with buffer := rest }) passed ends next

theorem Took.next (took : d.Took received bodies) (next : d.next = (item, after)) :
    after.Took received (bodies ++ (item.bind Item.body?).toList) := by
  obtain ⟨s, delivered, rfl, waits⟩ := took
  unfold Decoder.next at next
  split at next
  · exact took_nextHeader delivered next
  · rename_i length phase
    exact took_nextBody delivered (waits length phase) next
  · unfold nextSkip at next
    split at next
    · obtain ⟨rfl, rfl⟩ := Prod.mk.inj next
      refine ⟨s ++ d.buffer, ?_, (List.append_nil _).symm, fun _ waits => by cases waits⟩
      simpa using delivered.gap d.buffer
    · rename_i remaining _ _
      have passed := took_nextHeader (d := { d with buffer := d.buffer.drop remaining })
        (delivered.gap (d.buffer.take remaining)) next
      rw [List.append_assoc, List.take_append_drop] at passed
      exact passed

end Decoder

-- A header whose only empty line is its last.
structure IsHeader (header : List UInt8) : Prop where
  first : ∃ rest, header = 67 :: 111 :: 110 :: rest
  only : ∀ s, s <+: header → terminator <:+ s → s = header

structure Frame where
  header : List UInt8
  body : List UInt8

structure Frame.Sound (f : Frame) : Prop where
  header : IsHeader f.header
  body : f.body ≠ []
  line : 10 ∉ f.body

def stream (frames : List Frame) : List UInt8 := frames.flatMap fun f => f.header ++ f.body

@[simp] theorem stream_nil : stream [] = [] := rfl

@[simp] theorem stream_cons (f : Frame) (rest : List Frame) :
    stream (f :: rest) = f.header ++ (f.body ++ stream rest) := by
  simp [stream]

@[simp] theorem stream_append (one two : List Frame) : stream (one ++ two) = stream one ++ stream two :=
  List.flatMap_append

theorem getLast_terminator (ends : terminator <:+ s) : ∃ front, s = front ++ [10] := by
  obtain ⟨front, rfl⟩ := ends
  exact ⟨front ++ [13, 10, 13], by simp [terminator]⟩

theorem IsHeader.begins {header : List UInt8} (ok : IsHeader header) : ∀ s rest, s <+: header ++ rest → s.length ≤ 3 →
    ∀ front, s ≠ front ++ [10] := by
  rintro s more cut short front rfl
  obtain ⟨rest, rfl⟩ := ok.first
  obtain ⟨back, whole⟩ := cut
  rcases front with _ | ⟨a, _ | ⟨b, _ | ⟨c, front⟩⟩⟩
  · cases whole
  · cases whole
  · cases whole
  · simp only [List.cons_append, List.length_cons, List.length_append, List.length_nil] at short
    omega

theorem prefix_append_cases {one two : List UInt8} (cut : s <+: one ++ two) :
    s <+: one ∨ ∃ t, t ≠ [] ∧ s = one ++ t ∧ t <+: two := by
  obtain ⟨back, whole⟩ := cut
  rcases List.append_eq_append_iff.mp whole with ⟨more, rfl, _⟩ | ⟨t, rfl, rfl⟩
  · exact .inl ⟨more, rfl⟩
  · by_cases none' : t = []
    · subst none'
      exact .inl ⟨[], by simp⟩
    · exact .inr ⟨t, none', rfl, ⟨back, rfl⟩⟩

theorem last_break {one t : List UInt8} (some' : t ≠ []) (ends : terminator <:+ one ++ t) :
    ∃ front, t = front ++ [10] := by
  obtain ⟨front, whole⟩ := getLast_terminator ends
  obtain ⟨most, last, rfl⟩ := (List.eq_nil_or_concat t).resolve_left some'
  rw [List.concat_eq_append] at whole ⊢
  rw [← List.append_assoc] at whole
  obtain ⟨_, rfl⟩ := List.append_singleton_inj.mp whole
  exact ⟨most, rfl⟩

-- An empty line ends in a stream where a header ends.
theorem terminator_place {frames : List Frame} (sound : ∀ f ∈ frames, f.Sound) (cut : s <+: stream frames)
    (ends : terminator <:+ s) : ∃ front f back, frames = front ++ f :: back ∧ s = stream front ++ f.header := by
  induction frames generalizing s with
  | nil =>
    obtain ⟨front, rfl⟩ := getLast_terminator ends
    have := cut.length_le
    simp at this
  | cons f rest ih =>
    have ok := sound f List.mem_cons_self
    have others : ∀ g ∈ rest, g.Sound := fun g later => sound g (List.mem_cons_of_mem _ later)
    rw [stream_cons] at cut
    rcases prefix_append_cases cut with inside | ⟨t, some', rfl, further⟩
    · exact ⟨[], f, rest, rfl, ok.header.only s inside ends⟩
    · rcases prefix_append_cases further with inside | ⟨u, some'', rfl, beyond⟩
      · obtain ⟨front, rfl⟩ := last_break some' ends
        exact absurd (inside.subset (by simp)) ok.line
      · rw [← List.append_assoc] at ends
        by_cases short : u.length ≤ 3
        -- The first octets of the next header cannot end an empty line that begins before it.
        · obtain ⟨front, last⟩ := last_break some'' ends
          cases rest with
          | nil => exact absurd (List.prefix_nil.mp beyond) some''
          | cons g more =>
            rw [stream_cons] at beyond
            exact absurd last ((others g List.mem_cons_self).header.begins u _ beyond short front)
        · have ends' : terminator <:+ u :=
            List.suffix_of_suffix_length_le ends (List.suffix_append ..)
              (by simp only [terminator, List.length_cons, List.length_nil]; omega)
          obtain ⟨front, g, back, rfl, rfl⟩ := ih others beyond ends'
          exact ⟨f :: front, g, back, rfl, by simp⟩

-- A text is whole where no octets can be cut off and no next frame be added without it reading as nothing.
structure Whole (reads : List UInt8 → Bool) (body : List UInt8) : Prop where
  shorter : ∀ one two, body = one ++ two → two ≠ [] → reads one = false
  longer : ∀ rest, reads (body ++ 67 :: rest) = false

-- Of what comes out of a stream, the bodies that read as something are bodies of its frames,
-- each of them once and in order.
theorem delivered_sublist {frames : List Frame} {reads : List UInt8 → Bool} (sound : ∀ f ∈ frames, f.Sound)
    (whole : ∀ f ∈ frames, Whole reads f.body) (delivered : Delivered s bodies) (cut : s <+: stream frames) :
    ∃ front back, frames = front ++ back ∧ stream front <+: s ∧ (bodies.filter reads).Sublist (front.map Frame.body) := by
  induction delivered with
  | nil => exact ⟨[], frames, rfl, List.nil_prefix, List.Sublist.slnil⟩
  | gap gap _ ih =>
    obtain ⟨front, back, split, before, sub⟩ := ih ((List.prefix_append ..).trans cut)
    exact ⟨front, back, split, before.trans (List.prefix_append ..), sub⟩
  | @body s bodies body _ ends ih =>
    have cut' : s <+: stream frames := (List.prefix_append ..).trans cut
    obtain ⟨front, back, split, before, sub⟩ := ih cut'
    cases readable : reads body with
    | false =>
      refine ⟨front, back, split, before.trans (List.prefix_append ..), ?_⟩
      rw [List.filter_append, List.filter_cons_of_neg (by simp [readable])]
      simpa using sub
    | true =>
      obtain ⟨front', f, back', rfl, rfl⟩ := terminator_place sound cut' ends
      have ok := sound f (by simp)
      have first : front <+: front' := by
        rcases List.append_eq_append_iff.mp split with ⟨more, rfl, _⟩ | ⟨more, rfl, later⟩
        · cases more with
          | nil => simp
          | cons g more =>
            have length := before.length_le
            have some' := List.length_pos_iff.mpr ok.body
            obtain rfl : f = g := by simp_all
            simp only [stream_append, stream_cons, List.length_append] at length
            omega
        · exact ⟨more, rfl⟩
      have same : body = f.body := by
        have rest : body <+: f.body ++ stream back' := by
          simpa using cut
        rcases prefix_append_cases rest with ⟨two, whole'⟩ | ⟨t, some', rfl, beyond⟩
        · by_cases all : two = []
          · simpa [all] using whole'
          · cases readable.symm.trans ((whole f (by simp)).shorter body two whole'.symm all)
        · cases back' with
          | nil => exact absurd (List.prefix_nil.mp beyond) some'
          | cons g more =>
            obtain ⟨tail, begins⟩ := (sound g (by simp)).header.first
            obtain ⟨head, t, rfl⟩ := List.exists_cons_of_ne_nil some'
            rw [stream_cons, begins] at beyond
            obtain ⟨rfl, _⟩ := List.cons_prefix_cons.mp beyond
            cases readable.symm.trans ((whole f (by simp)).longer t)
      subst same
      refine ⟨front' ++ [f], back', by simp, by simp, ?_⟩
      rw [List.filter_append, List.filter_cons_of_pos readable, List.map_append]
      exact (sub.trans (first.sublist.map _)).append (List.Sublist.refl _)

end DuplexRpc.Framing
