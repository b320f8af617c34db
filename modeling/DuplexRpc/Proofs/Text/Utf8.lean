import DuplexRpc.Text.Utf8

namespace DuplexRpc.Utf8

theorem encode_cons (c : Char) (text : List Char) : encode (c :: text) = String.utf8EncodeChar c ++ encode text :=
  List.flatMap_cons

theorem encode_append (one two : List Char) : encode (one ++ two) = encode one ++ encode two :=
  List.flatMap_append

theorem toNat_ofNat {n : Nat} (small : n < 0x100) : (UInt8.ofNat n).toNat = n := by
  rw [UInt8.toNat_ofNat']
  exact Nat.mod_eq_of_lt small

theorem opening_one : ∀ n < 0x80, opening (UInt8.ofNat n) = ([some (Char.ofNat n)], .boundary) := by
  decide +kernel

theorem opening_two : ∀ n < 0xE0, 0xC2 ≤ n → opening (UInt8.ofNat n) = ([], .inside 0 0x80 0xBF (n - 0xC0)) := by
  decide +kernel

theorem opening_three : ∀ n < 0xF0, 0xE0 ≤ n → opening (UInt8.ofNat n) =
    ([], .inside 1 (if n = 0xE0 then 0xA0 else 0x80) (if n = 0xED then 0x9F else 0xBF) (n - 0xE0)) := by
  decide +kernel

theorem opening_four : ∀ n < 0xF5, 0xF0 ≤ n → opening (UInt8.ofNat n) =
    ([], .inside 2 (if n = 0xF0 then 0x90 else 0x80) (if n = 0xF4 then 0x8F else 0xBF) (n - 0xF0)) := by
  decide +kernel

theorem advance_boundary (b : UInt8) : advance .boundary b = opening b := rfl

-- An admissible octet goes on with the sequence.
theorem advance_inside (more value n : Nat) (low high : UInt8) (small : n < 0x40) (above : low.toNat ≤ n + 0x80)
    (below : n + 0x80 ≤ high.toNat) :
    advance (.inside more low high value) (UInt8.ofNat (n + 0x80)) = match more with
      | 0 => ([some (Char.ofNat (value * 64 + n))], .boundary)
      | more + 1 => ([], .inside more 0x80 0xBF (value * 64 + n)) := by
  have octet : (UInt8.ofNat (n + 0x80)).toNat = n + 0x80 := toNat_ofNat (by omega)
  have admissible : low ≤ UInt8.ofNat (n + 0x80) ∧ UInt8.ofNat (n + 0x80) ≤ high := by
    rw [UInt8.le_iff_toNat_le, UInt8.le_iff_toNat_le, octet]
    exact ⟨above, below⟩
  cases more <;> rw [advance, if_pos admissible, octet, Nat.add_sub_cancel]

theorem advance_tail {more value n : Nat} (small : n < 0x40) :
    advance (.inside more 0x80 0xBF value) (UInt8.ofNat (n + 0x80)) = match more with
      | 0 => ([some (Char.ofNat (value * 64 + n))], .boundary)
      | more + 1 => ([], .inside more 0x80 0xBF (value * 64 + n)) := by
  apply advance_inside more value n 0x80 0xBF small
  · exact Nat.le_add_left ..
  · change n + 0x80 ≤ 0xBF
    omega

theorem piecesFrom_cons (before : Progress) (b : UInt8) (rest : List UInt8) :
    piecesFrom before (b :: rest) = (advance before b).1 ++ piecesFrom (advance before b).2 rest := by
  cases before <;> rfl

-- A character's octets are read as that character.
theorem piecesFrom_char (c : Char) (rest : List UInt8) :
    piecesFrom .boundary (String.utf8EncodeChar c ++ rest) = some c :: piecesFrom .boundary rest := by
  have valid : c.val.toNat < 0xD800 ∨ 0xDFFF < c.val.toNat ∧ c.val.toNat < 0x110000 := c.valid
  have named : Char.ofNat c.val.toNat = c := Char.ofNat_toNat c
  unfold String.utf8EncodeChar
  generalize c.val.toNat = v at *
  subst named
  have last : v % 64 < 0x40 := Nat.mod_lt _ (by decide)
  have middle : v / 64 % 64 < 0x40 := Nat.mod_lt _ (by decide)
  dsimp only
  split
  · simp only [List.cons_append, List.nil_append, piecesFrom_cons, advance_boundary, opening_one v (by omega)]
  · split
    · have first := opening_two (v / 64 % 32 + 0xC0) (by omega) (by omega)
      have whole : (v / 64 % 32 + 0xC0 - 0xC0) * 64 + v % 64 = v := by omega
      simp only [List.cons_append, List.nil_append, piecesFrom_cons, advance_boundary, first, advance_tail last, whole]
    · split
      · have first := opening_three (v / 4096 % 16 + 0xE0) (by omega) (by omega)
        have whole : ((v / 4096 % 16 + 0xE0 - 0xE0) * 64 + v / 64 % 64) * 64 + v % 64 = v := by omega
        have second := advance_inside 1 (v / 4096 % 16 + 0xE0 - 0xE0) (v / 64 % 64)
          (if v / 4096 % 16 + 0xE0 = 0xE0 then 0xA0 else 0x80) (if v / 4096 % 16 + 0xE0 = 0xED then 0x9F else 0xBF) middle
          (by split; (change 0xA0 ≤ _; omega); exact Nat.le_add_left ..)
          (by split; (change _ ≤ 0x9F; omega); (change _ ≤ 0xBF; omega))
        simp only [List.cons_append, List.nil_append, piecesFrom_cons, advance_boundary, first, second,
          advance_tail last, whole]
      · have first := opening_four (v / 262144 % 8 + 0xF0) (by omega) (by omega)
        have whole : (((v / 262144 % 8 + 0xF0 - 0xF0) * 64 + v / 4096 % 64) * 64 + v / 64 % 64) * 64 + v % 64 = v := by omega
        have second := advance_inside 2 (v / 262144 % 8 + 0xF0 - 0xF0) (v / 4096 % 64)
          (if v / 262144 % 8 + 0xF0 = 0xF0 then 0x90 else 0x80) (if v / 262144 % 8 + 0xF0 = 0xF4 then 0x8F else 0xBF)
          (by omega)
          (by split; (change 0x90 ≤ _; omega); exact Nat.le_add_left ..)
          (by split; (change _ ≤ 0x8F; omega); (change _ ≤ 0xBF; omega))
        simp only [List.cons_append, List.nil_append, piecesFrom_cons, advance_boundary, first, second,
          advance_tail middle, advance_tail last, whole]

theorem pieces_encode (text : List Char) : pieces (encode text) = text.map some := by
  induction text with
  | nil => rfl
  | cons c rest ih =>
    rw [pieces, encode_cons, piecesFrom_char]
    exact congrArg _ ih

theorem decode?_encode (text : List Char) : decode? (encode text) = some text := by
  rw [decode?, pieces_encode]
  induction text with
  | nil => rfl
  | cons c rest ih => simp [List.mapM_cons, ih]

theorem lossy_encode (text : List Char) : lossy (encode text) = text := by
  rw [lossy, pieces_encode, List.map_map]
  exact List.map_id text

-- Only octets from 80 to BF go on with a sequence.
def Progress.Sound : Progress → Prop
  | .boundary => True
  | .inside _ low high _ => 0x80 ≤ low ∧ high ≤ 0xBF

theorem opening_sound (b : UInt8) : (opening b).2.Sound := by
  unfold opening
  repeat' split
  all_goals trivial

theorem advance_sound (before : Progress) (b : UInt8) : (advance before b).2.Sound := by
  cases before with
  | boundary => exact opening_sound b
  | inside more low high value =>
    by_cases admissible : low ≤ b ∧ b ≤ high
    · cases more <;> rw [advance, if_pos admissible]
      · trivial
      · exact ⟨by decide, by decide⟩
    · rw [advance, if_neg admissible]
      exact opening_sound b

-- So the first octet of a character breaks off what has not ended.
theorem first_octet {c : Char} {b : UInt8} {more : List UInt8} (octets : String.utf8EncodeChar c = b :: more) :
    ¬ (0x80 ≤ b ∧ b ≤ 0xBF) := by
  rintro ⟨above, below⟩
  have whole := piecesFrom_char c []
  rw [octets, List.cons_append, piecesFrom_cons, advance_boundary] at whole
  have stray : opening b = ([none], .boundary) := by
    have low : ¬ b < 0x80 := Nat.not_lt.mpr above
    have high : b < 0xC2 := Nat.lt_of_le_of_lt below (by decide)
    rw [opening, if_neg low, if_pos high]
  rw [stray] at whole
  cases whole

theorem piecesFrom_around (before : Progress) (sound : before.Sound) (front : List UInt8) (c : Char) (rest : List UInt8) :
    piecesFrom before (front ++ (String.utf8EncodeChar c ++ rest)) =
      piecesFrom before front ++ some c :: piecesFrom .boundary rest := by
  induction front generalizing before with
  | nil =>
    cases before with
    | boundary => exact piecesFrom_char c rest
    | inside more low high value =>
      obtain ⟨b, others, octets⟩ := List.exists_cons_of_ne_nil (String.utf8EncodeChar_ne_nil (c := c))
      have breaks : ¬ (low ≤ b ∧ b ≤ high) := by
        rintro ⟨above, below⟩
        exact first_octet octets ⟨Nat.le_trans sound.1 above, Nat.le_trans below sound.2⟩
      have afresh := piecesFrom_char c rest
      rw [octets, List.cons_append, piecesFrom_cons, advance_boundary] at afresh
      rw [octets, List.nil_append, List.cons_append, piecesFrom_cons, advance, if_neg breaks]
      exact congrArg (none :: ·) afresh
  | cons b front ih =>
    rw [List.cons_append, piecesFrom_cons, ih _ (advance_sound before b), piecesFrom_cons, List.append_assoc]

-- Whatever octets stand around a character, they are read apart from it.
theorem lossy_around (front : List UInt8) (c : Char) (rest : List UInt8) :
    lossy (front ++ (String.utf8EncodeChar c ++ rest)) = lossy front ++ c :: lossy rest := by
  rw [lossy, pieces, piecesFrom_around .boundary trivial, List.map_append, List.map_cons]
  rfl

theorem lossy_encode_append (text : List Char) (rest : List UInt8) : lossy (encode text ++ rest) = text ++ lossy rest := by
  induction text with
  | nil => rfl
  | cons c text ih =>
    have first := lossy_around [] c (encode text ++ rest)
    rw [ih] at first
    rw [encode_cons, List.append_assoc]
    exact first

theorem lossy_append_encode (front : List UInt8) (text : List Char) : lossy (front ++ encode text) = lossy front ++ text := by
  cases text with
  | nil => rw [encode, List.flatMap_nil, List.append_nil, List.append_nil]
  | cons c text => rw [encode_cons, lossy_around, lossy_encode]

-- Below 128 a character is one octet, from there on its octets are all at least 128.
theorem utf8EncodeChar_ascii {c : Char} (small : c.toNat < 0x80) : String.utf8EncodeChar c = [UInt8.ofNat c.toNat] := by
  unfold String.utf8EncodeChar
  exact if_pos (Nat.le_of_lt_succ small)

theorem le_of_mem_utf8EncodeChar {c : Char} (large : 0x80 ≤ c.toNat) {b : UInt8}
    (present : b ∈ String.utf8EncodeChar c) : 0x80 ≤ b.toNat := by
  change 0x80 ≤ c.val.toNat at large
  unfold String.utf8EncodeChar at present
  generalize c.val.toNat = v at *
  dsimp only at present
  rw [if_neg (by omega)] at present
  have octet : ∀ n, n < 0x80 → (UInt8.ofNat (n + 0x80)).toNat = n + 0x80 := fun n small => toNat_ofNat (by omega)
  have tail : ∀ n, 0x80 ≤ (UInt8.ofNat (n % 0x40 + 0x80)).toNat := by
    intro n
    rw [octet _ (by omega)]
    exact Nat.le_add_left ..
  split at present
  · simp only [List.mem_cons, List.not_mem_nil, or_false] at present
    rcases present with rfl | rfl
    · rw [toNat_ofNat (by omega)]
      omega
    · exact tail v
  · split at present
    · simp only [List.mem_cons, List.not_mem_nil, or_false] at present
      rcases present with rfl | rfl | rfl
      · rw [toNat_ofNat (by omega)]
        omega
      · exact tail _
      · exact tail v
    · simp only [List.mem_cons, List.not_mem_nil, or_false] at present
      rcases present with rfl | rfl | rfl | rfl
      · rw [toNat_ofNat (by omega)]
        omega
      · exact tail _
      · exact tail _
      · exact tail v

-- An octet below 128 is the character of that number.
theorem mem_encode {text : List Char} {b : UInt8} (present : b ∈ encode text) (small : b.toNat < 0x80) :
    ∃ c ∈ text, c.toNat = b.toNat := by
  obtain ⟨c, listed, here⟩ := List.mem_flatMap.mp present
  refine ⟨c, listed, ?_⟩
  by_cases ascii : c.toNat < 0x80
  · rw [utf8EncodeChar_ascii ascii, List.mem_singleton] at here
    rw [here, toNat_ofNat (by omega)]
  · have := le_of_mem_utf8EncodeChar (Nat.le_of_not_lt ascii) here
    omega

-- Octets of plain characters stand in a text only where these characters do.
theorem prefix_of_encode {plain text : List Char} (ascii : ∀ c ∈ plain, c.toNat < 0x80)
    (begins : encode plain <+: encode text) : plain <+: text := by
  induction plain generalizing text with
  | nil => exact List.nil_prefix
  | cons a plain ih =>
    obtain ⟨small, others⟩ := List.forall_mem_cons.mp ascii
    rw [encode_cons, utf8EncodeChar_ascii small] at begins
    cases text with
    | nil => cases List.prefix_nil.mp begins
    | cons c text =>
      rw [encode_cons] at begins
      by_cases single : c.toNat < 0x80
      · rw [utf8EncodeChar_ascii single] at begins
        obtain ⟨same, later⟩ := List.cons_prefix_cons.mp begins
        have number := congrArg UInt8.toNat same
        rw [toNat_ofNat (by omega), toNat_ofNat (by omega)] at number
        exact List.cons_prefix_cons.mpr ⟨Char.toNat_inj.mp number, ih others later⟩
      · have first : UInt8.ofNat a.toNat ∈ String.utf8EncodeChar c := by
          obtain ⟨b, rest, octets⟩ := List.exists_cons_of_ne_nil (String.utf8EncodeChar_ne_nil (c := c))
          rw [octets] at begins ⊢
          obtain ⟨rfl, _⟩ := List.cons_prefix_cons.mp begins
          exact List.mem_cons_self
        have large := le_of_mem_utf8EncodeChar (Nat.le_of_not_lt single) first
        rw [toNat_ofNat (by omega)] at large
        omega

theorem infix_of_encode {plain text : List Char} (ascii : ∀ c ∈ plain, c.toNat < 0x80)
    (within : encode plain <:+: encode text) : plain <:+: text := by
  induction text with
  | nil =>
    have begins : encode plain <+: encode [] := (List.infix_nil.mp within) ▸ List.nil_prefix
    exact (prefix_of_encode ascii begins).isInfix
  | cons c text ih =>
    obtain ⟨front, back, whole⟩ := within
    rw [encode_cons, List.append_assoc] at whole
    rcases List.append_eq_append_iff.mp whole with ⟨tail, octets, behind⟩ | ⟨more, _, behind⟩
    · cases tail with
      | nil => exact (ih ⟨[], back, behind⟩).trans (List.suffix_cons ..).isInfix
      | cons b tail =>
        by_cases first : front = []
        · rw [first, List.nil_append, ← encode_cons] at whole
          exact (prefix_of_encode ascii ⟨back, whole⟩).isInfix
        -- Nothing plain stands behind the first of several octets of a character.
        · cases plain with
          | nil => exact List.nil_infix
          | cons a plain =>
            have small : a.toNat < 0x80 := ascii a List.mem_cons_self
            rw [encode_cons, utf8EncodeChar_ascii small] at behind
            obtain ⟨rfl, _⟩ := List.cons.inj behind
            have several : ¬ c.toNat < 0x80 := by
              intro single
              have length := congrArg List.length octets
              have some' := List.length_pos_iff.mpr first
              rw [utf8EncodeChar_ascii single, List.length_append, List.length_singleton, List.length_cons] at length
              omega
            have present : UInt8.ofNat a.toNat ∈ String.utf8EncodeChar c := by simp [octets]
            have large := le_of_mem_utf8EncodeChar (Nat.le_of_not_lt several) present
            rw [toNat_ofNat (by omega)] at large
            omega
    · exact (ih ⟨more, back, by rw [List.append_assoc]; exact behind.symm⟩).trans (List.suffix_cons ..).isInfix

end DuplexRpc.Utf8
