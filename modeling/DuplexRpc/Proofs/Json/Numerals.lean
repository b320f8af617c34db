import DuplexRpc.Json.Writer
import DuplexRpc.Proofs.Json.Progress

namespace DuplexRpc.Json

namespace Numeral
variable {n next : Numeral} {b : UInt8}

-- The numeral after further octets, all of them part of it.
def feed (n : Numeral) : List UInt8 → Option Numeral
  | [] => some n
  | b :: rest => match n.advance b with
    | .more next => next.feed rest
    | _ => none

theorem feed_append {one : List UInt8} (two : List UInt8) (fed : n.feed one = some next) :
    n.feed (one ++ two) = next.feed two := by
  induction one generalizing n with
  | nil =>
    cases fed
    rfl
  | cons b rest ih =>
    simp only [List.cons_append, feed] at fed ⊢
    split
    · rename_i further
      rw [further] at fed
      exact ih fed
    · rename_i stops
      split at fed
      · rename_i further
        exact absurd further (stops _)
      · cases fed

-- The octets that numbers are written with.
def IsPart (b : UInt8) : Prop := (48 ≤ b ∧ b ≤ 57) ∨ b = 43 ∨ b = 45 ∨ b = 46 ∨ b = 101

instance : DecidablePred IsPart := fun _ => inferInstanceAs (Decidable (_ ∨ _))

-- The octets that may follow a value: what goes on or ends its container, or begins a next frame.
def IsEnd (b : UInt8) : Prop := b = 44 ∨ b = 93 ∨ b = 125 ∨ b = 67

theorem advance_end (ends : IsEnd b) : n.advance b = .stop ∨ ∃ cause, n.advance b = .refuse cause := by
  obtain ⟨negative, stage, significand, exponent, powerNegative, power⟩ := n
  rcases ends with rfl | rfl | rfl | rfl <;> cases stage <;> simp [advance, digit?, isMark]

-- A numeral that has left the digits before its point never becomes an integer.
def Stage.isReal : Stage → Bool
  | .sign | .zero | .whole => false
  | _ => true

theorem advance_real (real : n.stage.isReal = true) (moved : n.advance b = .more next) : next.stage.isReal = true := by
  obtain ⟨negative, stage, significand, exponent, powerNegative, power⟩ := n
  cases stage <;> cases digit : digit? b <;> simp only [advance, digit] at moved <;> (repeat' split at moved) <;>
    cases moved <;> first | rfl | cases real

theorem advance_marked (marks : b = 46 ∨ b = 101) (moved : n.advance b = .more next) : next.stage.isReal = true := by
  obtain ⟨negative, stage, significand, exponent, powerNegative, power⟩ := n
  rcases marks with rfl | rfl <;> cases stage <;> simp [advance, digit?, isMark] at moved <;> subst moved <;> rfl

theorem feed_real (real : n.stage.isReal = true) {bytes : List UInt8} (fed : n.feed bytes = some next) :
    next.stage.isReal = true := by
  induction bytes generalizing n with
  | nil =>
    cases fed
    exact real
  | cons b rest ih =>
    unfold feed at fed
    split at fed
    · rename_i further moved
      exact ih (advance_real real moved) fed
    · cases fed

theorem feed_marked {bytes : List UInt8} (marks : 46 ∈ bytes ∨ 101 ∈ bytes) (fed : n.feed bytes = some next) :
    next.stage.isReal = true := by
  induction bytes generalizing n with
  | nil => simp at marks
  | cons b rest ih =>
    unfold feed at fed
    split at fed
    · rename_i further moved
      by_cases here : b = 46 ∨ b = 101
      · exact feed_real (advance_marked here moved) fed
      · refine ih ?_ fed
        simpa [eq_comm, not_or.mp here] using marks
    · cases fed

theorem finish_real (real : n.stage.isReal = true) {x : Number} (read : n.finish = .ok x) : ∃ y, x = .real y := by
  obtain ⟨negative, stage, significand, exponent, powerNegative, power⟩ := n
  cases stage <;> simp only [finish] at read <;> (repeat' split at read) <;> cases read <;>
    first | exact ⟨_, rfl⟩ | cases real

-- A numeral's first octet is read as the digit or sign that may follow nothing.
def empty (negative : Bool) : Numeral := ⟨negative, .sign, 0, 0, false, 0⟩

theorem digit_octet : ∀ d < 10, ∃ b, Utf8.encode [Nat.digitChar d] = [b] ∧ digit? b = some d := by
  intro d small
  refine ⟨UInt8.ofNat (48 + d), ?_⟩
  revert d
  decide +kernel

-- The digits of a natural number of 64 bits read as that number.
theorem feed_digits (negative : Bool) (m : Nat) (small : m < 0x10000000000000000) :
    (empty negative).feed (Utf8.encode (Nat.toDigits 10 m)) =
      some ⟨negative, if m = 0 then .zero else .whole, m, 0, false, 0⟩ := by
  induction m using Nat.strongRecOn with
  | ind m ih =>
    by_cases single : m < 10
    · obtain ⟨b, octet, digit⟩ := digit_octet m single
      rw [Nat.toDigits_of_lt_base single, octet]
      simp [feed, empty, advance, digit]
    · have last : m % 10 < 10 := Nat.mod_lt _ (by decide)
      obtain ⟨b, octet, digit⟩ := digit_octet (m % 10) last
      have first := ih (m / 10) (by omega) (by omega)
      have whole : m / 10 * 10 + m % 10 = m := by omega
      rw [Nat.toDigits_of_base_le (by decide) (by omega), Utf8.encode_append, feed_append _ first, octet]
      rw [if_neg (by omega), if_neg (by omega)]
      simp [feed, advance, digit, fits, whole, small]

-- The numeral of a whole text.
def ofOctets : List UInt8 → Option Numeral
  | [] => none
  | b :: rest => (begin? b).bind fun first => first.feed rest

theorem ofOctets_digit {d : Nat} (digit : digit? b = some d) (rest : List UInt8) :
    ofOctets (b :: rest) = (empty false).feed (b :: rest) := by
  have first : begin? b = some ⟨false, if d = 0 then .zero else .whole, d, 0, false, 0⟩ := by
    have unsigned : b ≠ 45 := by
      rintro rfl
      cases digit
    simp [begin?, unsigned, digit]
  have moved : (empty false).advance b = .more ⟨false, if d = 0 then .zero else .whole, d, 0, false, 0⟩ := by
    simp [advance, empty, digit]
  simp only [ofOctets, first, Option.bind_some, feed, moved]

end Numeral

namespace Number
open Numeral

-- The characters that numbers are written with.
def isPart (c : Char) : Bool := c.isDigit || c == '+' || c == '-' || c == '.' || c == 'e'

theorem part_octet {c : Char} (part : isPart c = true) :
    ∃ b, Utf8.encode [c] = [b] ∧ b.toNat = c.toNat ∧ IsPart b ∧ (c.isDigit = true → (digit? b).isSome = true) := by
  have small : c.toNat < 0x80 := by
    simp only [isPart, Char.isDigit, Bool.or_eq_true, Bool.and_eq_true, decide_eq_true_eq, beq_iff_eq] at part
    rcases part with (((⟨_, below⟩ | rfl) | rfl) | rfl) | rfl
    · have : c.toNat ≤ 57 := below
      omega
    all_goals decide
  have named : Char.ofNat c.toNat = c := Char.ofNat_toNat c
  refine ⟨UInt8.ofNat c.toNat, (List.append_nil _).trans (Utf8.utf8EncodeChar_ascii small), ?_⟩
  revert part
  rw [← named]
  generalize c.toNat = v at small
  revert v
  decide +kernel

theorem parts_octets {text : List Char} (parts : ∀ c ∈ text, isPart c = true) : ∀ b ∈ Utf8.encode text, IsPart b := by
  intro b present
  obtain ⟨c, listed, here⟩ := List.mem_flatMap.mp present
  obtain ⟨b', octet, _, part, _⟩ := part_octet (parts c listed)
  have octets : String.utf8EncodeChar c = [b'] := (List.append_nil _).symm.trans octet
  rw [octets, List.mem_singleton] at here
  exact here ▸ part

theorem digits_parts (n : Nat) : ∀ c ∈ Nat.toDigits 10 n, c.isDigit = true ∧ isPart c = true := by
  intro c present
  have digit := Nat.isDigit_of_mem_toDigits (by decide) (by decide) present
  exact ⟨digit, by simp [isPart, digit]⟩

-- A written magnitude starts with a digit and has a point or an exponent.
structure Magnitude (text : List Char) : Prop where
  first : ∃ d rest, text = d :: rest ∧ d.isDigit = true
  parts : ∀ c ∈ text, isPart c = true
  marked : '.' ∈ text ∨ 'e' ∈ text

theorem zeros_parts (n : Nat) : ∀ c ∈ Decimal.zeros n, isPart c = true := by
  intro c present
  rw [List.eq_of_mem_replicate present]
  rfl

theorem positional_magnitude {digits : List Char} (some' : digits ≠ [])
    (all : ∀ c ∈ digits, c.isDigit = true ∧ isPart c = true)
    (lead : Int) : Magnitude (Decimal.positional digits lead) := by
  obtain ⟨d, more, rfl⟩ := List.exists_cons_of_ne_nil some'
  have first : d.isDigit = true := (all d List.mem_cons_self).1
  have parts : ∀ c ∈ d :: more, isPart c = true := fun c present => (all c present).2
  unfold Decimal.positional
  split
  · refine ⟨⟨'0', _, rfl, rfl⟩, fun c present => ?_, .inl (by simp)⟩
    simp only [List.cons_append, List.mem_cons, List.mem_append] at present
    rcases present with rfl | rfl | zero | digit
    · rfl
    · rfl
    · exact zeros_parts _ c zero
    · exact parts c (List.mem_cons.mpr digit)
  · dsimp only
    split
    · refine ⟨⟨d, _, rfl, first⟩, fun c present => ?_, .inl (by simp)⟩
      rcases List.mem_append.mp present with front | last
      · rcases List.mem_append.mp front with digit | zero
        · exact parts c digit
        · exact zeros_parts _ c zero
      · simp only [List.mem_cons, List.not_mem_nil, or_false] at last
        rcases last with rfl | rfl <;> rfl
    · refine ⟨⟨d, _, rfl, first⟩, fun c present => ?_, .inl (by simp)⟩
      rcases List.mem_append.mp present with front | back
      · exact parts c (List.mem_of_mem_take front)
      · rcases List.mem_cons.mp back with rfl | behind
        · rfl
        · exact parts c (List.mem_of_mem_drop behind)

theorem scientific_magnitude {digits : List Char} (some' : digits ≠ [])
    (all : ∀ c ∈ digits, c.isDigit = true ∧ isPart c = true)
    (lead : Int) : Magnitude (Decimal.scientific digits lead) := by
  obtain ⟨d, more, rfl⟩ := List.exists_cons_of_ne_nil some'
  have first : d.isDigit = true := (all d List.mem_cons_self).1
  have parts : ∀ c ∈ d :: more, isPart c = true := fun c present => (all c present).2
  have exponent : ∀ c ∈ 'e' :: (if lead < 0 then '-' else '+') :: Nat.toDigits 10 lead.natAbs, isPart c = true := by
    intro c present
    rcases List.mem_cons.mp present with rfl | present
    · rfl
    · rcases List.mem_cons.mp present with rfl | digit
      · split <;> rfl
      · exact (digits_parts _ c digit).2
  unfold Decimal.scientific
  cases more with
  | nil =>
    refine ⟨⟨d, _, rfl, first⟩, fun c present => ?_, .inr (by simp)⟩
    rcases List.mem_append.mp present with front | back
    · exact parts c front
    · exact exponent c back
  | cons next more =>
    refine ⟨⟨d, _, rfl, first⟩, fun c present => ?_, .inr (by simp)⟩
    rcases List.mem_append.mp present with front | back
    · rcases List.mem_cons.mp front with rfl | front
      · exact parts c List.mem_cons_self
      · rcases List.mem_cons.mp front with rfl | front
        · rfl
        · exact parts c (List.mem_cons_of_mem _ front)
    · exact exponent c back

theorem render_real (x : Binary64) : Magnitude (render (.real x)) ∨ ∃ m, render (.real x) = '-' :: m ∧ Magnitude m := by
  have digits := digits_parts (Decimal.shortest x).digits
  simp only [render, Decimal.render]
  split <;> split
  · exact .inr ⟨_, rfl, positional_magnitude Nat.toDigits_ne_nil digits _⟩
  · exact .inr ⟨_, rfl, scientific_magnitude Nat.toDigits_ne_nil digits _⟩
  · exact .inl (positional_magnitude Nat.toDigits_ne_nil digits _)
  · exact .inl (scientific_magnitude Nat.toDigits_ne_nil digits _)

theorem render_integer (n : Int) (range) :
    (∃ m : Nat, n = m ∧ render (.integer n range) = Nat.toDigits 10 m) ∨
    ∃ m : Nat, n = -(m : Int) ∧ 0 < m ∧ render (.integer n range) = '-' :: Nat.toDigits 10 m := by
  cases n with
  | ofNat m => exact .inl ⟨m, rfl, rfl⟩
  | negSucc m => exact .inr ⟨m + 1, rfl, Nat.succ_pos m, rfl⟩

theorem opened_octets (text : List Char) (first : ∃ d rest, text = d :: rest ∧ d.isDigit = true)
    (parts : ∀ c ∈ text, isPart c = true) :
    ∃ b rest d, Utf8.encode text = b :: rest ∧ digit? b = some d ∧ ∀ b ∈ rest, IsPart b := by
  obtain ⟨c, more, rfl, isDigit⟩ := first
  obtain ⟨b, octet, _, _, digit⟩ := part_octet (parts c List.mem_cons_self)
  obtain ⟨d, digit⟩ := Option.isSome_iff_exists.mp (digit isDigit)
  refine ⟨b, Utf8.encode more, d, ?_, digit, ?_⟩
  · rw [← List.singleton_append, Utf8.encode_append, octet]
    rfl
  · exact parts_octets fun c later => parts c (List.mem_cons_of_mem _ later)

-- A written number is a first octet that begins a numeral and more that may belong to one.
theorem octets_render (x : Number) :
    ∃ b rest first, Utf8.encode x.render = b :: rest ∧ begin? b = some first ∧ ∀ b ∈ rest, IsPart b := by
  have unsigned : ∀ {text : List Char}, (∃ d rest, text = d :: rest ∧ d.isDigit = true) → (∀ c ∈ text, isPart c = true) →
      ∃ b rest first, Utf8.encode text = b :: rest ∧ begin? b = some first ∧ ∀ b ∈ rest, IsPart b := by
    intro text first parts
    obtain ⟨b, rest, d, octets, digit, later⟩ := opened_octets text first parts
    refine ⟨b, rest, ⟨false, if d = 0 then .zero else .whole, d, 0, false, 0⟩, octets, ?_, later⟩
    have plain : b ≠ 45 := by
      rintro rfl
      cases digit
    simp [begin?, plain, digit]
  have signed : ∀ {text : List Char}, (∀ c ∈ text, isPart c = true) →
      ∃ b rest first, Utf8.encode ('-' :: text) = b :: rest ∧ begin? b = some first ∧ ∀ b ∈ rest, IsPart b :=
    fun parts => ⟨45, _, empty true, rfl, rfl, parts_octets parts⟩
  have digits : ∀ m, ∃ d rest, Nat.toDigits 10 m = d :: rest ∧ d.isDigit = true := by
    intro m
    obtain ⟨d, rest, same⟩ := List.exists_cons_of_ne_nil (Nat.toDigits_ne_nil (n := m) (b := 10))
    exact ⟨d, rest, same, (digits_parts m d (same ▸ List.mem_cons_self)).1⟩
  cases x with
  | integer n range =>
    rcases render_integer n range with ⟨m, _, written⟩ | ⟨m, _, _, written⟩ <;> rw [written]
    · exact unsigned (digits m) fun c present => (digits_parts m c present).2
    · exact signed fun c present => (digits_parts m c present).2
  | real x =>
    rcases render_real x with magnitude | ⟨m, written, magnitude⟩
    · exact unsigned magnitude.first magnitude.parts
    · rw [written]
      exact signed magnitude.parts

-- The number that a number's text reads as, if it reads as one.
def reread? (x : Number) : Option Number :=
  (ofOctets (Utf8.encode x.render)).bind fun n => n.finish.toOption

theorem reread?_integer (n : Int) (range) : reread? (.integer n range) = some (.integer n range) := by
  obtain ⟨low, high⟩ := range
  unfold reread?
  rcases render_integer n ⟨low, high⟩ with ⟨m, rfl, written⟩ | ⟨m, rfl, positive, written⟩ <;> rw [written]
  · have small : m < 0x10000000000000000 := by omega
    obtain ⟨b, rest, d, octets, digit, _⟩ := opened_octets (Nat.toDigits 10 m)
      (by
        obtain ⟨d, rest, same⟩ := List.exists_cons_of_ne_nil (Nat.toDigits_ne_nil (n := m) (b := 10))
        exact ⟨d, rest, same, (digits_parts m d (same ▸ List.mem_cons_self)).1⟩)
      fun c present => (digits_parts m c present).2
    have read := feed_digits false m small
    rw [octets] at read ⊢
    rw [ofOctets_digit digit, read]
    by_cases zero : m = 0
    · subst zero
      rfl
    · simp [finish, zero, small, Except.toOption]
  · have small : m < 0x10000000000000000 := by omega
    have read := feed_digits true m small
    have octets : ofOctets (Utf8.encode ('-' :: Nat.toDigits 10 m)) =
        (empty true).feed (Utf8.encode (Nat.toDigits 10 m)) := rfl
    have fits : m ≤ 0x8000000000000000 := by omega
    rw [octets, read]
    simp [finish, Nat.ne_of_gt positive, positive, fits, Except.toOption]

theorem reread?_real {x : Binary64} {y : Number} (read : reread? (.real x) = some y) : ∃ z, y = .real z := by
  obtain ⟨n, fed, finished⟩ := Option.bind_eq_some_iff.mp read
  have marks : ∀ {m : List Char}, Magnitude m → 46 ∈ Utf8.encode m ∨ 101 ∈ Utf8.encode m := by
    intro m magnitude
    rcases magnitude.marked with point | exponent
    · exact .inl (List.mem_flatMap.mpr ⟨'.', point, List.mem_singleton.mpr rfl⟩)
    · exact .inr (List.mem_flatMap.mpr ⟨'e', exponent, List.mem_singleton.mpr rfl⟩)
  have real : n.stage.isReal = true := by
    rcases render_real x with magnitude | ⟨m, written, magnitude⟩
    · obtain ⟨b, rest, d, octets, digit, _⟩ := opened_octets _ magnitude.first magnitude.parts
      rw [octets, ofOctets_digit digit, ← octets] at fed
      exact feed_marked (marks magnitude) fed
    · rw [written] at fed
      exact feed_marked (marks magnitude) fed
  refine finish_real real (x := y) ?_
  cases ended : n.finish with
  | error _ => simp [ended, Except.toOption] at finished
  | ok z =>
    rw [ended] at finished
    cases finished
    rfl

end Number
end DuplexRpc.Json
