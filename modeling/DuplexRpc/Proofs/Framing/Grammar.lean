import Mathlib.Data.List.Induction
import Mathlib.Data.Nat.Digits.Defs
import DuplexRpc.Proofs.Framing.RoundTrip

namespace DuplexRpc.Framing

-- A text cut at its line ends.
structure Cut (text : List Char) (parts : List (List Char)) : Prop where
  some' : parts ≠ []
  joined : lineEnd.intercalate parts = text
  whole : ∀ part ∈ parts, ¬ lineEnd <:+: part

-- A line's name and value stand before and behind its first colon, with or without blanks around.
def Field (row name value : List Char) : Prop :=
  ∃ front back, row = front ++ ':' :: back ∧ ':' ∉ front ∧ Blank.trim front = name ∧ Blank.trim back = value

-- Decimal digits, behind a plus sign or not, for a number of 64 bits.
def Numeral (value : List Char) (n : Nat) : Prop :=
  ∃ digits, digits ≠ [] ∧ (value = digits ∨ value = '+' :: digits) ∧ (∀ c ∈ digits, c.isDigit = true) ∧
    Nat.ofDigits 10 (digits.reverse.map fun c => c.toNat - '0'.toNat) = n ∧ n < 0x10000000000000000

-- What is wrong with a line: it has no colon, or its length is no number.
inductive Offends (row : List Char) : Fault → Prop
  | colonless : ':' ∉ row → Offends row (.malformedLine (String.ofList row))
  | unnumbered {value} : Field row lengthName value → (∀ n, ¬ Numeral value n) →
      Offends row (.invalidLength (String.ofList value))

def Announces (row : List Char) (n : Nat) : Prop := ∃ value, Field row lengthName value ∧ Numeral value n

-- A line of another name.
def Aside (row : List Char) : Prop := ∃ name value, Field row name value ∧ name ≠ lengthName

-- Lines that announce a length: the last of those that name one.
structure Accepts (rows : List (List Char)) (n : Nat) : Prop where
  colons : ∀ row ∈ rows, ':' ∈ row
  numbers : ∀ row ∈ rows, ∀ value, Field row lengthName value → ∃ m, Numeral value m
  last : ∃ front row back, rows = front ++ row :: back ∧ Announces row n ∧
    ∀ other ∈ back, ∀ value, ¬ Field other lengthName value

-- Lines that announce none: the first wrong one decides, or else no line names a length.
inductive Refuses (rows : List (List Char)) : Fault → Prop
  | offended (front : List (List Char)) {row back fault} : rows = front ++ row :: back → Offends row fault →
      (∀ other ∈ front, ∀ fault, ¬ Offends other fault) → Refuses rows fault
  | missing : (∀ row ∈ rows, ∀ fault, ¬ Offends row fault) → (∀ row ∈ rows, ∀ value, ¬ Field row lengthName value) →
      Refuses rows .missingLength

-- Lines of octets as they stand in a block.
def block (parts : List (List UInt8)) : List UInt8 := List.intercalate [13, 10] parts

variable {text row name value name' value' front back left right : List Char} {parts rows : List (List Char)}
  {known : Option Nat} {fault : Fault} {n : Nat}

theorem cut_lines (text : List Char) : Cut text (lines text) := by
  induction text using lines.induct with
  | case1 => exact ⟨by decide, rfl, by decide⟩
  | case2 rest ih =>
    refine ⟨List.cons_ne_nil _ _, ?_, List.forall_mem_cons.mpr ⟨by decide, ih.whole⟩⟩
    rw [lines, List.intercalate_cons_of_ne_nil ih.some', ih.joined]
    rfl
  | case3 c rest apart nothing ih => exact absurd nothing (lines_ne_nil rest)
  | case4 c rest apart line others split ih =>
    rw [split] at ih
    have apart' : c = '\r' → rest.head? ≠ some '\n' := by
      rintro rfl next
      obtain ⟨rest, rfl⟩ := List.head?_eq_some_iff.mp next
      exact apart rest rfl rfl
    obtain ⟨first, whole⟩ := List.forall_mem_cons.mp ih.whole
    rw [lines_cons apart', split]
    refine ⟨List.cons_ne_nil _ _, ?_, List.forall_mem_cons.mpr ⟨?_, whole⟩⟩
    · rw [← ih.joined]
      cases others with
      | nil => rfl
      | cons next others =>
        rw [List.intercalate_cons_cons, List.intercalate_cons_cons]
        rfl
    · rw [List.infix_cons_iff, not_or]
      refine ⟨fun begins => ?_, first⟩
      obtain ⟨rfl, line, rfl⟩ := List.cons_prefix_cons.mp begins
      refine apart' rfl ?_
      rw [← ih.joined]
      cases others with
      | nil => rfl
      | cons next others => rw [List.intercalate_cons_cons]; rfl

theorem cut_iff : Cut text parts ↔ parts = lines text := by
  refine ⟨fun cut => ?_, fun same => same ▸ cut_lines text⟩
  obtain ⟨some', rfl, whole⟩ := cut
  induction parts with
  | nil => exact absurd rfl some'
  | cons part others ih =>
    obtain ⟨first, whole'⟩ := List.forall_mem_cons.mp whole
    cases others with
    | nil => rw [List.intercalate_singleton, lines_line first]
    | cons next others =>
      rw [List.intercalate_cons_cons, lines_append, lines_line first, ← ih (List.cons_ne_nil _ _) whole']
      rfl

theorem splitLine_none (colonless : ':' ∉ row) : splitLine row = none := by
  have other : ∀ c ∈ row, decide (c ≠ ':') = true := by
    intro c present
    rw [decide_eq_true_eq]
    rintro rfl
    exact colonless present
  have nothing : row.dropWhile (· ≠ ':') = [] := by
    rw [← List.append_nil row, List.dropWhile_append_of_pos other, List.dropWhile_nil]
  rw [splitLine, nothing]

theorem Field.unique (one : Field row name value) (two : Field row name' value') : name' = name ∧ value' = value := by
  obtain ⟨front, back, rfl, plain, rfl, rfl⟩ := one
  obtain ⟨front', back', same, plain', rfl, rfl⟩ := two
  have split := splitLine_at front back plain
  rw [same, splitLine_at front' back' plain'] at split
  cases split
  exact ⟨rfl, rfl⟩

theorem field_of_colon (colon : ':' ∈ row) : ∃ name value, Field row name value := by
  obtain ⟨front, back, rfl, plain⟩ := List.eq_append_cons_of_mem colon
  exact ⟨_, _, front, back, rfl, plain, rfl, rfl⟩

theorem digitsValue?_concat (digits : List Char) (c : Char) : digitsValue? (digits ++ [c]) =
    (digitsValue? digits).bind fun n => (digitValue? c).map (n * 10 + ·) := by
  rw [digitsValue?, List.foldlM_append]
  simp [digitsValue?]

theorem digitValue?_eq_some {c : Char} {d : Nat} :
    digitValue? c = some d ↔ c.isDigit = true ∧ c.toNat - '0'.toNat = d := by
  have same : ('0' ≤ c ∧ c ≤ '9') ↔ c.isDigit = true := by
    simp only [Char.isDigit, Char.le_def, Bool.and_eq_true, decide_eq_true_eq, ge_iff_le]
  unfold digitValue?
  split
  · rename_i digit
    simp [same.mp digit]
  · rename_i other
    have other' : c.isDigit = false := by simpa using fun digit => other (same.mpr digit)
    simp [other']

-- Read from the left, the digits mean what they mean by their places.
theorem digitsValue?_eq_some (digits : List Char) (n : Nat) : digitsValue? digits = some n ↔
    (∀ c ∈ digits, c.isDigit = true) ∧ Nat.ofDigits 10 (digits.reverse.map fun c => c.toNat - '0'.toNat) = n := by
  induction digits using List.reverseRecOn generalizing n with
  | nil => simp [digitsValue?]
  | append_singleton digits c ih =>
    rw [digitsValue?_concat, Option.bind_eq_some_iff]
    simp only [ih, Option.map_eq_some_iff, digitValue?_eq_some, List.reverse_append, List.reverse_singleton,
      List.singleton_append, List.map_cons, Nat.ofDigits_cons, List.forall_mem_append, List.forall_mem_singleton]
    constructor
    · rintro ⟨_, ⟨digits, rfl⟩, _, ⟨digit, rfl⟩, rfl⟩
      exact ⟨⟨digits, digit⟩, by omega⟩
    · rintro ⟨⟨digits, digit⟩, rfl⟩
      exact ⟨_, ⟨digits, rfl⟩, _, ⟨digit, rfl⟩, by omega⟩

theorem numeral_iff (value : List Char) (n : Nat) : Numeral value n ↔
    ∃ digits, digits ≠ [] ∧ (value = digits ∨ value = '+' :: digits) ∧ digitsValue? digits = some n ∧
      n < 0x10000000000000000 := by
  simp only [Numeral, digitsValue?_eq_some, and_assoc]

theorem unsigned_eq_some (digits : List Char) :
    (if digits = [] then none else (digitsValue? digits).filter (· < 0x10000000000000000)) = some n ↔
      digits ≠ [] ∧ digitsValue? digits = some n ∧ n < 0x10000000000000000 := by
  by_cases nothing : digits = []
  · simp [nothing]
  · rw [if_neg nothing, Option.filter_eq_some_iff, decide_eq_true_eq]
    simp [nothing]

theorem length?_unsigned (unsigned : ∀ rest, value ≠ '+' :: rest) : length? value =
    if value = [] then none else (digitsValue? value).filter (· < 0x10000000000000000) := by
  cases value with
  | nil => rfl
  | cons c rest => simp [length?]

theorem length?_eq_some : length? value = some n ↔ Numeral value n := by
  rw [numeral_iff]
  -- A plus sign is no digit, so there is one way to take the digits from the value.
  have plus : ∀ rest, digitsValue? ('+' :: rest) = none := fun _ => rfl
  by_cases signed : ∃ rest, value = '+' :: rest
  · obtain ⟨rest, rfl⟩ := signed
    refine (unsigned_eq_some rest).trans ⟨fun ⟨some', read⟩ => ⟨rest, some', .inr rfl, read⟩, ?_⟩
    rintro ⟨digits, some', rfl | same, read, small⟩
    · cases (plus rest).symm.trans read
    · cases same
      exact ⟨some', read, small⟩
  · have unsigned := not_exists.mp signed
    rw [length?_unsigned unsigned]
    refine (unsigned_eq_some value).trans ⟨fun ⟨some', read⟩ => ⟨value, some', .inl rfl, read⟩, ?_⟩
    rintro ⟨digits, some', rfl | same, read⟩
    · exact ⟨some', read⟩
    · exact absurd same (unsigned digits)

theorem readLine_at (known : Option Nat) (front back : List Char) (plain : ':' ∉ front) :
    readLine known (front ++ ':' :: back) =
      if Blank.trim front = lengthName then
        match length? (Blank.trim back) with
        | some n => .ok (some n)
        | none => .error (.invalidLength (String.ofList (Blank.trim back)))
      else .ok known := by
  cases number : length? (Blank.trim back) <;> simp only [readLine, splitLine_at front back plain, number]

theorem readLine_offends (offends : Offends row fault) (known : Option Nat) : readLine known row = .error fault := by
  cases offends with
  | colonless colonless => rw [readLine, splitLine_none colonless]
  | unnumbered field numeral =>
    obtain ⟨front, back, rfl, plain, named, rfl⟩ := field
    have unread : length? (Blank.trim back) = none := by
      rw [Option.eq_none_iff_forall_ne_some]
      exact fun n read => numeral n (length?_eq_some.mp read)
    rw [readLine_at known front back plain, if_pos named, unread]

theorem readLine_announces (announces : Announces row n) (known : Option Nat) : readLine known row = .ok (some n) := by
  obtain ⟨_, ⟨front, back, rfl, plain, named, rfl⟩, numeral⟩ := announces
  rw [readLine_at known front back plain, if_pos named, length?_eq_some.mpr numeral]

theorem readLine_aside (aside : Aside row) (known : Option Nat) : readLine known row = .ok known := by
  obtain ⟨_, _, ⟨front, back, rfl, plain, rfl, rfl⟩, other⟩ := aside
  rw [readLine_at known front back plain, if_neg other]

theorem row_cases (row : List Char) : (∃ fault, Offends row fault) ∨ (∃ n, Announces row n) ∨ Aside row := by
  by_cases colon : ':' ∈ row
  · obtain ⟨name, value, field⟩ := field_of_colon colon
    by_cases named : name = lengthName
    · subst named
      by_cases numeral : ∃ n, Numeral value n
      · obtain ⟨n, numeral⟩ := numeral
        exact .inr (.inl ⟨n, value, field, numeral⟩)
      · exact .inl ⟨_, .unnumbered field (not_exists.mp numeral)⟩
    · exact .inr (.inr ⟨name, value, field, named⟩)
  · exact .inl ⟨_, .colonless colon⟩

theorem Announces.sound (announces : Announces row n) : ∀ fault, ¬ Offends row fault := by
  intro fault offends
  cases (readLine_offends offends none).symm.trans (readLine_announces announces none)

theorem Aside.sound (aside : Aside row) : ∀ fault, ¬ Offends row fault := by
  intro fault offends
  cases (readLine_offends offends none).symm.trans (readLine_aside aside none)

theorem Aside.unnamed (aside : Aside row) : ∀ value, ¬ Field row lengthName value := by
  obtain ⟨name, value, field, other⟩ := aside
  exact fun value' field' => other (field'.unique field).1

theorem aside_of_sound (sound : ∀ fault, ¬ Offends row fault) (unnamed : ∀ value, ¬ Field row lengthName value) :
    Aside row := by
  rcases row_cases row with ⟨fault, offends⟩ | ⟨n, value, field, _⟩ | aside
  · exact absurd offends (sound fault)
  · exact absurd field (unnamed value)
  · exact aside

theorem readLines_append (known : Option Nat) (one two : List (List Char)) :
    readLines known (one ++ two) = match readLines known one with
      | .ok length => readLines length two
      | .error fault => .error fault := by
  induction one generalizing known with
  | nil => rfl
  | cons row one ih =>
    rw [List.cons_append, readLines, readLines]
    cases readLine known row with
    | ok length => exact ih length
    | error fault => rfl

theorem readLines_sound (sound : ∀ row ∈ rows, ∀ fault, ¬ Offends row fault) (known : Option Nat) :
    ∃ length, readLines known rows = .ok length := by
  induction rows generalizing known with
  | nil => exact ⟨known, rfl⟩
  | cons row rows ih =>
    obtain ⟨first, others⟩ := List.forall_mem_cons.mp sound
    rw [readLines]
    rcases row_cases row with ⟨fault, offends⟩ | ⟨n, announces⟩ | aside
    · exact absurd offends (first fault)
    · rw [readLine_announces announces]
      exact ih others (some n)
    · rw [readLine_aside aside]
      exact ih others known

theorem readLines_aside (aside : ∀ row ∈ rows, Aside row) (known : Option Nat) : readLines known rows = .ok known := by
  induction rows with
  | nil => rfl
  | cons row rows ih =>
    obtain ⟨first, others⟩ := List.forall_mem_cons.mp aside
    rw [readLines, readLine_aside first]
    exact ih others

-- What the lines of a block announce.
def readRows (rows : List (List Char)) : Except Fault Nat :=
  match readLines none rows with
  | .ok (some n) => .ok n
  | .ok none => .error .missingLength
  | .error fault => .error fault

theorem readBlock_eq (octets : List UInt8) :
    readBlock octets = readRows ((lines (Utf8.lossy octets)).filter (· ≠ [])) := rfl

-- A line is all right where nothing is wrong with it.
theorem sound_iff : (∀ fault, ¬ Offends row fault) ↔
    ':' ∈ row ∧ ∀ value, Field row lengthName value → ∃ n, Numeral value n := by
  constructor
  · intro sound
    refine ⟨?_, fun value field => ?_⟩
    · by_contra colonless
      exact sound _ (.colonless colonless)
    · by_contra numeral
      exact sound _ (.unnumbered field (not_exists.mp numeral))
  · rintro ⟨colon, numbers⟩ fault offends
    cases offends with
    | colonless colonless => exact colonless colon
    | unnumbered field numeral =>
      obtain ⟨n, known⟩ := numbers _ field
      exact numeral n known

theorem Accepts.sound (accepts : Accepts rows n) : ∀ row ∈ rows, ∀ fault, ¬ Offends row fault :=
  fun row present => sound_iff.mpr ⟨accepts.colons row present, accepts.numbers row present⟩

theorem accepts_of_sound (front : List (List Char)) {back : List (List Char)}
    (sound : ∀ other ∈ front ++ row :: back, ∀ fault, ¬ Offends other fault)
    (announces : Announces row n) (unnamed : ∀ other ∈ back, ∀ value, ¬ Field other lengthName value) :
    Accepts (front ++ row :: back) n where
  colons := fun other present => (sound_iff.mp (sound other present)).1
  numbers := fun other present => (sound_iff.mp (sound other present)).2
  last := ⟨front, row, back, rfl, announces, unnamed⟩

theorem Accepts.read (accepts : Accepts rows n) : readRows rows = .ok n := by
  obtain ⟨front, row, back, rfl, announces, unnamed⟩ := accepts.last
  have sound := accepts.sound
  have aside : ∀ other ∈ back, Aside other := fun other present =>
    aside_of_sound (sound other (List.mem_append_right _ (List.mem_cons_of_mem _ present))) (unnamed other present)
  obtain ⟨length, before⟩ := readLines_sound (fun other present => sound other (List.mem_append_left _ present)) none
  rw [readRows, readLines_append, before]
  simp only [readLines, readLine_announces announces, readLines_aside aside]

theorem Refuses.read (refuses : Refuses rows fault) : readRows rows = .error fault := by
  cases refuses with
  | offended _ split offends sound =>
    obtain ⟨length, before⟩ := readLines_sound sound none
    rw [readRows, split, readLines_append, before]
    simp only [readLines, readLine_offends offends]
  | missing sound unnamed =>
    have aside : ∀ row ∈ rows, Aside row := fun row present => aside_of_sound (sound row present) (unnamed row present)
    rw [readRows, readLines_aside aside]

-- Lines that are all right announce the last length among them, or none.
theorem rows_cases (rows : List (List Char)) : (∃ n, Accepts rows n) ∨ ∃ fault, Refuses rows fault := by
  induction rows with
  | nil => exact .inr ⟨_, .missing (List.forall_mem_nil _) (List.forall_mem_nil _)⟩
  | cons row rows ih =>
    rcases row_cases row with ⟨fault, offends⟩ | right
    · exact .inr ⟨fault, .offended [] rfl offends (List.forall_mem_nil _)⟩
    · have sound : ∀ fault, ¬ Offends row fault := by
        rcases right with ⟨n, announces⟩ | aside
        · exact announces.sound
        · exact aside.sound
      rcases ih with ⟨n, accepts⟩ | ⟨fault, refuses⟩
      · have sound' := List.forall_mem_cons.mpr ⟨sound, accepts.sound⟩
        obtain ⟨front, last, back, rfl, announces, unnamed⟩ := accepts.last
        exact .inl ⟨n, accepts_of_sound (row :: front) sound' announces unnamed⟩
      · cases refuses with
        | offended front split offends before =>
          exact .inr ⟨fault, .offended (row :: front) (congrArg (row :: ·) split) offends
            (List.forall_mem_cons.mpr ⟨sound, before⟩)⟩
        | missing others unnamed =>
          rcases right with ⟨n, announces⟩ | aside
          · have sound' := List.forall_mem_cons.mpr ⟨sound, others⟩
            exact .inl ⟨n, accepts_of_sound [] sound' announces unnamed⟩
          · exact .inr ⟨_, .missing (List.forall_mem_cons.mpr ⟨sound, others⟩)
              (List.forall_mem_cons.mpr ⟨aside.unnamed, unnamed⟩)⟩

theorem readRows_ok : readRows rows = .ok n ↔ Accepts rows n := by
  refine ⟨fun read => ?_, Accepts.read⟩
  rcases rows_cases rows with ⟨m, accepts⟩ | ⟨fault, refuses⟩
  · cases accepts.read.symm.trans read
    exact accepts
  · cases refuses.read.symm.trans read

theorem readRows_error : readRows rows = .error fault ↔ Refuses rows fault := by
  refine ⟨fun read => ?_, Refuses.read⟩
  rcases rows_cases rows with ⟨m, accepts⟩ | ⟨other, refuses⟩
  · cases accepts.read.symm.trans read
  · cases refuses.read.symm.trans read
    exact refuses

theorem lossy_lineEnd (one two : List UInt8) :
    Utf8.lossy (one ++ [13, 10] ++ two) = Utf8.lossy one ++ lineEnd ++ Utf8.lossy two := by
  have first := Utf8.lossy_around one '\r' (10 :: two)
  have second := Utf8.lossy_around [] '\n' two
  rw [List.append_assoc, List.append_assoc]
  exact first.trans (congrArg (fun text => Utf8.lossy one ++ '\r' :: text) second)

-- The lines of a block are those of its parts.
theorem lines_block (parts : List (List UInt8)) : (lines (Utf8.lossy (block parts))).filter (· ≠ []) =
    parts.flatMap fun part => (lines (Utf8.lossy part)).filter (· ≠ []) := by
  induction parts with
  | nil => rfl
  | cons part others ih =>
    cases others with
    | nil => simp [block]
    | cons next others =>
      rw [block, List.intercalate_cons_cons, lossy_lineEnd, lines_append, List.filter_append, ← block, ih]
      rfl

theorem readRows_insert {added : List (List Char)} (aside : ∀ row ∈ added, Aside row) (one two : List (List Char)) :
    readRows (one ++ (added ++ two)) = readRows (one ++ two) := by
  rw [readRows, readRows, readLines_append, readLines_append]
  cases readLines none one with
  | ok length => simp only [readLines_append, readLines_aside aside]
  | error fault => rfl

theorem readRows_replace {row' : List Char} (same : ∀ known, readLine known row = readLine known row')
    (one two : List (List Char)) : readRows (one ++ ([row] ++ two)) = readRows (one ++ ([row'] ++ two)) := by
  rw [readRows, readRows, readLines_append, readLines_append]
  cases readLines none one with
  | ok length => simp only [List.singleton_append, readLines, same]
  | error fault => rfl

theorem trim_around (leading : ∀ c ∈ left, Blank.isBlank c = true) (trailing : ∀ c ∈ right, Blank.isBlank c = true)
    (text : List Char) : Blank.trim (left ++ text ++ right) = Blank.trim text := by
  have start : ∀ left text : List Char, (∀ c ∈ left, Blank.isBlank c = true) →
      Blank.trimStart (left ++ text) = Blank.trimStart text :=
    fun left text blank => List.dropWhile_append_of_pos blank
  have trailing' : ∀ c ∈ right.reverse, Blank.isBlank c = true := fun c present =>
    trailing c (List.mem_reverse.mp present)
  rw [Blank.trim, Blank.trim, List.append_assoc, start _ _ leading]
  unfold Blank.trimStart at start ⊢
  by_cases nothing : text.dropWhile Blank.isBlank = []
  · have gone : right.dropWhile Blank.isBlank = [] := by simpa using start right [] trailing
    rw [List.dropWhile_append, nothing, gone]
    rfl
  · have kept : (text ++ right).dropWhile Blank.isBlank = text.dropWhile Blank.isBlank ++ right := by
      rw [List.dropWhile_append, if_neg (by simpa using nothing)]
    rw [kept, List.reverse_append, start _ _ trailing']

-- Blanks around a name or a value make no difference to what the line says.
theorem readLine_spaced {b₁ b₂ b₃ b₄ : List Char} (blank : ∀ c ∈ b₁ ++ b₂ ++ b₃ ++ b₄, Blank.isBlank c = true)
    (plain : ':' ∉ front) (known : Option Nat) :
    readLine known (b₁ ++ front ++ b₂ ++ ':' :: (b₃ ++ back ++ b₄)) = readLine known (front ++ ':' :: back) := by
  simp only [List.forall_mem_append, and_assoc] at blank
  obtain ⟨first, second, third, fourth⟩ := blank
  have colonless : ∀ blanks : List Char, (∀ c ∈ blanks, Blank.isBlank c = true) → ':' ∉ blanks := by
    intro blanks blank present
    cases blank ':' present
  have plain' : ':' ∉ b₁ ++ front ++ b₂ := by
    simp only [List.mem_append, not_or]
    exact ⟨⟨colonless _ first, plain⟩, colonless _ second⟩
  rw [readLine_at known _ _ plain', readLine_at known _ _ plain, trim_around first second, trim_around third fourth]

theorem lossy_colon (one two : List UInt8) : Utf8.lossy (one ++ 58 :: two) = Utf8.lossy one ++ ':' :: Utf8.lossy two :=
  Utf8.lossy_around one ':' two

-- A line end has no colon in it, so it stands on one side of it.
theorem lineEnd_beside (found : lineEnd <:+: front ++ ':' :: back) : lineEnd <:+: front ∨ lineEnd <:+: back := by
  rcases List.infix_append_iff_ne_nil.mp found with first | second | ⟨one, two, _, some', split, _, begins⟩
  · exact .inl first
  · rcases List.infix_cons_iff.mp second with begins | later
    · exact absurd (List.cons_prefix_cons.mp begins).1 (by decide)
    · exact .inr later
  · obtain ⟨head, more, rfl⟩ := List.exists_cons_of_ne_nil some'
    obtain ⟨rfl, _⟩ := List.cons_prefix_cons.mp begins
    have listed : ':' ∈ lineEnd := by simp [split]
    exact absurd listed (by decide)

theorem lineEnd_spaced (b₁ b₂ b₃ b₄ : List Char) (found : lineEnd <:+: front ++ ':' :: back) :
    lineEnd <:+: b₁ ++ front ++ b₂ ++ ':' :: (b₃ ++ back ++ b₄) := by
  rcases lineEnd_beside found with inside | inside
  · exact inside.trans ⟨b₁, b₂ ++ ':' :: (b₃ ++ back ++ b₄), by simp⟩
  · exact inside.trans ⟨b₁ ++ front ++ b₂ ++ ':' :: b₃, b₄, by simp⟩

theorem lossy_spaced (b₁ b₂ b₃ b₄ : List Char) (name value : List UInt8) :
    Utf8.lossy (Utf8.encode b₁ ++ name ++ Utf8.encode b₂ ++ 58 :: (Utf8.encode b₃ ++ value ++ Utf8.encode b₄)) =
      b₁ ++ Utf8.lossy name ++ b₂ ++ ':' :: (b₃ ++ Utf8.lossy value ++ b₄) := by
  rw [lossy_colon, Utf8.lossy_append_encode, Utf8.lossy_encode_append, Utf8.lossy_append_encode, Utf8.lossy_encode_append]

-- A block announces what its lines say and nothing else. So a line of another name, an empty one
-- and blanks around names and values make no difference, wherever they stand, as long as the blanks
-- do not end the line.
theorem headers_are_read_by_their_grammar :
    (∀ octets, ∃ parts, (∀ others, Cut (Utf8.lossy octets) others ↔ others = parts) ∧
      (∀ n, readBlock octets = .ok n ↔ Accepts (parts.filter (· ≠ [])) n) ∧
      ∀ fault, readBlock octets = .error fault ↔ Refuses (parts.filter (· ≠ [])) fault) ∧
    (∀ front back added rows, Cut (Utf8.lossy added) rows → (∀ row ∈ rows, row = [] ∨ Aside row) →
      readBlock (block (front ++ added :: back)) = readBlock (block (front ++ back))) ∧
    ∀ (front back : List (List UInt8)) (name value : List UInt8) (b₁ b₂ b₃ b₄ : List Char),
      (∀ c ∈ b₁ ++ b₂ ++ b₃ ++ b₄, Blank.isBlank c = true) → ':' ∉ Utf8.lossy name →
      let spaced := Utf8.encode b₁ ++ name ++ Utf8.encode b₂ ++ 58 :: (Utf8.encode b₃ ++ value ++ Utf8.encode b₄)
      ¬ lineEnd <:+: Utf8.lossy spaced →
      readBlock (block (front ++ spaced :: back)) = readBlock (block (front ++ (name ++ 58 :: value) :: back)) := by
  refine ⟨fun octets => ⟨_, fun others => cut_iff, fun n => readRows_ok, fun fault => readRows_error⟩, ?_, ?_⟩
  · intro front back added rows cut harmless
    have aside : ∀ row ∈ (lines (Utf8.lossy added)).filter (· ≠ []), Aside row := by
      intro row present
      rw [← cut_iff.mp cut, List.mem_filter, decide_eq_true_eq] at present
      exact (harmless row present.1).resolve_left present.2
    rw [readBlock_eq, readBlock_eq, lines_block, lines_block, List.flatMap_append, List.flatMap_append, List.flatMap_cons]
    exact readRows_insert aside _ _
  · intro front back name value b₁ b₂ b₃ b₄ blank plain spaced unbroken
    have text := lossy_colon name value
    have text' : Utf8.lossy spaced = _ := lossy_spaced b₁ b₂ b₃ b₄ name value
    have unbroken' : ¬ lineEnd <:+: Utf8.lossy (name ++ 58 :: value) := fun found =>
      unbroken (text' ▸ lineEnd_spaced b₁ b₂ b₃ b₄ (text ▸ found))
    have rows : ∀ {text : List Char}, text ≠ [] → ¬ lineEnd <:+: text → (lines text).filter (· ≠ []) = [text] := by
      intro text some' unbroken
      simp [lines_line unbroken, some']
    rw [readBlock_eq, readBlock_eq, lines_block, lines_block, List.flatMap_append, List.flatMap_append, List.flatMap_cons,
      List.flatMap_cons, rows (by simp [text']) unbroken, rows (by simp [text]) unbroken', text, text']
    exact readRows_replace (readLine_spaced blank plain) _ _

-- Of two lengths the last one counts, a sign and zeros before it and a length within a value aside;
-- of two wrong lines the first one does.
theorem headers_are_read_by_their_grammar_mixed :
    let first := Utf8.encode "Content-Length: 5".toList
    let last := Utf8.encode "Content-Length:+07".toList
    let added := Utf8.encode "X-Note: Content-Length: 6".toList
    let spaced := Utf8.encode "\tContent-Length \u00a0:  +07\r".toList
    Cut (Utf8.lossy added) ["X-Note: Content-Length: 6".toList] ∧ Aside "X-Note: Content-Length: 6".toList ∧
      readBlock (block [first, added, last]) = .ok 7 ∧
      readBlock (block [first, [], last]) = .ok 7 ∧
      ¬ lineEnd <:+: Utf8.lossy spaced ∧ readBlock (block [first, spaced]) = .ok 7 ∧
      (∃ rows, Cut (Utf8.lossy (block [first, last])) rows ∧ Accepts (rows.filter (· ≠ [])) 7) ∧
      ∃ rows, Cut (Utf8.lossy (block [Utf8.encode "Content-Length: -1".toList, Utf8.encode "none".toList])) rows ∧
        Refuses (rows.filter (· ≠ [])) (.invalidLength "-1") := by
  intro first last added spaced
  obtain ⟨whole, insert, space⟩ := headers_are_read_by_their_grammar
  have cut : Cut (Utf8.lossy added) ["X-Note: Content-Length: 6".toList] := ⟨by decide, by decide +kernel, by decide +kernel⟩
  have aside : Aside "X-Note: Content-Length: 6".toList :=
    ⟨_, _, ⟨"X-Note".toList, " Content-Length: 6".toList, by decide, by decide, rfl, rfl⟩, by decide⟩
  have plain : readBlock (block [first, last]) = .ok 7 := by decide +kernel
  have unbroken : ¬ lineEnd <:+: Utf8.lossy spaced := by decide +kernel
  have same : spaced = Utf8.encode ['\t'] ++ Utf8.encode "Content-Length".toList ++ Utf8.encode [' ', '\u00a0'] ++
      58 :: (Utf8.encode [' ', ' '] ++ Utf8.encode "+07".toList ++ Utf8.encode ['\r']) := by decide +kernel
  have same' : last = Utf8.encode "Content-Length".toList ++ 58 :: Utf8.encode "+07".toList := by decide +kernel
  have noted := insert [first] [last] added _ cut (List.forall_mem_singleton.mpr (.inr aside))
  have emptied := insert [first] [last] [] [[]] ⟨by decide, rfl, by decide⟩
    (List.forall_mem_singleton.mpr (.inl rfl))
  have widened := space [first] [] (Utf8.encode "Content-Length".toList) (Utf8.encode "+07".toList) ['\t']
    [' ', '\u00a0'] [' ', ' '] ['\r'] (List.all_eq_true.mp (by decide)) (by decide +kernel) (by rwa [← same])
  rw [← same, ← same'] at widened
  refine ⟨cut, aside, noted.trans plain, emptied.trans plain, unbroken, widened.trans plain, ?_, ?_⟩
  · obtain ⟨rows, cut', accepts, _⟩ := whole (block [first, last])
    exact ⟨rows, (cut' rows).mpr rfl, (accepts 7).mp plain⟩
  · obtain ⟨rows, cut', _, refuses⟩ := whole (block [Utf8.encode "Content-Length: -1".toList, Utf8.encode "none".toList])
    exact ⟨rows, (cut' rows).mpr rfl, (refuses _).mp (by decide +kernel)⟩

end DuplexRpc.Framing
