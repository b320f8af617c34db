import DuplexRpc.Proofs.Framing.Cuts
import DuplexRpc.Proofs.Framing.Header

namespace DuplexRpc.Framing
variable {contentType : Option String} {line more : List Char} {length : Nat} {body rest : List UInt8}

def lineEnd : List Char := ['\r', '\n']

theorem lines_cons {c : Char} (apart : c = '\r' → more.head? ≠ some '\n') :
    lines (c :: more) = match lines more with
      | [] => [[c]]
      | line :: others => (c :: line) :: others := by
  refine (lines.eq_3 c more ?_).trans rfl
  rintro rest rfl rfl
  exact apart rfl rfl

-- A text without a line end in it is one line, and goes on as one until the next line end.
theorem lines_line (whole : ¬ lineEnd <:+: line) : lines line = [line] := by
  induction line with
  | nil => rfl
  | cons c line ih =>
    have later : ¬ lineEnd <:+: line := fun found => whole (found.trans (List.suffix_cons ..).isInfix)
    have apart : c = '\r' → line.head? ≠ some '\n' := by
      rintro rfl next
      obtain ⟨line, rfl⟩ := List.head?_eq_some_iff.mp next
      exact whole ⟨[], line, rfl⟩
    rw [lines_cons apart, ih later]

theorem lines_ne_nil (text : List Char) : lines text ≠ [] := by
  unfold lines
  repeat' split
  all_goals exact List.cons_ne_nil _ _

theorem lines_append (one more : List Char) : lines (one ++ lineEnd ++ more) = lines one ++ lines more := by
  induction one using lines.induct with
  | case1 => rfl
  | case2 rest ih => exact congrArg ([] :: ·) ih
  | case3 c rest apart nothing ih => exact absurd nothing (lines_ne_nil rest)
  | case4 c rest apart line others split ih =>
    have apart' : c = '\r' → (rest ++ lineEnd ++ more).head? ≠ some '\n' := by
      rintro rfl next
      cases rest with
      | nil => cases next
      | cons d rest =>
        obtain rfl : d = '\n' := by simpa using next
        exact apart rest rfl rfl
    have apart'' : c = '\r' → rest.head? ≠ some '\n' := by
      rintro rfl next
      obtain ⟨rest, rfl⟩ := List.head?_eq_some_iff.mp next
      exact apart rest rfl rfl
    change lines (c :: (rest ++ lineEnd ++ more)) = _
    rw [lines_cons apart', ih, lines_cons apart'', split]
    rfl

theorem splitLine_at (name value : List Char) (plain : ':' ∉ name) :
    splitLine (name ++ ':' :: value) = some (name, value) := by
  have other : ∀ c ∈ name, (c ≠ ':') = true := by
    intro c present
    simp only [ne_eq, eq_iff_iff, iff_true]
    rintro rfl
    exact plain present
  have name' : (name ++ ':' :: value).takeWhile (· ≠ ':') = name := by
    rw [List.takeWhile_append_of_pos (by simpa using other)]
    simp
  have value' : (name ++ ':' :: value).dropWhile (· ≠ ':') = ':' :: value := by
    rw [List.dropWhile_append_of_pos (by simpa using other)]
    simp
  rw [splitLine, value', name']

theorem trim_visible {text : List Char} (visible : ∀ c ∈ text, Blank.isBlank c = false) : Blank.trim text = text := by
  have start : ∀ text : List Char, (∀ c ∈ text, Blank.isBlank c = false) → Blank.trimStart text = text := by
    intro text visible
    cases text with
    | nil => rfl
    | cons c text => simp [Blank.trimStart, visible c]
  rw [Blank.trim, start text visible, start text.reverse, List.reverse_reverse]
  simpa using visible

theorem digitValue?_digitChar : ∀ d < 10, digitValue? (Nat.digitChar d) = some d := by
  decide

theorem digitsValue?_toDigits (n : Nat) : digitsValue? (Nat.toDigits 10 n) = some n := by
  induction n using Nat.strongRecOn with
  | ind n ih =>
    by_cases single : n < 10
    · rw [Nat.toDigits_of_lt_base single]
      simp [digitsValue?, digitValue?_digitChar n single]
    · have first := ih (n / 10) (by omega)
      have last : n % 10 < 10 := Nat.mod_lt _ (by decide)
      have whole : n / 10 * 10 + n % 10 = n := by omega
      unfold digitsValue? at first ⊢
      rw [Nat.toDigits_of_base_le (by decide) (by omega), List.foldlM_append, first]
      simp [digitValue?_digitChar _ last, whole]

-- A written length is read as itself.
theorem length?_toDigits (small : length < 0x10000000000000000) : length? (Nat.toDigits 10 length) = some length := by
  have digits : ∀ c ∈ Nat.toDigits 10 length, c.isDigit = true :=
    fun c present => Nat.isDigit_of_mem_toDigits (by decide) (by decide) present
  have some' : Nat.toDigits 10 length ≠ [] := Nat.toDigits_ne_nil
  have value := digitsValue?_toDigits length
  unfold length?
  split
  · rename_i rest begins
    have plus := digits '+' (by simp [begins])
    cases plus
  · simp [some', value, small]

theorem readLine_length (known : Option Nat) (small : length < 0x10000000000000000) :
    readLine known (lengthName ++ ':' :: ' ' :: Nat.toDigits 10 length) = .ok (some length) := by
  have visible : ∀ c ∈ Nat.toDigits 10 length, Blank.isBlank c = false := by
    intro c present
    have digit : c.isDigit = true := Nat.isDigit_of_mem_toDigits (by decide) (by decide) present
    have range : 48 ≤ c.toNat ∧ c.toNat ≤ 57 := by
      simpa [Char.isDigit, Char.le_def, UInt32.le_iff_toNat_le] using digit
    simp only [Blank.isBlank, Bool.or_eq_false_iff, Bool.and_eq_false_iff, decide_eq_false_iff_not, beq_eq_false_iff_ne]
    omega
  have value : Blank.trim (' ' :: Nat.toDigits 10 length) = Nat.toDigits 10 length := trim_visible visible
  have name : Blank.trim lengthName = lengthName := by decide
  simp only [readLine, splitLine_at lengthName _ (by decide), name, value, length?_toDigits small, if_true]

theorem readLine_type (known : Option Nat) (value : List Char) :
    readLine known (typeName ++ ':' :: ' ' :: value) = .ok known := by
  have other : ¬ Blank.trim typeName = lengthName := by decide
  simp only [readLine, splitLine_at typeName _ (by decide), if_neg other]

-- The lines of a written header.
def headerText (contentType : Option String) (length : Nat) : List Char :=
  lengthName ++ ':' :: ' ' :: Nat.toDigits 10 length ++
    match contentType with
    | some type => lineEnd ++ (typeName ++ ':' :: ' ' :: type.toList)
    | none => []

theorem header_eq (contentType : Option String) (length : Nat) :
    header contentType length = Utf8.encode (headerText contentType length) ++ terminator := by
  have ends : Utf8.encode lineEnd = [13, 10] := by decide
  cases contentType with
  | none => simp [header, headerText, typeLine, headerLine_eq, terminator]
  | some type =>
    simp only [header, headerText, typeLine, headerLine_eq]
    generalize lengthName ++ ':' :: ' ' :: Nat.toDigits 10 length = first
    generalize typeName ++ ':' :: ' ' :: type.toList = second
    rw [Utf8.encode_append first, Utf8.encode_append lineEnd, ends]
    simp only [terminator, List.append_assoc, List.cons_append, List.nil_append]

-- No line end begins in the text around the digits and the content type.
theorem infix_behind {front text tail : List Char} (plain : '\r' ∉ front) (found : '\r' :: tail <:+: front ++ text) :
    '\r' :: tail <:+: text := by
  rcases List.infix_append_iff_ne_nil.mp found with first | second | ⟨one, two, some', _, split, begins, _⟩
  · exact absurd (first.subset List.mem_cons_self) plain
  · exact second
  · obtain ⟨head, more, rfl⟩ := List.exists_cons_of_ne_nil some'
    obtain ⟨rfl, _⟩ := List.cons.inj split
    exact absurd (begins.subset List.mem_cons_self) plain

-- A content type without a line end.
def Plain (contentType : Option String) : Prop := ∀ type ∈ contentType, ¬ lineEnd <:+: type.toList

theorem readBlock_header (plain : Plain contentType) (small : length < 0x10000000000000000) :
    readBlock (Utf8.encode (headerText contentType length)) = .ok length := by
  have digits : ∀ c ∈ Nat.toDigits 10 length, c.isDigit = true :=
    fun c present => Nat.isDigit_of_mem_toDigits (by decide) (by decide) present
  have first : ¬ lineEnd <:+: lengthName ++ ':' :: ' ' :: Nat.toDigits 10 length := by
    intro found
    have lengthPlain : '\r' ∉ lengthName ++ [':', ' '] := by decide
    have inside := infix_behind lengthPlain (by simpa [lineEnd] using found)
    have present : '\r' ∈ Nat.toDigits 10 length := inside.subset (by decide)
    cases digits _ present
  rw [readBlock, Utf8.lossy_encode]
  cases contentType with
  | none =>
    simp only [headerText, List.append_nil, lines_line first]
    simp [readLines, readLine_length none small]
  | some type =>
    have second : ¬ lineEnd <:+: typeName ++ ':' :: ' ' :: type.toList := by
      intro found
      have typePlain : '\r' ∉ typeName ++ [':', ' '] := by decide
      refine plain type rfl (infix_behind typePlain ?_)
      simpa [lineEnd] using found
    have split := lines_append (lengthName ++ ':' :: ' ' :: Nat.toDigits 10 length) (typeName ++ ':' :: ' ' :: type.toList)
    rw [lines_line first, lines_line second, List.append_assoc] at split
    simp only [headerText, split]
    simp [readLines, readLine_length none small, readLine_type]

-- A content type without a line end puts no empty line into the header.
theorem typeLine_plain (plain : Plain contentType) : ¬ terminator <:+: typeLine contentType := by
  intro found
  cases contentType with
  | none => cases List.infix_nil.mp found
  | some type =>
    have octets : Utf8.encode (lineEnd ++ lineEnd) = terminator := by decide
    rw [typeLine, ← octets] at found
    have ascii : ∀ c ∈ lineEnd ++ lineEnd, c.toNat < 0x80 := by simp [lineEnd]
    have chars := Utf8.infix_of_encode ascii found
    have front : typeName ++ ':' :: ' ' :: type.toList ++ ['\r', '\n'] =
        (typeName ++ [':', ' ']) ++ (type.toList ++ lineEnd) := by simp [lineEnd]
    rw [front] at chars
    obtain ⟨before, behind, whole⟩ := infix_behind (by decide) chars
    have split : (before ++ lineEnd) ++ (lineEnd ++ behind) = type.toList ++ lineEnd := by
      simpa [lineEnd] using whole
    have early : before ++ lineEnd <+: type.toList := by
      refine List.prefix_of_prefix_length_le ⟨_, split⟩ (List.prefix_append ..) ?_
      have length := congrArg List.length split
      simp only [List.length_append] at length ⊢
      omega
    exact plain type rfl ((List.suffix_append before lineEnd).isInfix.trans early.isInfix)

theorem splitBlock_header (plain : Plain contentType) (length : Nat) (rest : List UInt8) :
    splitBlock (header contentType length ++ rest) = some (Utf8.encode (headerText contentType length), rest) := by
  have only := (isHeader (typeLine_plain plain) length).only
  rw [header_eq] at only ⊢
  exact splitBlock_iff.mpr ⟨rfl, only⟩

theorem headerOf_header (plain : Plain contentType) (length : Nat) (rest : List UInt8) :
    headerOf (header contentType length ++ rest) = header contentType length := by
  rw [headerOf, splitBlock_header plain, header_eq]

namespace Decoder
variable {limits : Limits}

-- A decoder at a frame boundary takes a written frame whole, whatever follows it.
theorem next_encode (plain : Plain contentType) (fits : body.length ≤ limits.maxBody)
    (small : limits.maxBody < 0x10000000000000000) (rest : List UInt8) :
    ({ limits := limits, buffer := encode contentType body ++ rest } : Decoder).next =
      (some (.body body), { limits := limits, buffer := rest }) := by
  have split := splitBlock_header plain body.length (body ++ rest)
  have read := readBlock_header plain (Nat.lt_of_le_of_lt fits small)
  rw [encode_eq, List.append_assoc]
  refine (nextHeader_body split read fits).trans ?_
  have enough : ¬ (body ++ rest).length < body.length := by
    simp only [List.length_append]
    omega
  simp only [nextBody, if_neg enough, List.take_left, List.drop_left]

theorem drain_encode (plain : Plain contentType) (small : limits.maxBody < 0x10000000000000000)
    (bodies : List (List UInt8)) (fits : ∀ body ∈ bodies, body.length ≤ limits.maxBody) :
    ({ limits := limits, buffer := bodies.flatMap (encode contentType) } : Decoder).drain =
      (bodies.map .body, { limits := limits }) := by
  induction bodies with
  | nil => exact drain_of_none (initial_waits limits)
  | cons body bodies ih =>
    obtain ⟨first, others⟩ := List.forall_mem_cons.mp fits
    rw [List.flatMap_cons, drain_of_some (next_encode plain first small _), ih others]
    rfl

theorem fits_encode (plain : Plain contentType) (small : limits.maxBody < 0x10000000000000000)
    (bodies : List (List UInt8)) (fits : ∀ body ∈ bodies, body.length ≤ limits.maxBody)
    (room : ∀ body ∈ bodies, (header contentType body.length).length ≤ limits.maxHeader) :
    ({ limits := limits, buffer := bodies.flatMap (encode contentType) } : Decoder).Fits := by
  induction bodies with
  | nil =>
    intro h met
    rw [List.flatMap_nil, headers_of_none (initial_waits limits)] at met
    obtain rfl : h = [] := by simpa [header?, headerOf, splitBlock] using met
    exact Nat.zero_le _
  | cons body bodies ih =>
    obtain ⟨first, others⟩ := List.forall_mem_cons.mp fits
    obtain ⟨room, room'⟩ := List.forall_mem_cons.mp room
    intro h met
    rw [List.flatMap_cons, headers_of_some (next_encode plain first small _), List.mem_append] at met
    rcases met with here | later
    · have first' := headerOf_header plain body.length (body ++ bodies.flatMap (encode contentType))
      rw [← List.append_assoc, ← encode_eq] at first'
      obtain rfl : h = header contentType body.length := by simpa [header?, first'] using here
      exact room
    · exact ih others room' h later

-- What was written as frames comes out of the stream again, however the stream is cut.
theorem frames_come_back (maxBody maxHeader : UInt64) (contentType : Option String) (bodies chunks : List (List UInt8))
    (plain : ∀ type ∈ contentType, ¬ ['\r', '\n'] <:+: type.toList)
    (fits : ∀ body ∈ bodies, body.length ≤ maxBody.toNat)
    (room : ∀ body ∈ bodies, (header contentType body.length).length ≤ maxHeader.toNat)
    (cut : chunks.flatten = bodies.flatMap (encode contentType)) :
    feedAll { limits := .of maxBody.toNat maxHeader.toNat } chunks =
      (bodies.map .body, { limits := .of maxBody.toNat maxHeader.toNat, phase := .header, buffer := [] }) := by
  have small : (Limits.of maxBody.toNat maxHeader.toNat).maxBody < 0x10000000000000000 := maxBody.toNat_lt
  have room' : ∀ body ∈ bodies, (header contentType body.length).length ≤
      (Limits.of maxBody.toNat maxHeader.toNat).maxHeader :=
    fun body present => Nat.le_trans (room body present) (Nat.le_max_left ..)
  have whole := fits_encode plain small bodies fits room'
  rw [← cut] at whole
  rw [feedAll_flatten (initial_waits (.of maxBody.toNat maxHeader.toNat)) chunks whole, cut]
  exact drain_encode plain small bodies fits

-- A body that looks like a header, an empty one and one that is no text, octet by octet, under
-- a content type that ends like a line end begins.
theorem frames_come_back_octetwise :
    ∃ (type : String) (bodies : List (List UInt8)),
      ¬ ['\r', '\n'] <:+: type.toList ∧ (∀ body ∈ bodies, body.length ≤ 64) ∧
      (∀ body ∈ bodies, (header (some type) body.length).length ≤ 48) ∧
      feedAll { limits := .of 64 48 } ((bodies.flatMap (encode (some type))).map fun b => [b]) =
        (bodies.map .body, { limits := .of 64 48, phase := .header, buffer := [] }) := by
  let type := "text/é\r"
  let bodies : List (List UInt8) := [Utf8.encode "a\r\n\r\nContent-Length: 9\r\n\r\n".toList, [], [255, 13]]
  have plain : ¬ ['\r', '\n'] <:+: type.toList := by decide +kernel
  have fits : ∀ body ∈ bodies, body.length ≤ 64 := by decide +kernel
  have room : ∀ body ∈ bodies, (header (some type) body.length).length ≤ 48 := by decide +kernel
  refine ⟨type, bodies, plain, fits, room, ?_⟩
  apply frames_come_back 64 48 (some type) bodies
  · intro found same
    cases same
    exact plain
  · exact fits
  · exact room
  · rw [← List.flatMap_def, List.flatMap_singleton']

end Decoder
end DuplexRpc.Framing
