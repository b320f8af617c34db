import DuplexRpc.Proofs.Json.Numerals

namespace DuplexRpc.Json

mutual

-- The value that a value's text reads as, wherever it reads as one. Reals are read with
-- rounding of their own, and the members of an object are put in order.
def reread : Json → Json
  | .number x => (x.reread?.map Json.number).getD .null
  | .array items => .array (rereadItems items)
  | .object members => .ofMembers (rereadMembers members)
  | v => v

def rereadItems : List Json → List Json
  | [] => []
  | v :: rest => v.reread :: rereadItems rest

def rereadMembers : List (String × Json) → List (String × Json)
  | [] => []
  | (name, v) :: rest => (name, v.reread) :: rereadMembers rest

end

namespace Reader
open Numeral (IsPart IsEnd)
variable {r r' mid : Reader} {enclosing : List Enclosure} {one two bytes : List UInt8}
  {b : UInt8} {v w : Json} {n : Numeral}

theorem afterValue_part (part : IsPart b) (r : Reader) (v : Json) : (r.afterValue v b).toOption = none := by
  have other : ∀ c : UInt8, ¬ IsPart c → b ≠ c := fun c not same => not (same ▸ part)
  have blank : isSpace b = false := by
    simp [isSpace, other 32 (by decide), other 10 (by decide), other 9 (by decide), other 13 (by decide)]
  simp only [afterValue, blank, Bool.false_eq_true, if_false]
  split
  · rfl
  · rw [if_neg (other 44 (by decide)), if_neg (other 93 (by decide))]
    rfl
  · rw [if_neg (other 44 (by decide)), if_neg (other 125 (by decide))]
    rfl

theorem advance_part (part : IsPart b) (enclosing : List Enclosure) (n : Numeral) :
    (advance ⟨enclosing, .numeral n⟩ 0 b).toOption =
    (n.feed [b]).map fun n => ⟨enclosing, .numeral n⟩ := by
  simp only [advance, Numeral.feed]
  cases moved : n.advance b with
  | more next => rfl
  | refuse cause => rfl
  | stop =>
    dsimp only
    split
    · exact (located_toOption ..).trans (afterValue_part part _ _)
    · rfl

theorem feed_cons (n : Numeral) (b : UInt8) (rest : List UInt8) :
    n.feed (b :: rest) = (n.feed [b]).bind fun next => next.feed rest := by
  simp only [Numeral.feed]
  cases n.advance b <;> rfl

theorem along_numeral (inside : enclosing ≠ []) (parts : ∀ b ∈ bytes, IsPart b) :
    Along ⟨enclosing, .numeral n⟩ bytes ((n.feed bytes).map fun n => ⟨enclosing, .numeral n⟩) := by
  induction bytes generalizing n with
  | nil => exact .done
  | cons b rest ih =>
    have unfinished : Unfinished ⟨enclosing, .numeral n⟩ := unfinished_inside inside
    have moved := advance_part (parts b List.mem_cons_self) enclosing n
    rw [feed_cons]
    cases fed : n.feed [b] with
    | none =>
      rw [fed] at moved
      exact .stop unfinished moved
    | some next =>
      rw [fed] at moved
      exact .step unfinished moved (ih fun b later => parts b (List.mem_cons_of_mem _ later))

-- A value is to be read.
def Opens (r : Reader) : Prop := r.mode = .value ∨ r.mode = .firstItem ∨ r.mode = .nextItem

theorem Opens.unfinished (opens : r.Opens) : r.Unfinished := by
  obtain ⟨enclosing, mode⟩ := r
  rcases opens with rfl | rfl | rfl <;> rfl

theorem Opens.advance (opens : r.Opens) (visible : isSpace b = false) (more : b ≠ 93) :
    (r.advance 0 b).toOption = (r.beginValue b).toOption := by
  obtain ⟨enclosing, mode⟩ := r
  rcases opens with rfl | rfl | rfl <;> simp [Reader.advance, visible, more]

-- The reader has come to the end of a value: what ends it is taken as the octet after it, or refused.
structure Ends (enclosing : List Enclosure) (v : Json) (r : Reader) : Prop where
  place : r.enclosing = enclosing
  next : ∀ b, IsEnd b → (r.advance 0 b).toOption = none ∨
    (r.advance 0 b).toOption = (afterValue ⟨enclosing, .after v⟩ v b).toOption
  finish : r.finish.toOption = none ∨ r.finish.toOption = (finishValue ⟨enclosing, .after v⟩ v).toOption

theorem ends_after (enclosing : List Enclosure) (v : Json) : Ends enclosing v ⟨enclosing, .after v⟩ :=
  ⟨rfl, fun _ _ => .inr (located_toOption ..), .inr rfl⟩

theorem ends_numeral {x : Number} (read : n.finish.toOption = some x) :
    Ends enclosing (.number x) ⟨enclosing, .numeral n⟩ := by
  cases finished : n.finish with
  | error _ => simp [finished, Except.toOption] at read
  | ok y =>
    obtain rfl : y = x := by simpa [finished, Except.toOption] using read
    refine ⟨rfl, fun b ends => ?_, .inr ?_⟩
    · rcases n.advance_end ends with stops | ⟨cause, refuses⟩
      · right
        simp only [advance, stops, finished, located_toOption]
        rcases ends with rfl | rfl | rfl | rfl <;> rfl
      · left
        simp [advance, refuses, refused, Except.toOption]
    · simp only [finish, finished]
      rfl

theorem ends_refused (enclosing : List Enclosure) (v : Json) (refused : n.finish.toOption = none) :
    Ends enclosing v ⟨enclosing, .numeral n⟩ := by
  cases finished : n.finish with
  | ok y => simp [finished, Except.toOption] at refused
  | error _ =>
    refine ⟨rfl, fun b ends => .inl ?_, .inl ?_⟩
    · rcases n.advance_end ends with stops | ⟨cause, refuses⟩
      · simp [advance, stops, finished, Reader.refused, Except.toOption]
      · simp [advance, refuses, Reader.refused, Except.toOption]
    · simp only [finish, finished]
      rfl

-- Octets read as a value, or refused on the way.
def Reads (r : Reader) (bytes : List UInt8) (enclosing : List Enclosure) (v : Json) : Prop :=
  Along r bytes none ∨ ∃ r', Along r bytes (some r') ∧ Ends enclosing v r'

theorem Reads.then (first : Reads r one enclosing v) {outer : List Enclosure}
    (second : ∀ r', Ends enclosing v r' → Reads r' two outer w) : Reads r (one ++ two) outer w := by
  rcases first with stopped | ⟨r', along, ends⟩
  · exact .inl (stopped.refused two)
  · rcases second r' ends with stopped | ⟨r'', further, ends'⟩
    · exact .inl (along.append stopped)
    · exact .inr ⟨r'', along.append further, ends'⟩

theorem Reads.after (along : Along r one (some mid)) (second : Reads mid two enclosing w) :
    Reads r (one ++ two) enclosing w := by
  rcases second with stopped | ⟨r', further, ends⟩
  · exact .inl (along.append stopped)
  · exact .inr ⟨r', along.append further, ends⟩

theorem Reads.cons (unfinished : r.Unfinished)
    (moved : (r.advance 0 b).toOption = none ∨ (r.advance 0 b).toOption = some mid)
    (second : Reads mid two enclosing w) : Reads r (b :: two) enclosing w := by
  rcases moved with refused | moved
  · exact .inl (.stop unfinished refused)
  · exact Reads.after (.single unfinished moved) second

theorem Reads.done (ends : Ends enclosing v r) : Reads r [] enclosing v := .inr ⟨r, .done, ends⟩

theorem along_name (enclosing : List Enclosure) (done : List (String × Json)) (name : String) :
    Along ⟨enclosing, .name done .start⟩ (Utf8.encode (name.toList.flatMap renderChar ++ ['"']))
      (some ⟨enclosing, .colon done name⟩) := by
  rw [Utf8.encode_append]
  have inside := along_string (.name done) enclosing (fun _ => rfl)
    (fun s b next moved => by simp [advance, moved, inMode, Except.toOption]) (StringReading.feed_chars [] name.toList)
  refine inside.append (.single rfl ?_)
  have closed := StringReading.close_chars name.toList
  simp only [List.append_nil]
  change (advance ⟨enclosing, .name done ⟨(Utf8.encode name.toList).reverse, .plain⟩⟩ 0 34).toOption = _
  simp [advance, StringReading.advance, closed, inMode, Except.toOption]

theorem along_text (enclosing : List Enclosure) (text : String) :
    Along ⟨enclosing, .string .start⟩ (Utf8.encode (text.toList.flatMap renderChar ++ ['"']))
      (some ⟨enclosing, .after (.string text)⟩) := by
  rw [Utf8.encode_append]
  have inside := along_string .string enclosing (fun _ => rfl)
    (fun s b next moved => by simp [advance, moved, inMode, Except.toOption]) (StringReading.feed_chars [] text.toList)
  refine inside.append (.single rfl ?_)
  have closed := StringReading.close_chars text.toList
  simp only [List.append_nil]
  change (advance ⟨enclosing, .string ⟨(Utf8.encode text.toList).reverse, .plain⟩⟩ 0 34).toOption = _
  simp [advance, StringReading.advance, closed, inMode, Except.toOption]

theorem along_literal (enclosing : List Enclosure) (v : Json) {rest : List UInt8} (more : rest ≠ []) :
    Along ⟨enclosing, .literal rest v⟩ rest (some ⟨enclosing, .after v⟩) := by
  induction rest with
  | nil => contradiction
  | cons c rest ih =>
    cases rest with
    | nil => exact .single rfl (by simp [advance, inMode, Except.toOption])
    | cons d rest =>
      exact .step rfl (by simp [advance, inMode, Except.toOption]) (ih (List.cons_ne_nil d rest))

theorem Opens.list (opens : r.Opens) : (r.advance 0 91).toOption = none ∨
    (r.advance 0 91).toOption = some ⟨.list [] :: r.enclosing, .firstItem⟩ := by
  rw [opens.advance rfl (by decide)]
  by_cases room : r.enclosing.length < maxDepth <;> simp [beginValue, room, Except.toOption]

theorem Opens.object (opens : r.Opens) : (r.advance 0 123).toOption = none ∨
    (r.advance 0 123).toOption = some ⟨r.enclosing, .firstName⟩ := by
  rw [opens.advance rfl (by decide)]
  by_cases room : r.enclosing.length < maxDepth <;> simp [beginValue, room, inMode, Except.toOption]

theorem Ends.unfinished {e : Enclosure} {outer : List Enclosure} (ends : Ends (e :: outer) v r) : r.Unfinished := by
  apply unfinished_inside
  rw [ends.place]
  exact List.cons_ne_nil e outer

theorem Ends.next_item {items : List Json} {outer : List Enclosure} (ends : Ends (.list items :: outer) v r) :
    (r.advance 0 44).toOption = none ∨ (r.advance 0 44).toOption = some ⟨.list (v :: items) :: outer, .nextItem⟩ :=
  ends.next 44 (.inl rfl)

theorem Ends.last_item {items : List Json} {outer : List Enclosure} (ends : Ends (.list items :: outer) v r) :
    (r.advance 0 93).toOption = none ∨ (r.advance 0 93).toOption = some ⟨outer, .after (.array (v :: items).reverse)⟩ :=
  ends.next 93 (.inr (.inl rfl))

theorem Ends.next_member {done : List (String × Json)} {name : String} {outer : List Enclosure}
    (ends : Ends (.members done name :: outer) v r) :
    (r.advance 0 44).toOption = none ∨ (r.advance 0 44).toOption = some ⟨outer, .nextName ((name, v) :: done)⟩ :=
  ends.next 44 (.inl rfl)

theorem Ends.last_member {done : List (String × Json)} {name : String} {outer : List Enclosure}
    (ends : Ends (.members done name :: outer) v r) :
    (r.advance 0 125).toOption = none ∨
      (r.advance 0 125).toOption = some ⟨outer, .after (.ofMembers ((name, v) :: done).reverse)⟩ :=
  ends.next 125 (.inr (.inr (.inl rfl)))

theorem reads_literal {rest : List UInt8} (opens : r.Opens) (visible : isSpace b = false ∧ b ≠ 93)
    (begins : r.beginValue b = .ok ⟨r.enclosing, .literal rest v⟩) (more : rest ≠ []) :
    Reads r (b :: rest) r.enclosing v := by
  apply Reads.cons opens.unfinished
  · right
    rw [opens.advance visible.1 visible.2, begins]
    rfl
  · exact .inr ⟨_, along_literal r.enclosing v more, ends_after ..⟩

theorem reads_string (opens : r.Opens) (text : String) :
    Reads r (Utf8.encode (renderString text)) r.enclosing (.string text) := by
  apply Reads.cons opens.unfinished
  · right
    exact opens.advance rfl (by decide)
  · exact .inr ⟨_, along_text r.enclosing text, ends_after ..⟩

theorem begin_numeral {first : Numeral} (begins : Numeral.begin? b = some first) :
    isSpace b = false ∧ b ≠ 93 ∧ r.beginValue b = .ok ⟨r.enclosing, .numeral first⟩ := by
  have other : ∀ c, Numeral.begin? c = none → b ≠ c := by
    rintro c absent rfl
    cases begins.symm.trans absent
  refine ⟨?_, other 93 rfl, ?_⟩
  · simp [isSpace, other 32 rfl, other 10 rfl, other 9 rfl, other 13 rfl]
  · simp [beginValue, other 110 rfl, other 116 rfl, other 102 rfl, other 34 rfl, other 91 rfl, other 123 rfl, begins, inMode]

theorem reads_number (opens : r.Opens) (inside : r.enclosing ≠ []) (x : Number) :
    Reads r (Utf8.encode x.render) r.enclosing (reread (.number x)) := by
  obtain ⟨b, rest, first, octets, begins, parts⟩ := x.octets_render
  obtain ⟨visible, more, begun⟩ := begin_numeral (r := r) begins
  have along := along_numeral (n := first) inside parts
  have value : x.reread? = (first.feed rest).bind fun n => n.finish.toOption := by
    rw [Number.reread?, octets, Numeral.ofOctets, begins, Option.bind_some]
  rw [octets]
  have moved : (r.advance 0 b).toOption = some ⟨r.enclosing, .numeral first⟩ := by
    rw [opens.advance visible more, begun]
    rfl
  apply Reads.cons opens.unfinished (.inr moved)
  · cases fed : first.feed rest with
    | none =>
      rw [fed] at along
      exact .inl along
    | some n =>
      rw [fed] at along
      refine .inr ⟨_, along, ?_⟩
      cases finished : n.finish.toOption with
      | none => exact ends_refused _ _ finished
      | some y =>
        have same : reread (.number x) = .number y := by simp [reread, value, fed, finished]
        rw [same]
        exact ends_numeral finished

-- A name is to be read, after the members read so far.
def Names (r : Reader) (done : List (String × Json)) : Prop := r.mode = .nextName done ∨ r.mode = .firstName ∧ done = []

theorem reads_named {done : List (String × Json)} (names : r.Names done) (name : String)
    (value : Reads ⟨.members done name :: r.enclosing, .value⟩ bytes enclosing v) :
    Reads r (Utf8.encode (renderString name) ++ 58 :: bytes) enclosing v := by
  obtain ⟨outer, mode⟩ := r
  have begins : Along ⟨outer, mode⟩ (Utf8.encode (renderString name)) (some ⟨outer, .colon done name⟩) := by
    rcases names with rfl | ⟨rfl, rfl⟩
    · exact .step rfl rfl (along_name outer done name)
    · exact .step rfl rfl (along_name outer [] name)
  have unfinished : Unfinished ⟨outer, .colon done name⟩ := rfl
  exact Reads.after begins (Reads.cons unfinished (.inr rfl) value)

theorem octets_items (open' : Char) (b : UInt8) (single : Utf8.encode [open'] = [b]) (first : Json) (rest : List Json) :
    Utf8.encode (open' :: (render first ++ renderItems rest)) =
      b :: (Utf8.encode (render first) ++ Utf8.encode (renderItems rest)) := by
  rw [← List.singleton_append, Utf8.encode_append, single, Utf8.encode_append]
  rfl

theorem octets_members (open' : Char) (b : UInt8) (single : Utf8.encode [open'] = [b]) (name : String) (value : Json)
    (rest : List (String × Json)) :
    Utf8.encode (open' :: (renderString name ++ ':' :: (render value ++ renderMembers rest))) =
      b :: (Utf8.encode (renderString name) ++ 58 :: (Utf8.encode (render value) ++ Utf8.encode (renderMembers rest))) := by
  have colon : ∀ text, Utf8.encode (':' :: text) = 58 :: Utf8.encode text := fun _ => rfl
  rw [← List.singleton_append, Utf8.encode_append, single, Utf8.encode_append, colon, Utf8.encode_append]
  rfl

mutual

-- A written value reads as the value it is reread as, or is refused on the way.
theorem reads_value : ∀ (v : Json) (r : Reader), r.Opens → (r.enclosing = [] → v.isNumber = false) →
    Reads r (Utf8.encode v.render) r.enclosing v.reread
  | .null, r, opens, _ => reads_literal opens (by decide) rfl (by simp)
  | .bool true, r, opens, _ => reads_literal opens (by decide) rfl (by simp)
  | .bool false, r, opens, _ => reads_literal opens (by decide) rfl (by simp)
  | .string s, r, opens, _ => reads_string opens s
  | .number x, r, opens, inside => by
    refine reads_number opens (fun outermost => ?_) x
    cases inside outermost
  | .array [], r, opens, _ => by
    refine Reads.cons opens.unfinished opens.list (Reads.cons ?_ (.inr ?_) (.done (ends_after ..)))
    · exact unfinished_inside (List.cons_ne_nil _ _)
    · rfl
  | .array (first :: rest), r, opens, _ => by
    rw [render, octets_items '[' 91 rfl]
    apply Reads.cons opens.unfinished opens.list
    have item := reads_value first ⟨.list [] :: r.enclosing, .firstItem⟩ (.inr (.inl rfl))
      (fun outermost => by cases outermost)
    exact item.then fun r' ends => reads_items rest [] first.reread r' r.enclosing ends
  | .object [], r, opens, _ => by
    refine Reads.cons opens.unfinished opens.object (Reads.cons ?_ (.inr ?_) (.done (ends_after ..)))
    · rfl
    · rfl
  | .object ((name, value) :: rest), r, opens, _ => by
    rw [render, octets_members '\x7b' 123 rfl]
    apply Reads.cons opens.unfinished opens.object
    apply reads_named (.inr ⟨rfl, rfl⟩)
    have member := reads_value value ⟨.members [] name :: r.enclosing, .value⟩ (.inl rfl)
      (fun outermost => by cases outermost)
    exact member.then fun r' ends => reads_members rest [] name value.reread r' r.enclosing ends

theorem reads_items : ∀ (rest items : List Json) (v : Json) (r : Reader) (outer : List Enclosure),
    Ends (.list items :: outer) v r →
    Reads r (Utf8.encode (renderItems rest)) outer (.array (items.reverse ++ v :: rereadItems rest))
  | [], items, v, r, outer, ends => by
    refine Reads.cons ends.unfinished ends.last_item (.done ?_)
    have whole : (v :: items).reverse = items.reverse ++ [v] := List.reverse_cons
    rw [whole]
    exact ends_after ..
  | next :: rest, items, v, r, outer, ends => by
    rw [renderItems, octets_items ',' 44 rfl]
    apply Reads.cons ends.unfinished ends.next_item
    have item := reads_value next ⟨.list (v :: items) :: outer, .nextItem⟩ (.inr (.inr rfl))
      (fun outermost => by cases outermost)
    have more := fun r' ends => reads_items rest (v :: items) next.reread r' outer ends
    simp only [List.reverse_cons, List.append_assoc] at more
    exact item.then more

theorem reads_members : ∀ (rest done : List (String × Json)) (name : String) (v : Json) (r : Reader)
    (outer : List Enclosure), Ends (.members done name :: outer) v r →
    Reads r (Utf8.encode (renderMembers rest)) outer (.ofMembers (done.reverse ++ (name, v) :: rereadMembers rest))
  | [], done, name, v, r, outer, ends => by
    refine Reads.cons ends.unfinished ends.last_member (.done ?_)
    have whole : ((name, v) :: done).reverse = done.reverse ++ [(name, v)] := List.reverse_cons
    rw [whole]
    exact ends_after ..
  | (next, value) :: rest, done, name, v, r, outer, ends => by
    rw [renderMembers, octets_members ',' 44 rfl]
    apply Reads.cons ends.unfinished ends.next_member
    apply reads_named (.inl rfl)
    have member := reads_value value ⟨.members ((name, v) :: done) next :: outer, .value⟩ (.inl rfl)
      (fun outermost => by cases outermost)
    have more := fun r' ends => reads_members rest ((name, v) :: done) next value.reread r' outer ends
    simp only [List.reverse_cons, List.append_assoc] at more
    exact member.then more

end

end Reader
open Reader
variable {members : List (String × Json)}

theorem reads_object (members : List (String × Json)) :
    start.Reads (octets (.object members)) [] (Json.object members).reread :=
  reads_value (.object members) start (.inl rfl) fun _ => rfl

-- An object's text reads as what the object is reread as, if it reads as anything.
theorem read_octets {w : Json} (parses : read (octets (.object members)) = .ok w) : w = (Json.object members).reread := by
  have value : start.result (octets (.object members)) = some w := by
    rw [← read_toOption, parses]
    rfl
  rcases reads_object members with stopped | ⟨r, along, ends⟩
  · have none' := stopped.result []
    rw [List.append_nil] at none'
    cases value.symm.trans none'
  · have last := along.result []
    rw [List.append_nil, value, Option.bind_some, result_nil] at last
    rcases ends.finish with refused | finished
    · cases last.trans refused
    · exact Option.some.inj (last.trans finished)

-- No text of an object goes on after it, and none that is cut off reads as anything.
theorem read_longer (rest : List UInt8) : (read (octets (.object members) ++ 67 :: rest)).toOption = none := by
  rw [read_toOption]
  rcases reads_object members with stopped | ⟨r, along, ends⟩
  · exact stopped.result _
  · rw [along.result, Option.bind_some, result_cons]
    rcases ends.next 67 (.inr (.inr (.inr rfl))) with refused | trailing
    · rw [refused]
      rfl
    · rw [trailing]
      rfl

theorem read_shorter {one two : List UInt8} (cut : octets (.object members) = one ++ two) (more : two ≠ []) :
    (read one).toOption = none := by
  rw [read_toOption]
  rcases reads_object members with stopped | ⟨r, along, ends⟩
  · rw [cut] at stopped
    exact stopped.cut more
  · rw [cut] at along
    exact along.cut more

theorem hexDigit_visible (n : Nat) : '\n' ≠ hexDigit n := by
  have each : ∀ m < 16, '\n' ≠ (Nat.toDigits 16 m).headD '0' := by decide +kernel
  exact each (n % 16) (Nat.mod_lt _ (by decide))

theorem renderChar_line (c : Char) : '\n' ∉ renderChar c := by
  unfold renderChar
  repeat' split
  all_goals simp_all [eq_comm, hexDigit_visible]

theorem renderString_line (s : String) : '\n' ∉ renderString s := by
  have inside : '\n' ∉ s.toList.flatMap renderChar := by
    intro present
    obtain ⟨c, _, here⟩ := List.mem_flatMap.mp present
    exact renderChar_line c here
  simp [renderString, inside]

theorem renderNumber_line (x : Number) : '\n' ∉ x.render := by
  intro present
  obtain ⟨b, rest, first, octets, begins, parts⟩ := x.octets_render
  have octet : (10 : UInt8) ∈ Utf8.encode x.render := List.mem_flatMap.mpr ⟨'\n', present, List.mem_singleton.mpr rfl⟩
  rw [octets] at octet
  rcases List.mem_cons.mp octet with rfl | later
  · cases begins
  · exact absurd (parts 10 later) (by decide)

mutual

-- A written value is one line.
theorem render_line : ∀ v : Json, '\n' ∉ render v
  | .null => by decide
  | .bool true => by decide
  | .bool false => by decide
  | .number x => renderNumber_line x
  | .string s => renderString_line s
  | .array [] => by decide
  | .array (first :: rest) => by simp [render, render_line first, renderItems_line rest]
  | .object [] => by decide
  | .object ((name, value) :: rest) => by
    simp [render, renderString_line name, render_line value, renderMembers_line rest]

theorem renderItems_line : ∀ items : List Json, '\n' ∉ renderItems items
  | [] => by decide
  | v :: rest => by simp [renderItems, render_line v, renderItems_line rest]

theorem renderMembers_line : ∀ members : List (String × Json), '\n' ∉ renderMembers members
  | [] => by decide
  | (name, value) :: rest => by
    simp [renderMembers, renderString_line name, render_line value, renderMembers_line rest]

end

theorem octets_line (v : Json) : 10 ∉ octets v := by
  intro present
  obtain ⟨c, listed, number⟩ := Utf8.mem_encode present (by decide)
  obtain rfl : c = '\n' := Char.toNat_inj.mp number
  exact render_line v listed

end DuplexRpc.Json
