import DuplexRpc.Payload
import DuplexRpc.Proofs.Json.Members
import DuplexRpc.Proofs.Json.Rereading

namespace DuplexRpc.Json
open Numeral (IsPart)
variable {members : List (String × Json)}

mutual

-- Every real in the value is read back from its text as it was.
def Exact : Json → Prop
  | .number (.real x) => (read (octets (.number (.real x)))).toOption = some (.number (.real x))
  | .array items => ExactItems items
  | .object members => ExactMembers members
  | _ => True

def ExactItems : List Json → Prop
  | [] => True
  | v :: rest => v.Exact ∧ ExactItems rest

def ExactMembers : List (String × Json) → Prop
  | [] => True
  | (_, v) :: rest => v.Exact ∧ ExactMembers rest

end

theorem result_numeral {n : Numeral} {bytes : List UInt8} (parts : ∀ b ∈ bytes, IsPart b) :
    Reader.result ⟨[], .numeral n⟩ bytes = (n.feed bytes).bind fun n => n.finish.toOption.map Json.number := by
  induction bytes generalizing n with
  | nil =>
    rw [Reader.result_nil]
    change (n.finish.bind fun x => Reader.finishValue ⟨[], .numeral n⟩ (.number x)).toOption =
      n.finish.toOption.map Json.number
    cases n.finish <;> rfl
  | cons b rest ih =>
    rw [Reader.result_cons, Reader.advance_part (parts b List.mem_cons_self), Reader.feed_cons n b rest]
    cases n.feed [b] with
    | none => rfl
    | some next => exact ih fun b later => parts b (List.mem_cons_of_mem _ later)

theorem read_number (x : Number) : (read (octets (.number x))).toOption = x.reread?.map Json.number := by
  obtain ⟨b, rest, first, octets', begins, parts⟩ := x.octets_render
  have opens : Reader.start.Opens := .inl rfl
  obtain ⟨visible, more, begun⟩ := Reader.begin_numeral (r := Reader.start) begins
  have moved : (Reader.start.advance 0 b).toOption = some ⟨[], .numeral first⟩ := by
    rw [opens.advance visible more, begun]
    rfl
  have text : octets (.number x) = b :: rest := octets'
  rw [Reader.read_toOption, text, Reader.result_cons, moved, Option.bind_some, result_numeral parts, Number.reread?,
    octets', Numeral.ofOctets, begins, Option.bind_some]
  cases first.feed rest <;> rfl

theorem rereadMembers_eq (members : List (String × Json)) :
    rereadMembers members = members.map fun m => (m.1, m.2.reread) := by
  induction members with
  | nil => rfl
  | cons member rest ih => rw [rereadMembers, ih]; rfl

theorem sortedMembers_eq (members : List (String × Json)) :
    sortedMembers members = members.map fun m => (m.1, m.2.sorted) := by
  induction members with
  | nil => rfl
  | cons member rest ih => rw [sortedMembers, ih]; rfl

mutual

theorem Exact.reread : ∀ {v : Json}, v.Exact → v.reread = v.sorted
  | .null, _ => rfl
  | .bool _, _ => rfl
  | .string _, _ => rfl
  | .number (.integer n range), _ => by
    rw [Json.reread, Number.reread?_integer]
    rfl
  | .number (.real x), exact' => by
    rw [Exact, read_number] at exact'
    rw [Json.reread, exact']
    rfl
  | .array items, exact' => by
    rw [Exact] at exact'
    rw [Json.reread, sorted, ExactItems.reread exact']
  | .object members, exact' => by
    rw [Exact] at exact'
    rw [Json.reread, sorted, ExactMembers.reread exact']
    rfl

theorem ExactItems.reread : ∀ {items : List Json}, ExactItems items → rereadItems items = sortedItems items
  | [], _ => rfl
  | v :: rest, exact' => by
    rw [ExactItems] at exact'
    rw [rereadItems, sortedItems, Exact.reread exact'.1, ExactItems.reread exact'.2]

theorem ExactMembers.reread : ∀ {members : List (String × Json)}, ExactMembers members →
    rereadMembers members = sortedMembers members
  | [], _ => rfl
  | (name, v) :: rest, exact' => by
    rw [ExactMembers] at exact'
    rw [rereadMembers, sortedMembers, Exact.reread exact'.1, ExactMembers.reread exact'.2]

end

theorem reread_ofMembers (members : List (String × Json)) :
    (ofMembers members).reread = ofMembers (rereadMembers members) := by
  rw [ofMembers, reread, rereadMembers_eq, ← sortMembers_map, ← rereadMembers_eq, ofMembers, sortMembers_sortMembers]
  rfl

mutual

-- The order of the members is lost in the text in any case.
theorem reread_sorted : ∀ v : Json, v.sorted.reread = v.reread
  | .null => rfl
  | .bool _ => rfl
  | .string _ => rfl
  | .number _ => rfl
  | .array items => by
    rw [sorted, reread, rereadItems_sorted items]
    rfl
  | .object members => by
    have inside := reread_ofMembers (sortedMembers members)
    rw [ofMembers, rereadMembers_sorted members] at inside
    rw [sorted, inside]
    rfl

theorem rereadItems_sorted : ∀ items : List Json, rereadItems (sortedItems items) = rereadItems items
  | [] => rfl
  | v :: rest => by
    rw [sortedItems, rereadItems, rereadItems, reread_sorted v, rereadItems_sorted rest]

theorem rereadMembers_sorted : ∀ members : List (String × Json),
    rereadMembers (sortedMembers members) = rereadMembers members
  | [] => rfl
  | (name, v) :: rest => by
    rw [sortedMembers, rereadMembers, rereadMembers, reread_sorted v, rereadMembers_sorted rest]

end

mutual

theorem sorted_sorted : ∀ v : Json, v.sorted.sorted = v.sorted
  | .null => rfl
  | .bool _ => rfl
  | .string _ => rfl
  | .number _ => rfl
  | .array items => by rw [sorted, sorted, sortedItems_sorted items]
  | .object members => by
    have inside := sortedMembers_sorted members
    rw [sortedMembers_eq (sortedMembers members)] at inside
    rw [sorted, sorted, sortedMembers_eq (sortMembers _), ← sortMembers_map, inside, sortMembers_sortMembers]

theorem sortedItems_sorted : ∀ items : List Json, sortedItems (sortedItems items) = sortedItems items
  | [] => rfl
  | v :: rest => by rw [sortedItems, sortedItems, sorted_sorted v, sortedItems_sorted rest]

theorem sortedMembers_sorted : ∀ members : List (String × Json),
    sortedMembers (sortedMembers members) = sortedMembers members
  | [] => rfl
  | (name, v) :: rest => by rw [sortedMembers, sortedMembers, sorted_sorted v, sortedMembers_sorted rest]

end

theorem lookup_rereadMembers (members : List (String × Json)) (key : String) :
    (rereadMembers members).lookup key = (members.lookup key).map reread := by
  rw [rereadMembers_eq, lookup_map]

-- Members under distinct names are found in what their object's text reads as.
theorem lookup_reread (distinct : (Table.keys members).Nodup) (key : String) :
    (sortMembers (rereadMembers members)).lookup key = (members.lookup key).map reread := by
  have same : Table.keys (rereadMembers members) = Table.keys members := by
    rw [rereadMembers_eq, Table.keys, List.map_map]
    rfl
  rw [lookup_sortMembers, lookup_reverse (same ▸ distinct), lookup_rereadMembers]

theorem ofJson?_reread (v : Json) : RequestId.ofJson? v.reread = RequestId.ofJson? v := by
  cases v with
  | number x =>
    cases x with
    | integer n range => rw [reread, Number.reread?_integer]; rfl
    | real x =>
      rw [reread]
      cases read : (Number.real x).reread? with
      | none => rfl
      | some y =>
        obtain ⟨z, rfl⟩ := Number.reread?_real read
        rfl
  | _ => rfl

theorem ofJson?_sorted (v : Json) : RequestId.ofJson? v.sorted = RequestId.ofJson? v := by
  cases v <;> rfl

theorem toJson_reread (id : RequestId) : id.toJson.reread = id.toJson := by
  cases id with
  | text s => rfl
  | number n => rw [RequestId.toJson, ofInt64, reread, Number.ofInt64, Number.reread?_integer]; rfl

theorem read_ofInt64 (n : Int64) : Codec.int64.read (ofInt64 n) = .ok n := by
  have small : n.toInt < 0x8000000000000000 := n.toInt_lt
  simp [Codec.int64, Codec.readInteger, ofInt64, Number.ofInt64, small]

theorem ofJson?_toJson (id : RequestId) : RequestId.ofJson? id.toJson = some id := by
  cases id with
  | text s => rfl
  | number n =>
    have small : n.toInt < 0x8000000000000000 := n.toInt_lt
    simp [RequestId.toJson, RequestId.ofJson?, ofInt64, Number.ofInt64, Number.toInt64?, small]

-- An id among the members is read as it stands there.
theorem named_reread (v : Json) (name : String) :
    (v.reread.member? name).bind RequestId.ofJson? = (v.sorted.member? name).bind RequestId.ofJson? := by
  cases v with
  | object members =>
    simp only [reread, sorted, ofMembers, member?, lookup_sortMembers, rereadMembers_eq, sortedMembers_eq, ← List.map_reverse,
      lookup_map]
    cases members.reverse.lookup name with
    | none => rfl
    | some v => exact (ofJson?_reread v).trans (ofJson?_sorted v).symm
  | number x =>
    rw [reread]
    cases x.reread? <;> rfl
  | _ => rfl

end DuplexRpc.Json
