import DuplexRpc.Proofs.Shape

namespace DuplexRpc
open Shape (Matches requiredNames)

-- A location inside a value that its shape follows: the shape that is reached there, and the
-- value. Of several declarations the first one leads on, and an optional null leads nowhere.
inductive Shape.Leads : Shape → Json → Location → Shape → Json → Prop where
  | here {s v} : Leads s v [] s v
  | item {items elements n e l t w} : elements[n]? = some e → Leads items e l t w →
      Leads (.array items) (.array elements) (.index n :: l) t w
  | member {fields members name e declared l t w} : (name, e) ∈ members →
      (Shape.object fields).field? name = some declared → ¬ (e = .null ∧ declared.presence = .optional) →
      Leads declared.shape e l t w → Leads (.object fields) (.object members) (.member name :: l) t w
  | left {one two v l t w} : Leads one v l t w → Leads (.either one two) v l t w
  | right {one two v l t w} : Leads two v l t w → Leads (.either one two) v l t w

-- A text that says what is wrong at a location, and is right about it.
inductive Shape.Points (s : Shape) (v : Json) : Location → String → Prop where
  | mismatch {place expected found} : Leads s v place expected found → ¬ Matches expected found →
      Points s v place (": expected " ++ expected.display ++ ", found " ++ found.kind.name)
  | missing {place} {fields : List (Shape.Field Shape)} {members : List (String × Json)} {name} :
      Leads s v place (.object fields) (.object members) → name ∈ requiredNames fields → members.lookup name = none →
      Points s v place ("." ++ name ++ ": missing required field")
  | neither {place one two found} : Leads s v place (.either one two) found → ¬ Matches (.either one two) found →
      Points s v place (": value matches neither " ++ one.display ++ " nor " ++ two.display)

variable {s inner : Shape} {v w : Json} {place : Location} {step : Location.Step} {fault : Misshape} {text : String}

-- What is wrong further in is wrong with the whole.
theorem Shape.Points.lift (points : inner.Points w place text) (more : Location)
    (leads : ∀ l t u, inner.Leads w l t u → s.Leads v (more ++ l) t u) : s.Points v (more ++ place) text := by
  cases points with
  | mismatch there unmatched => exact .mismatch (leads _ _ _ there) unmatched
  | missing there required absent => exact .missing (leads _ _ _ there) required absent
  | neither there unmatched => exact .neither (leads _ _ _ there) unmatched

namespace Misshape

-- What is said of each fault and where, from the outermost to its deepest cause.
def spots : Misshape → List (Location × String)
  | .mismatch place expected found => [(place, ": expected " ++ expected.display ++ ", found " ++ found.name)]
  | .missingField place name => [(place, "." ++ name ++ ": missing required field")]
  | .neither place one two cause =>
    (place, ": value matches neither " ++ one.display ++ " nor " ++ two.display) :: cause.spots

theorem chain_toIssue (name : String) (fault : Misshape) : (fault.toIssue name).chain =
    fault.spots.map fun spot => ⟨name ++ spot.1.render ++ spot.2, ErrorCode.invalidParams.code, none⟩ := by
  induction fault with
  | mismatch place expected found => simp [toIssue, spots, Issue.make, Issue.chain, String.append_assoc]
  | missingField place field => simp [toIssue, spots, Issue.make, Issue.chain, String.append_assoc]
  | neither place one two cause ih => simp [toIssue, spots, Issue.caused, Issue.chain, String.append_assoc, ih]

theorem spots_under (step : Location.Step) (fault : Misshape) :
    (fault.under step).spots = fault.spots.map fun spot => (step :: spot.1, spot.2) := by
  induction fault with
  | mismatch | missingField => rfl
  | neither place one two cause ih => simp [under, spots, ih]

-- A fault that is one at every location it names, each cause at or below what it causes.
structure Sound (s : Shape) (v : Json) (fault : Misshape) : Prop where
  points : ∀ spot ∈ fault.spots, s.Points v spot.1 spot.2
  nested : fault.spots.Pairwise fun outer inner => outer.1 <+: inner.1

theorem Sound.mismatch (unmatched : ¬ Matches s v) : Sound s v (.mismatch [] s v.kind) :=
  ⟨List.forall_mem_singleton.mpr (.mismatch .here unmatched), List.pairwise_singleton ..⟩

theorem Sound.missing {fields : List (Shape.Field Shape)} {members : List (String × Json)} {name : String}
    (missing : Shape.missingField? fields members = some name) :
    Sound (.object fields) (.object members) (.missingField [] name) := by
  have absent := List.find?_some missing
  have listed := List.mem_of_find?_eq_some missing
  exact ⟨List.forall_mem_singleton.mpr (.missing .here listed (by simpa using absent)), List.pairwise_singleton ..⟩

theorem Sound.under (sound : Sound inner w fault)
    (leads : ∀ l t u, inner.Leads w l t u → s.Leads v (step :: l) t u) : Sound s v (fault.under step) := by
  constructor
  · rw [spots_under]
    intro spot listed
    obtain ⟨deeper, present, rfl⟩ := List.mem_map.mp listed
    exact (sound.points deeper present).lift [step] leads
  · rw [spots_under, List.pairwise_map]
    exact sound.nested.imp fun before => List.cons_prefix_cons.mpr ⟨rfl, before⟩

theorem Sound.neither {one two : Shape} (unmatched : ¬ Matches (.either one two) v) (cause : Sound one v fault) :
    Sound (.either one two) v (.neither [] one two fault) := by
  constructor
  · refine List.forall_mem_cons.mpr ⟨.neither .here unmatched, fun spot listed => ?_⟩
    exact (cause.points spot listed).lift [] fun _ _ _ there => .left there
  · exact List.pairwise_cons.mpr ⟨fun _ _ => List.nil_prefix, cause.nested⟩

end Misshape

namespace Shape
open Misshape (Sound)

theorem plainIf_error {matching : Bool} {s : Shape} {v : Json} {fault : Misshape}
    (failed : plainIf matching s v = .error fault) : fault = .mismatch [] s v.kind := by
  cases matching with
  | true => cases failed
  | false => exact (Except.error.inj failed).symm

theorem collectItems_error {decode : Json → Except Misshape Payload} {n : Nat} {items : List Json} {fault : Misshape}
    (failed : collectItems decode n items = .error fault) :
    ∃ i e inner, items[i]? = some e ∧ decode e = .error inner ∧ fault = inner.under (.index (n + i)) := by
  induction items generalizing n with
  | nil => cases failed
  | cons v rest ih =>
    unfold collectItems at failed
    split at failed
    · rename_i inner first
      exact ⟨0, v, inner, rfl, first, (Except.error.inj failed).symm⟩
    · split at failed
      · rename_i later
        cases failed
        obtain ⟨i, e, inner, found, refused, rfl⟩ := ih later
        exact ⟨i + 1, e, inner, found, refused, by rw [Nat.add_assoc, Nat.add_comm 1]⟩
      · cases failed

theorem collectMembers_error {decode : String → Json → Except Misshape Payload} {members : List (String × Json)}
    {fault : Misshape} (failed : collectMembers decode members = .error fault) :
    ∃ m ∈ members, ∃ inner, decode m.1 m.2 = .error inner ∧ fault = inner.under (.member m.1) := by
  induction members with
  | nil => cases failed
  | cons member rest ih =>
    obtain ⟨name, v⟩ := member
    unfold collectMembers at failed
    split at failed
    · rename_i inner first
      exact ⟨(name, v), List.mem_cons_self, inner, first, (Except.error.inj failed).symm⟩
    · split at failed
      · rename_i later
        cases failed
        obtain ⟨m, listed, found⟩ := ih later
        exact ⟨m, List.mem_cons_of_mem _ listed, found⟩
      · cases failed

theorem decode_error {s : Shape} {v : Json} {fault : Misshape} (failed : decode s v = .error fault) : ¬ Matches s v := by
  rw [← decode_ok_iff, failed]
  simp

mutual

-- What decoding complains of is so.
theorem decode_sound : ∀ (s : Shape) (v : Json) (fault : Misshape), decode s v = .error fault → Sound s v fault
  | .any, v, fault, failed => by cases failed
  | .null, v, fault, failed | .bool, v, fault, failed | .number, v, fault, failed
  | .integer, v, fault, failed | .string, v, fault, failed => by
    have unmatched := decode_error failed
    rw [decode] at failed
    rw [plainIf_error failed]
    exact .mismatch unmatched
  | .array items, v, fault, failed => by
    have unmatched := decode_error failed
    unfold decode at failed
    split at failed
    · rename_i elements
      cases collected : collectItems (fun e => decode items e) 0 elements with
      | ok ps => simp [collected, Except.map] at failed
      | error fault' =>
        obtain ⟨i, e, inner, found, refused, rfl⟩ := collectItems_error collected
        simp only [collected, Except.map, Except.error.injEq] at failed
        rw [← failed, Nat.zero_add]
        exact (decode_sound items e inner refused).under fun _ _ _ there => .item found there
    · cases failed
      exact .mismatch unmatched
  | .object fields, v, fault, failed => by
    have unmatched := decode_error failed
    unfold decode at failed
    split at failed
    · rename_i members
      split at failed
      · rename_i missing
        cases failed
        exact .missing missing
      · cases collected : collectMembers (fun name e => decodeMember fields name e) members with
        | ok ps => simp [collected, Except.map] at failed
        | error fault' =>
          obtain ⟨m, listed, inner, refused, rfl⟩ := collectMembers_error collected
          obtain ⟨declared, found, asked, sound⟩ := decodeMember_sound fields m.1 m.2 inner refused
          simp only [collected, Except.map, Except.error.injEq] at failed
          rw [← failed]
          exact sound.under fun _ _ _ there => .member listed found asked there
    · cases failed
      exact .mismatch unmatched
  | .either left right, v, fault, failed => by
    have unmatched := decode_error failed
    unfold decode at failed
    split at failed
    · cases failed
    · rename_i inner first
      split at failed
      · cases failed
      · cases failed
        exact .neither unmatched (decode_sound left v inner first)

theorem decodeMember_sound : ∀ (fields : List (Field Shape)) (name : String) (v : Json) (fault : Misshape),
    decodeMember fields name v = .error fault → ∃ declared, (Shape.object fields).field? name = some declared ∧
      ¬ (v = .null ∧ declared.presence = .optional) ∧ Sound declared.shape v fault
  | [], _, _, _, failed => by cases failed
  | ⟨declared, shape, presence⟩ :: rest, name, v, fault, failed => by
    unfold decodeMember at failed
    split at failed
    · rename_i same
      split at failed
      · cases failed
      · rename_i asked
        exact ⟨⟨declared, shape, presence⟩, by simp [field?, same], asked, decode_sound shape v fault failed⟩
    · rename_i other
      obtain ⟨found, first, known⟩ := decodeMember_sound rest name v fault failed
      refine ⟨found, ?_, known⟩
      simpa [field?, other] using first

end

theorem decodeNamed_eq_error {s : Shape} {v : Json} {name : String} {issue : Issue} :
    s.decodeNamed name v = .error issue ↔ ∃ fault, s.decode v = .error fault ∧ issue = fault.toIssue name := by
  rw [decodeNamed]
  cases s.decode v <;> simp [eq_comm]

-- Every issue below a failure names a place where the value and its shape do not fit, after
-- the name that the value was given, whatever that is.
theorem issues_point_at_faults (s : Shape) (v : Json) (name : String) (issue : Issue)
    (failed : s.decodeNamed name v = .error issue) :
    ∃ spots : List (Location × String),
      issue.chain = spots.map (fun spot => ⟨name ++ spot.1.render ++ spot.2, ErrorCode.invalidParams.code, none⟩) ∧
      (∀ spot ∈ spots, s.Points v spot.1 spot.2) ∧
      spots.Pairwise (fun outer inner => outer.1 <+: inner.1) ∧
      ∀ other, ∃ issue', s.decodeNamed other v = .error issue' ∧
        issue'.chain = spots.map fun spot => ⟨other ++ spot.1.render ++ spot.2, ErrorCode.invalidParams.code, none⟩ := by
  obtain ⟨fault, refused, rfl⟩ := decodeNamed_eq_error.mp failed
  have sound := decode_sound s v fault refused
  refine ⟨fault.spots, fault.chain_toIssue name, sound.points, sound.nested, fun other => ?_⟩
  exact ⟨fault.toIssue other, decodeNamed_eq_error.mpr ⟨fault, refused, rfl⟩, fault.chain_toIssue other⟩

-- A union inside a list inside a member, which fails on the member that its left alternative asks for.
theorem issues_point_at_faults_nested :
    ∃ (s : Shape) (v : Json) (issue : Issue) (spots : List (Location × String)),
      s.decodeNamed "result" v = .error issue ∧
      issue.chain.map (·.text) = ["result.at[1]: value matches neither object with x nor string",
        "result.at[1].x: expected integer, found boolean"] ∧
      issue.chain = spots.map (fun spot => ⟨"result" ++ spot.1.render ++ spot.2, ErrorCode.invalidParams.code, none⟩) ∧
      (∀ spot ∈ spots, s.Points v spot.1 spot.2) ∧ spots.Pairwise (fun outer inner => outer.1 <+: inner.1) := by
  let point : Shape := .object [⟨"x", .integer, .required⟩]
  let s : Shape := .object [⟨"at", .array (.either point .string), .optional⟩]
  let v : Json := .object [("at", .array [.string "a", .object [("x", .bool true)]]), ("of", .null)]
  let cause : Misshape := .mismatch [.member "at", .index 1, .member "x"] .integer .boolean
  let issue := (Misshape.neither [.member "at", .index 1] point .string cause).toIssue "result"
  have failed : s.decodeNamed "result" v = .error issue := by rfl
  obtain ⟨spots, chain, points, nested, _⟩ := issues_point_at_faults s v "result" issue failed
  exact ⟨s, v, issue, spots, failed, by decide +kernel, chain, points, nested⟩

end Shape
end DuplexRpc
