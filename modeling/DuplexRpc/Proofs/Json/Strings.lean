import DuplexRpc.Json.StringReading
import DuplexRpc.Json.Writer
import DuplexRpc.Proofs.Text.Utf8

namespace DuplexRpc.Json

namespace StringReading

-- The reading after further octets, all of them inside the string.
def feed (s : StringReading) : List UInt8 → Option StringReading
  | [] => some s
  | b :: rest => match s.advance b with
    | .more next => next.feed rest
    | _ => none

theorem feed_append {s next : StringReading} {one : List UInt8} (two : List UInt8) (fed : s.feed one = some next) :
    s.feed (one ++ two) = next.feed two := by
  induction one generalizing s with
  | nil =>
    cases fed
    rfl
  | cons b rest ih =>
    simp only [List.cons_append, feed] at fed ⊢
    split
    · rename_i further
      rw [further] at fed
      exact ih fed
    · rename_i stops
      split at fed
      · rename_i further
        exact absurd further (stops _)
      · cases fed

theorem feed_plain (content bytes : List UInt8)
    (plain : ∀ b ∈ bytes, b ≠ 34 ∧ b ≠ 92 ∧ ¬ b < 32) :
    feed ⟨content, .plain⟩ bytes = some ⟨bytes.reverse ++ content, .plain⟩ := by
  induction bytes generalizing content with
  | nil => rfl
  | cons b rest ih =>
    obtain ⟨quote, slash, control⟩ := plain b List.mem_cons_self
    have step : advance ⟨content, .plain⟩ b = .more ⟨b :: content, .plain⟩ := by
      simp [advance, quote, slash, control]
    simp only [feed, step]
    rw [ih (b :: content) fun b' later => plain b' (List.mem_cons_of_mem _ later)]
    simp

theorem hex_code : ∀ n < 0x20, ∃ one two, Utf8.encode [hexDigit (n / 16), hexDigit n] = [one, two] ∧
    code? [48, 48, one, two] = some n ∧ isHigh n = false ∧ isLow n = false := by
  intro n small
  refine ⟨(Utf8.encode [hexDigit (n / 16)]).headD 0, (Utf8.encode [hexDigit n]).headD 0, ?_⟩
  revert n
  decide +kernel

theorem feed_control (content : List UInt8) {c : Char} (control : c.toNat < 0x20) :
    feed ⟨content, .plain⟩ (Utf8.encode (renderChar c)) =
      some ⟨(String.utf8EncodeChar c).reverse ++ content, .plain⟩ := by
  by_cases short : c = '\x08' ∨ c = '\x0c' ∨ c = '\n' ∨ c = '\r' ∨ c = '\t'
  · rcases short with rfl | rfl | rfl | rfl | rfl <;> rfl
  · simp only [not_or] at short
    obtain ⟨one, two, digits, code, notHigh, notLow⟩ := hex_code c.toNat control
    have quote : c ≠ '"' := by
      rintro rfl
      exact absurd control (by decide)
    have slash : c ≠ '\\' := by
      rintro rfl
      exact absurd control (by decide)
    have written : renderChar c = ['\\', 'u', '0', '0'] ++ [hexDigit (c.toNat / 16), hexDigit c.toNat] := by
      simp [renderChar, short, quote, slash, control]
    have named : Char.ofNat c.toNat = c := Char.ofNat_toNat c
    rw [written, Utf8.encode_append, digits]
    change feed ⟨content, .plain⟩ [92, 117, 48, 48, one, two] = _
    simp [feed, advance, pushCode, code, notHigh, notLow, push, named]

-- A character as it is written reads as its octets.
theorem feed_char (content : List UInt8) (c : Char) :
    feed ⟨content, .plain⟩ (Utf8.encode (renderChar c)) =
      some ⟨(String.utf8EncodeChar c).reverse ++ content, .plain⟩ := by
  by_cases control : c.toNat < 0x20
  · exact feed_control content control
  · by_cases escaped : c = '"' ∨ c = '\\'
    · rcases escaped with rfl | rfl <;> rfl
    · obtain ⟨quote, slash⟩ := not_or.mp escaped
      have above : ∀ d : Char, d.toNat < 0x20 → c ≠ d := fun d small same => control (same ▸ small)
      have visible : renderChar c = [c] := by
        simp [renderChar, quote, slash, control, above '\x08' (by decide), above '\x0c' (by decide),
          above '\n' (by decide), above '\r' (by decide), above '\t' (by decide)]
      rw [visible]
      have octets : Utf8.encode [c] = String.utf8EncodeChar c := List.append_nil _
      rw [octets]
      apply feed_plain content _
      intro b present
      have number : ∀ n : UInt8, n.toNat < 0x80 → b = n → c.toNat = n.toNat := by
        rintro n small rfl
        obtain ⟨d, listed, same⟩ := Utf8.mem_encode (octets ▸ present) small
        rwa [List.mem_singleton.mp listed] at same
      refine ⟨fun same => ?_, fun same => ?_, fun below => ?_⟩
      · exact quote (Char.toNat_inj.mp (number 34 (by decide) same))
      · exact slash (Char.toNat_inj.mp (number 92 (by decide) same))
      · have small : b.toNat < 32 := UInt8.lt_iff_toNat_lt.mp below
        exact control (number b (by omega) rfl ▸ small)

-- What stands between the quotes of a written string reads as its octets.
theorem feed_chars (content : List UInt8) (text : List Char) :
    feed ⟨content, .plain⟩ (Utf8.encode (text.flatMap renderChar)) =
      some ⟨(Utf8.encode text).reverse ++ content, .plain⟩ := by
  induction text generalizing content with
  | nil => rfl
  | cons c rest ih =>
    rw [List.flatMap_cons, Utf8.encode_append, feed_append _ (feed_char content c), ih, Utf8.encode_cons]
    simp

theorem close_chars (text : List Char) : close (Utf8.encode text).reverse = .done text := by
  simp [close, Utf8.decode?_encode]

end StringReading
end DuplexRpc.Json
