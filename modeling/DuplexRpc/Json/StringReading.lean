import DuplexRpc.Json.Fault
import DuplexRpc.Text.Utf8

namespace DuplexRpc.Json

-- Where inside a string the reading stands.
inductive StringReading.Stage where
  | plain
  | escape                                      -- after a backslash
  | hex (before : Option Nat) (seen : List UInt8)  -- in a four-digit code, after a high surrogate or not
  | high (surrogate : Nat)                      -- after a high surrogate's code
  | highEscape (surrogate : Nat)                -- after that and a backslash
  deriving DecidableEq, Repr

-- The unescaped content so far, last octet first.
structure StringReading where
  content : List UInt8
  stage : StringReading.Stage
  deriving DecidableEq, Repr

namespace StringReading

def start : StringReading := ⟨[], .plain⟩

inductive Next where
  | more (next : StringReading)
  | done (content : List Char)
  | refuse (cause : Cause) (back : Nat)

def hexValue? (b : UInt8) : Option Nat :=
  if 48 ≤ b ∧ b ≤ 57 then some (b.toNat - 48)
  else if 97 ≤ b ∧ b ≤ 102 then some (b.toNat - 87)
  else if 65 ≤ b ∧ b ≤ 70 then some (b.toNat - 55)
  else none

def code? (digits : List UInt8) : Option Nat :=
  digits.foldlM (fun n b => (hexValue? b).map (n * 16 + ·)) 0

def escapeOf? (b : UInt8) : Option UInt8 :=
  if b = 34 ∨ b = 92 ∨ b = 47 then some b
  else if b = 98 then some 8
  else if b = 102 then some 12
  else if b = 110 then some 10
  else if b = 114 then some 13
  else if b = 116 then some 9
  else none

def push (content : List UInt8) (code : Nat) : StringReading :=
  ⟨(String.utf8EncodeChar (Char.ofNat code)).reverse ++ content, .plain⟩

def isHigh (code : Nat) : Bool := 0xD800 ≤ code && code ≤ 0xDBFF

def isLow (code : Nat) : Bool := 0xDC00 ≤ code && code ≤ 0xDFFF

-- A code of four digits: a character, or half of a pair.
def pushCode (content : List UInt8) (before : Option Nat) (digits : List UInt8) : Next :=
  match code? digits, before with
  | none, _ => .refuse .invalidEscape 0
  | some code, none =>
    if isLow code then .refuse .loneSurrogate 0
    else if isHigh code then .more ⟨content, .high code⟩
    else .more (push content code)
  | some code, some high =>
    if isLow code then .more (push content (0x10000 + (high - 0xD800) * 0x400 + (code - 0xDC00)))
    else .refuse .loneSurrogate 0

-- The closing quote is where invalid UTF-8 shows; the fault is charged to the first
-- invalid octet by its distance from the end of the unescaped content.
def close (content : List UInt8) : Next :=
  let bytes := content.reverse
  match Utf8.decode? bytes with
  | some text => .done text
  | none => .refuse .invalidCodePoint (bytes.length - Utf8.validLength bytes)

def advance (s : StringReading) (b : UInt8) : Next :=
  match s.stage with
  | .plain =>
    if b = 34 then close s.content
    else if b = 92 then .more { s with stage := .escape }
    else if b < 32 then .refuse .controlInString 0
    else .more { s with content := b :: s.content }
  | .escape =>
    if b = 117 then .more { s with stage := .hex none [] }
    else match escapeOf? b with
      | some c => .more ⟨c :: s.content, .plain⟩
      | none => .refuse .invalidEscape 0
  | .hex before seen =>
    if seen.length < 3 then .more { s with stage := .hex before (seen ++ [b]) }
    else pushCode s.content before (seen ++ [b])
  | .high code =>
    if b = 92 then .more { s with stage := .highEscape code } else .refuse .endOfHexEscape 0
  | .highEscape code =>
    if b = 117 then .more { s with stage := .hex (some code) [] } else .refuse .endOfHexEscape 0

end StringReading
end DuplexRpc.Json
