namespace DuplexRpc.Utf8

-- The octets of a text, one to four for each character.
def encode (text : List Char) : List UInt8 :=
  text.flatMap String.utf8EncodeChar

def octets (text : String) : List UInt8 :=
  encode text.toList

-- What the octets read so far announce: a character boundary, or the next octet's
-- admissible range inside a sequence that lacks `more` octets after that one.
-- Narrowed second ranges exclude overlong forms, surrogates and values past U+10FFFF.
inductive Progress where
  | boundary
  | inside (more : Nat) (low high : UInt8) (value : Nat)
  deriving DecidableEq, Repr

-- A reading of octets is a list of units: a character, or `none` for one maximal
-- invalid sequence (an admissible beginning that breaks off, or a stray octet).
abbrev Piece := Option Char

def opening (b : UInt8) : List Piece × Progress :=
  if b < 0x80 then ([some (Char.ofNat b.toNat)], .boundary)
  else if b < 0xC2 then ([none], .boundary)
  else if b < 0xE0 then ([], .inside 0 0x80 0xBF (b.toNat - 0xC0))
  else if b = 0xE0 then ([], .inside 1 0xA0 0xBF 0)
  else if b = 0xED then ([], .inside 1 0x80 0x9F 0xD)
  else if b < 0xF0 then ([], .inside 1 0x80 0xBF (b.toNat - 0xE0))
  else if b = 0xF0 then ([], .inside 2 0x90 0xBF 0)
  else if b < 0xF4 then ([], .inside 2 0x80 0xBF (b.toNat - 0xF0))
  else if b = 0xF4 then ([], .inside 2 0x80 0x8F 4)
  else ([none], .boundary)

-- An octet outside the admissible range ends the broken sequence and is read afresh.
def advance : Progress → UInt8 → List Piece × Progress
  | .boundary, b => opening b
  | .inside more low high value, b =>
    if low ≤ b ∧ b ≤ high then
      let value := value * 64 + (b.toNat - 0x80)
      match more with
      | 0 => ([some (Char.ofNat value)], .boundary)
      | more + 1 => ([], .inside more 0x80 0xBF value)
    else
      let (pieces, next) := opening b
      (none :: pieces, next)

def piecesFrom : Progress → List UInt8 → List Piece
  | .boundary, [] => []
  | .inside .., [] => [none]
  | before, b :: rest =>
    let (pieces, after) := advance before b
    pieces ++ piecesFrom after rest

def pieces (bytes : List UInt8) : List Piece :=
  piecesFrom .boundary bytes

-- Replacement reading: every maximal invalid sequence becomes one U+FFFD.
def lossy (bytes : List UInt8) : List Char :=
  (pieces bytes).map (Option.getD · '\uFFFD')

-- Strict reading.
def decode? (bytes : List UInt8) : Option (List Char) :=
  (pieces bytes).mapM id

-- Number of octets before the first invalid sequence.
def validLength (bytes : List UInt8) : Nat :=
  (encode (((pieces bytes).takeWhile Option.isSome).filterMap id)).length

end DuplexRpc.Utf8
