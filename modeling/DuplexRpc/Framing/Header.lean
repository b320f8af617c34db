import DuplexRpc.Text.Quoted
import DuplexRpc.Text.Utf8
import DuplexRpc.Decimal.Shortest

namespace DuplexRpc.Blank

-- The characters with the White_Space property.
def isBlank (c : Char) : Bool :=
  let n := c.toNat
  (0x09 ≤ n && n ≤ 0x0D) || n == 0x20 || n == 0x85 || n == 0xA0 || n == 0x1680 ||
  (0x2000 ≤ n && n ≤ 0x200A) || n == 0x2028 || n == 0x2029 || n == 0x202F || n == 0x205F || n == 0x3000

def trimStart (text : List Char) : List Char :=
  text.dropWhile isBlank

-- Blanks go from both ends and from nowhere else.
def trim (text : List Char) : List Char :=
  (trimStart (trimStart text).reverse).reverse

end DuplexRpc.Blank

namespace DuplexRpc.Framing

-- Why a frame was not delivered.
inductive Fault where
  | missingLength
  | invalidLength (value : String)
  | malformedLine (line : String)
  | headerTooLarge (limit : Nat)
  | frameTooLarge (length limit : Nat)
  deriving DecidableEq, Repr

def Fault.message : Fault → String
  | .missingLength => "Missing Content-Length header"
  | .invalidLength value => "Invalid Content-Length header: " ++ Quoted.quote value
  | .malformedLine line => "Malformed header line: " ++ Quoted.quote line
  | .headerTooLarge limit => "Header block exceeds " ++ toString limit ++ " bytes"
  | .frameTooLarge length limit =>
    "Frame of " ++ toString length ++ " bytes exceeds the limit of " ++ toString limit ++ " bytes"

def lengthName : List Char := "Content-Length".toList

def typeName : List Char := "Content-Type".toList

-- The parts between line ends; the last part has none after it.
def lines : List Char → List (List Char)
  | [] => [[]]
  | '\r' :: '\n' :: rest => [] :: lines rest
  | c :: rest =>
    match lines rest with
    | [] => [[c]]
    | line :: more => (c :: line) :: more

-- A line is split at its first colon.
def splitLine (line : List Char) : Option (List Char × List Char) :=
  match line.dropWhile (· ≠ ':') with
  | [] => none
  | _ :: value => some (line.takeWhile (· ≠ ':'), value)

def digitValue? (c : Char) : Option Nat :=
  if '0' ≤ c ∧ c ≤ '9' then some (c.toNat - 48) else none

def digitsValue? (digits : List Char) : Option Nat :=
  digits.foldlM (fun n c => (digitValue? c).map (n * 10 + ·)) 0

-- An optional plus sign and at least one digit, below 2 ^ 64.
def length? (value : List Char) : Option Nat :=
  let digits := match value with
    | '+' :: rest => rest
    | plain => plain
  if digits = [] then none
  else (digitsValue? digits).filter (· < 0x10000000000000000)

-- One line after the length read so far: of several lengths the last one counts, and a
-- line of another name changes nothing.
def readLine (length : Option Nat) (line : List Char) : Except Fault (Option Nat) :=
  match splitLine line with
  | none => .error (.malformedLine (String.ofList line))
  | some (name, value) =>
    if Blank.trim name = lengthName then
      match length? (Blank.trim value) with
      | some n => .ok (some n)
      | none => .error (.invalidLength (String.ofList (Blank.trim value)))
    else .ok length

def readLines (length : Option Nat) : List (List Char) → Except Fault (Option Nat)
  | [] => .ok length
  | line :: rest =>
    match readLine length line with
    | .ok length => readLines length rest
    | .error fault => .error fault

-- The length that a header block announces. Empty lines are passed over.
def readBlock (block : List UInt8) : Except Fault Nat :=
  match readLines none ((lines (Utf8.lossy block)).filter (· ≠ [])) with
  | .ok (some n) => .ok n
  | .ok none => .error .missingLength
  | .error fault => .error fault

def headerLine (name value : List Char) : List UInt8 :=
  Utf8.encode (name ++ ':' :: ' ' :: value ++ ['\r', '\n'])

-- A frame: the length of its body, the content type if there is one, an empty line, and
-- the body as it is.
def encode (contentType : Option String) (body : List UInt8) : List UInt8 :=
  headerLine lengthName (Nat.toDigits 10 body.length) ++
    (match contentType with
      | some type => headerLine typeName type.toList
      | none => []) ++ [13, 10] ++ body

end DuplexRpc.Framing
