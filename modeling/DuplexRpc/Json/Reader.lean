import DuplexRpc.Json.Value
import DuplexRpc.Json.Numeral
import DuplexRpc.Json.StringReading

namespace DuplexRpc.Json

-- An open container that waits for the value being read; what it holds so far, last first.
inductive Reader.Enclosure where
  | list (items : List Json)
  | members (done : List (String × Json)) (name : String)

-- What may come next inside the innermost open container.
inductive Reader.Mode where
  | value                                                -- a value
  | firstItem                                            -- a value or the list's end
  | nextItem                                             -- a value, after a comma
  | firstName                                            -- a name or the object's end
  | nextName (done : List (String × Json))               -- a name, after a comma
  | name (done : List (String × Json)) (s : StringReading)
  | colon (done : List (String × Json)) (name : String)
  | literal (rest : List UInt8) (value : Json)
  | numeral (n : Numeral)
  | string (s : StringReading)
  | after (value : Json)                                 -- a value has ended

-- The octets read so far: the open containers and the place inside the innermost. One
-- octet at a time, so that a fault is always at the octet just taken or at the end.
structure Reader where
  enclosing : List Reader.Enclosure
  mode : Reader.Mode

namespace Reader

def start : Reader := ⟨[], .value⟩

-- Containers nest at most this deep.
def maxDepth : Nat := 127

def isSpace (b : UInt8) : Bool := b == 32 || b == 10 || b == 9 || b == 13

def inMode (r : Reader) (mode : Mode) : Reader := { r with mode := mode }

-- The first octet of a value. A list waits for its items at once, an object only once a
-- name has been read.
def beginValue (r : Reader) (b : UInt8) : Except Cause Reader :=
  if b = 110 then .ok (r.inMode (.literal [117, 108, 108] .null))
  else if b = 116 then .ok (r.inMode (.literal [114, 117, 101] (.bool true)))
  else if b = 102 then .ok (r.inMode (.literal [97, 108, 115, 101] (.bool false)))
  else if b = 34 then .ok (r.inMode (.string .start))
  else if b = 91 then
    if r.enclosing.length < maxDepth then .ok ⟨.list [] :: r.enclosing, .firstItem⟩ else .error .tooDeep
  else if b = 123 then
    if r.enclosing.length < maxDepth then .ok (r.inMode .firstName) else .error .tooDeep
  else match Numeral.begin? b with
    | some n => .ok (r.inMode (.numeral n))
    | none => .error .expectedValue

-- An octet after a complete value belongs to the container around it.
def afterValue (r : Reader) (value : Json) (b : UInt8) : Except Cause Reader :=
  if isSpace b then .ok (r.inMode (.after value))
  else match r.enclosing with
    | [] => .error .trailingText
    | .list items :: outer =>
      if b = 44 then .ok ⟨.list (value :: items) :: outer, .nextItem⟩
      else if b = 93 then .ok ⟨outer, .after (.array (value :: items).reverse)⟩
      else .error .listSeparator
    | .members done name :: outer =>
      if b = 44 then .ok ⟨outer, .nextName ((name, value) :: done)⟩
      else if b = 125 then .ok ⟨outer, .after (.ofMembers ((name, value) :: done).reverse)⟩
      else .error .objectSeparator

def refused (cause : Cause) (taken : Nat) : Except Fault α := .error ⟨cause, taken, 0⟩

def located (taken : Nat) : Except Cause α → Except Fault α
  | .ok a => .ok a
  | .error cause => refused cause taken

-- Takes the octet that makes `taken` of them.
def advance (r : Reader) (taken : Nat) (b : UInt8) : Except Fault Reader :=
  match r.mode with
  | .value => if isSpace b then .ok r else located taken (r.beginValue b)
  | .firstItem =>
    if isSpace b then .ok r
    else if b = 93 then .ok ⟨r.enclosing.tail, .after (.array [])⟩
    else located taken (r.beginValue b)
  | .nextItem =>
    if isSpace b then .ok r
    else if b = 93 then refused .trailingComma taken
    else located taken (r.beginValue b)
  | .firstName =>
    if isSpace b then .ok r
    else if b = 34 then .ok (r.inMode (.name [] .start))
    else if b = 125 then .ok (r.inMode (.after (.object [])))
    else refused .keyNotString taken
  | .nextName done =>
    if isSpace b then .ok r
    else if b = 34 then .ok (r.inMode (.name done .start))
    else if b = 125 then refused .trailingComma taken
    else refused .keyNotString taken
  | .name done s =>
    match s.advance b with
    | .more s => .ok (r.inMode (.name done s))
    | .done text => .ok (r.inMode (.colon done (String.ofList text)))
    | .refuse cause back => .error ⟨cause, taken, back⟩
  | .colon done name =>
    if isSpace b then .ok r
    else if b = 58 then .ok ⟨.members done name :: r.enclosing, .value⟩
    else refused .keySeparator taken
  | .literal rest value =>
    match rest with
    | [] => located taken (r.afterValue value b)
    | [c] => if b = c then .ok (r.inMode (.after value)) else refused .expectedLiteral taken
    | c :: rest => if b = c then .ok (r.inMode (.literal rest value)) else refused .expectedLiteral taken
  | .numeral n =>
    match n.advance b with
    | .more n => .ok (r.inMode (.numeral n))
    | .refuse cause => refused cause taken
    | .stop =>
      match n.finish with
      | .ok value => located taken (r.afterValue (.number value) b)
      | .error cause => refused cause (taken - 1)
  | .string s =>
    match s.advance b with
    | .more s => .ok (r.inMode (.string s))
    | .done text => .ok (r.inMode (.after (.string (String.ofList text))))
    | .refuse cause back => .error ⟨cause, taken, back⟩
  | .after value => located taken (r.afterValue value b)

def finishValue (r : Reader) (value : Json) : Except Cause Json :=
  match r.enclosing with
  | [] => .ok value
  | .list _ :: _ => .error .endInList
  | .members .. :: _ => .error .endInObject

-- The end of the input.
def finish (r : Reader) : Except Cause Json :=
  match r.mode with
  | .value | .nextItem | .nextName _ | .literal .. => .error .endInValue
  | .firstItem => .error .endInList
  | .firstName | .colon .. => .error .endInObject
  | .name .. | .string _ => .error .endInString
  | .numeral n => n.finish.bind fun value => r.finishValue (.number value)
  | .after value => r.finishValue value

def run (r : Reader) (taken : Nat) : List UInt8 → Except Fault Json
  | [] => located taken r.finish
  | b :: rest =>
    match r.advance (taken + 1) b with
    | .ok next => next.run (taken + 1) rest
    | .error fault => .error fault

end Reader

-- Reads a whole text as one value.
def read (bytes : List UInt8) : Except Fault Json :=
  Reader.start.run 0 bytes

end DuplexRpc.Json
