import DuplexRpc.Json.Value
import DuplexRpc.Text.Utf8

namespace DuplexRpc.Json

def hexDigit (n : Nat) : Char :=
  (Nat.toDigits 16 (n % 16)).headD '0'

-- Quotes, backslashes and the controls below a space are escaped, nothing else is.
def renderChar (c : Char) : List Char :=
  if c = '"' then ['\\', '"']
  else if c = '\\' then ['\\', '\\']
  else if c = '\x08' then ['\\', 'b']
  else if c = '\x0c' then ['\\', 'f']
  else if c = '\n' then ['\\', 'n']
  else if c = '\r' then ['\\', 'r']
  else if c = '\t' then ['\\', 't']
  else if c.toNat < 0x20 then ['\\', 'u', '0', '0', hexDigit (c.toNat / 16), hexDigit c.toNat]
  else [c]

def renderString (s : String) : List Char :=
  '"' :: (s.toList.flatMap renderChar ++ ['"'])

mutual

-- Compact writing: no blanks, members in the order in which the value lists them.
def render : Json → List Char
  | .null => ['n', 'u', 'l', 'l']
  | .bool true => ['t', 'r', 'u', 'e']
  | .bool false => ['f', 'a', 'l', 's', 'e']
  | .number n => n.render
  | .string s => renderString s
  | .array [] => ['[', ']']
  | .array (first :: rest) => '[' :: (render first ++ renderItems rest)
  | .object [] => ['\x7b', '\x7d']
  | .object ((name, value) :: rest) => '\x7b' :: (renderString name ++ ':' :: (render value ++ renderMembers rest))

def renderItems : List Json → List Char
  | [] => [']']
  | value :: rest => ',' :: (render value ++ renderItems rest)

def renderMembers : List (String × Json) → List Char
  | [] => ['\x7d']
  | (name, value) :: rest => ',' :: (renderString name ++ ':' :: (render value ++ renderMembers rest))

end

def text (value : Json) : String :=
  String.ofList (render value)

def octets (value : Json) : List UInt8 :=
  Utf8.encode (render value)

end DuplexRpc.Json
