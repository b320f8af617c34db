import DuplexRpc.Json.Value
import DuplexRpc.Json.Fault

namespace DuplexRpc.Json

-- How far a numeral has been read.
inductive Numeral.Stage where
  | sign          -- after a minus sign
  | zero          -- after a leading zero
  | whole         -- in the digits before the point
  | excess        -- in digits before the point that no longer fit the significand
  | point         -- after the point
  | fraction      -- in the digits after the point
  | dropped       -- in digits after the point that no longer fit
  | mark          -- after the exponent mark
  | markSign      -- after the exponent's sign
  | power         -- in the digits of the exponent
  | vanished      -- in the digits of an exponent beyond all measure, the number being zero
  deriving DecidableEq, Repr

-- The digits read so far as `significand * 10 ^ exponent`. Digits that would take the
-- significand beyond 64 bits are not accumulated.
structure Numeral where
  negative : Bool
  stage : Numeral.Stage
  significand : Nat
  exponent : Int := 0
  powerNegative : Bool := false
  power : Nat := 0
  deriving DecidableEq, Repr

namespace Numeral

def digit? (b : UInt8) : Option Nat :=
  if 48 ≤ b ∧ b ≤ 57 then some (b.toNat - 48) else none

def isMark (b : UInt8) : Bool := b == 101 || b == 69

def fits (significand digit : Nat) : Bool := significand * 10 + digit < 0x10000000000000000

def maxPower : Nat := 0x7FFFFFFF

-- The first octet of a numeral.
def begin? (b : UInt8) : Option Numeral :=
  if b = 45 then some ⟨true, .sign, 0, 0, false, 0⟩
  else (digit? b).map fun d => ⟨false, if d = 0 then .zero else .whole, d, 0, false, 0⟩

inductive Reading where
  | more (next : Numeral)
  | stop
  | refuse (cause : Cause)

-- One further octet: it extends the numeral, ends it, or cannot stand here.
def advance (n : Numeral) (b : UInt8) : Reading :=
  match n.stage, digit? b with
  | .sign, some d => .more { n with stage := if d = 0 then .zero else .whole, significand := d }
  | .sign, none => .refuse .invalidNumber
  | .zero, some _ => .refuse .invalidNumber
  | .whole, some d =>
    if fits n.significand d then .more { n with significand := n.significand * 10 + d }
    else .more { n with stage := .excess, exponent := n.exponent + 1 }
  | .excess, some _ => .more { n with exponent := n.exponent + 1 }
  | .point, none => .refuse .invalidNumber
  | .point, some d | .fraction, some d =>
    if fits n.significand d then
      .more { n with stage := .fraction, significand := n.significand * 10 + d, exponent := n.exponent - 1 }
    else .more { n with stage := .dropped }
  | .dropped, some _ => .more n
  | .mark, some d | .markSign, some d => .more { n with stage := .power, power := d }
  | .mark, none =>
    if b = 43 then .more { n with stage := .markSign }
    else if b = 45 then .more { n with stage := .markSign, powerNegative := true }
    else .refuse .invalidNumber
  | .markSign, none => .refuse .invalidNumber
  | .power, some d =>
    if n.power * 10 + d ≤ maxPower then .more { n with power := n.power * 10 + d }
    else if n.significand ≠ 0 ∧ n.powerNegative = false then .refuse .numberOutOfRange
    else .more { n with stage := .vanished }
  | .vanished, some _ => .more n
  | .power, none | .vanished, none => .stop
  | .zero, none | .whole, none | .excess, none =>
    if b = 46 then .more { n with stage := .point }
    else if isMark b then .more { n with stage := .mark }
    else .stop
  | .fraction, none | .dropped, none =>
    if isMark b then .more { n with stage := .mark } else .stop

def powerOfTen (n : Nat) : Binary64 := (Binary64.ofRatio (Nat.pow 10 n) 1 0).getD .zero

-- Scaling rounds at each step: one multiplication or division by a power of ten, after
-- divisions by 10 ^ 308 while the exponent lies below. `none` is a magnitude out of range.
def scale (x : Binary64) (exponent : Int) : Nat → Option Binary64
  | 0 => some x
  | room + 1 =>
    if exponent.natAbs ≤ 308 then
      if 0 ≤ exponent then x.mul (powerOfTen exponent.toNat) else x.div (powerOfTen exponent.natAbs)
    else if x.isZero then some x
    else if 0 ≤ exponent then none
    else (x.div (powerOfTen 308)).bind fun y => scale y (exponent + 308) room

-- A 64-bit significand is divided down to zero after three divisions by 10 ^ 308.
def real (negative : Bool) (significand : Nat) (exponent : Int) : Option Binary64 :=
  ((Binary64.ofRatio significand 1 0).bind (scale · exponent 4)).map fun x => if negative then x.negate else x

def totalExponent (n : Numeral) : Int :=
  if n.powerNegative then n.exponent - n.power else n.exponent + n.power

-- Digits alone are an integer where one of 64 bits exists; minus zero is a real.
def finish (n : Numeral) : Except Cause Number :=
  let asReal (exponent : Int) : Except Cause Number :=
    match real n.negative n.significand exponent with
    | some x => .ok (.real x)
    | none => .error .numberOutOfRange
  match n.stage with
  | .sign | .point | .mark | .markSign => .error .endInValue
  | .zero | .whole =>
    if h : n.negative = false ∧ n.significand < 0x10000000000000000 then
      .ok (.integer n.significand ⟨by omega, by omega⟩)
    else if h : 0 < n.significand ∧ n.significand ≤ 0x8000000000000000 then
      .ok (.integer (-n.significand) ⟨by omega, by omega⟩)
    else asReal 0
  | .vanished => .ok (.real (if n.negative then Binary64.zero.negate else .zero))
  | _ => asReal n.totalExponent

end Numeral
end DuplexRpc.Json
