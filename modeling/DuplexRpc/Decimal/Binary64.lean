namespace DuplexRpc

-- A binary floating-point number of 64 bits, kept as its bit pattern so that
-- equality is decidable and -0.0 stays apart from 0.0.
structure Binary64 where
  bits : UInt64
  deriving DecidableEq, Repr, Inhabited

namespace Binary64

def isNegative (x : Binary64) : Bool := x.bits.toNat ≥ 0x8000000000000000

def biasedExponent (x : Binary64) : Nat := x.bits.toNat / 0x10000000000000 % 0x800

def fraction (x : Binary64) : Nat := x.bits.toNat % 0x10000000000000

-- The magnitude of a finite number is `significand * 2 ^ exponent`.
def significand (x : Binary64) : Nat :=
  if x.biasedExponent = 0 then x.fraction else 0x10000000000000 + x.fraction

def exponent (x : Binary64) : Int :=
  (max x.biasedExponent 1 : Nat) - 1075

def isZero (x : Binary64) : Bool := x.significand == 0

-- The gap below a power of two is half the gap above it, except at the bottom.
def hasNarrowGapBelow (x : Binary64) : Bool :=
  x.fraction == 0 && x.biasedExponent > 1

def zero : Binary64 := ⟨0⟩

-- Gives a magnitude the sign of a negative number.
def negate (x : Binary64) : Binary64 := ⟨x.bits ^^^ 0x8000000000000000⟩

def roundQuotient (num den : Nat) : Nat :=
  let below := num / den
  let rest := num % den
  if 2 * rest < den ∨ (2 * rest = den ∧ below % 2 = 0) then below else below + 1

-- The nearest number to `num * 2 ^ scale / den`, of two equally near ones the even one.
-- `none` is a ratio out of range.
def ofRatio (num den : Nat) (scale : Int) : Option Binary64 :=
  let num := num * Nat.pow 2 scale.toNat
  let den := den * Nat.pow 2 (-scale).toNat
  if num = 0 then some zero
  else
    -- The quotient has 53 binary digits in units of `2 ^ unit`, fewer at the bottom.
    let guess : Int := num.log2 - den.log2 - 52
    let fits := den * Nat.pow 2 (guess + 52).toNat ≤ num * Nat.pow 2 (-(guess + 52)).toNat
    let unit := max (if fits then guess else guess - 1) (-1074)
    let quotient := roundQuotient (num * Nat.pow 2 (-unit).toNat) (den * Nat.pow 2 unit.toNat)
    let bits :=
      if quotient < 0x10000000000000 then quotient
      else (unit + 1074).toNat * 0x10000000000000 + quotient
    if bits < 0x7FF0000000000000 then some ⟨bits.toUInt64⟩ else none

def mul (x y : Binary64) : Option Binary64 :=
  ofRatio (x.significand * y.significand) 1 (x.exponent + y.exponent)

def div (x y : Binary64) : Option Binary64 :=
  ofRatio x.significand y.significand (x.exponent - y.exponent)

end Binary64
end DuplexRpc
