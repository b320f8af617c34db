import DuplexRpc.Decimal.Binary64

namespace DuplexRpc

-- `digits * 10 ^ exponent`.
structure Decimal where
  digits : Nat
  exponent : Int
  deriving DecidableEq, Repr

namespace Decimal

def digitCount (n : Nat) : Nat := (Nat.toDigits 10 n).length

-- Moves trailing zeros of the digits into the exponent; `room` bounds the moves.
def stripZeros : Nat → Decimal → Decimal
  | 0, d => d
  | room + 1, d =>
    if d.digits ≠ 0 ∧ d.digits % 10 = 0 then stripZeros room ⟨d.digits / 10, d.exponent + 1⟩ else d

-- The real numbers that round to a positive finite number, on a common scale: the number
-- is `4 * significand` quarter units, and the ends belong to the interval when the
-- significand is even.
structure Basin where
  low : Nat
  middle : Nat
  high : Nat
  closed : Bool
  exponent : Int

def Basin.of (x : Binary64) : Basin :=
  let m := 4 * x.significand
  ⟨if x.hasNarrowGapBelow then m - 1 else m - 2, m, m + 2, x.significand % 2 == 0, x.exponent - 2⟩

-- Decimal exponent of the leading digit of `m * 2 ^ q`, for positive `m`.
def leadingExponent (m : Nat) (q : Int) : Int :=
  if 0 ≤ q then (digitCount (m * Nat.pow 2 q.toNat) : Int) - 1
  else
    let den := Nat.pow 2 (-q).toNat
    if den ≤ m then (digitCount (m / den) : Int) - 1
    else -(digitCount ((den + m - 1) / m - 1) : Int)

-- Both sides of a comparison between `a * 2 ^ q` and `c * 10 ^ k`, made natural.
def scaleBinary (a : Nat) (q k : Int) : Nat := a * Nat.pow 2 q.toNat * Nat.pow 10 (-k).toNat

def scaleDecimal (c : Nat) (q k : Int) : Nat := c * Nat.pow 2 (-q).toNat * Nat.pow 10 k.toNat

def Basin.contains (b : Basin) (c : Nat) (k : Int) : Bool :=
  let low := scaleBinary b.low b.exponent k
  let high := scaleBinary b.high b.exponent k
  let point := scaleDecimal c b.exponent k
  if b.closed then low ≤ point && point ≤ high else low < point && point < high

-- On the grid of multiples of `10 ^ k`, only the two neighbours of the number can lie in
-- its basin with no nearer point; the nearer one wins and a tie goes to the even one.
def Basin.onGrid (b : Basin) (k : Int) : Option Nat :=
  let value := scaleBinary b.middle b.exponent k
  let unit := scaleDecimal 1 b.exponent k
  let below := value / unit
  let above := below + 1
  let rest := value % unit
  match b.contains below k, b.contains above k with
  | true, true =>
    if 2 * rest < unit then some below
    else if unit < 2 * rest then some above
    else some (if below % 2 = 0 then below else above)
  | true, false => some below
  | false, true => some above
  | false, false => none

-- Grids from coarse to fine; 17 digits are always enough.
def Basin.search (b : Basin) (lead : Int) : Nat → Nat → Option Decimal
  | _, 0 => none
  | count, room + 1 =>
    let k := lead - count + 1
    match b.onGrid k with
    | some c => if c = 0 then b.search lead (count + 1) room else some ⟨c, k⟩
    | none => b.search lead (count + 1) room

-- The fewest digits that read back as the magnitude of `x`, and of those the nearest.
def shortest (x : Binary64) : Decimal :=
  if x.isZero then ⟨0, 0⟩
  else
    let lead := leadingExponent x.significand x.exponent
    match (Basin.of x).search lead 1 17 with
    | some d => stripZeros 17 d
    | none => ⟨x.significand, 0⟩

-- Where positional writing ends: the leading digit's exponent is at least `lowest`
-- and below `limit`; outside, one digit stands before the point and an exponent follows.
structure Layout where
  lowest : Int
  limit : Int

def ofInt : Int → List Char
  | .ofNat n => Nat.toDigits 10 n
  | .negSucc n => '-' :: Nat.toDigits 10 (n + 1)

def zeros (n : Nat) : List Char := List.replicate n '0'

def positional (digits : List Char) (lead : Int) : List Char :=
  if lead < 0 then '0' :: '.' :: zeros (-lead - 1).toNat ++ digits
  else
    let whole := lead.toNat + 1
    if digits.length ≤ whole then digits ++ zeros (whole - digits.length) ++ ['.', '0']
    else digits.take whole ++ '.' :: digits.drop whole

def scientific (digits : List Char) (lead : Int) : List Char :=
  let mantissa := match digits with
    | first :: more@(_ :: _) => first :: '.' :: more
    | few => few
  mantissa ++ 'e' :: (if lead < 0 then '-' else '+') :: Nat.toDigits 10 lead.natAbs

-- The sign is kept on a zero.
def render (layout : Layout) (x : Binary64) : List Char :=
  let d := shortest x
  let digits := Nat.toDigits 10 d.digits
  let lead := d.exponent + digits.length - 1
  let magnitude :=
    if layout.lowest ≤ lead ∧ lead < layout.limit then positional digits lead else scientific digits lead
  if x.isNegative then '-' :: magnitude else magnitude

end Decimal
end DuplexRpc
