import ExprTree.Number.Binary

/-!
# Shortest decimal digits

The decimal that writes a binary number: of the decimals that round to the
number, those with the fewest digits, and of these the nearest. For one,
two, … digits the two neighbours of the value on that decimal grid are tested
in exact arithmetic against the interval of reals that round to the number.
-/

namespace ExprTree

/-- The number of decimal digits of `n`. -/
def digitCount (n : Nat) : Nat :=
  (Nat.toDigits 10 n).length

/-- The greatest `k` with `10 ^ k ≤ num / den`, for positive `num` and `den`. -/
def decimalLog (num den : Nat) : Int :=
  if den ≤ num then (digitCount (num / den) : Int) - 1
  else -(digitCount ((den + num - 1) / num - 1) : Int)

/-- The reals that round to `mantissa * 2 ^ exponent`, over a common divisor;
the ends belong to the interval when the mantissa is even. -/
structure RoundingInterval where
  value : Nat
  low : Nat
  high : Nat
  divisor : Nat
  closed : Bool

/-- The interval reaches half way to each neighbour; the lower neighbour of a power of two
is at half the usual distance, unless the exponent is already the least. -/
def Format.interval (f : Format) (m : Nat) (e : Int) : RoundingInterval :=
  let narrow := m == 2 ^ (f.precision - 1) && e > f.minExponent
  let (s, d) := scaled 1 1 (e - 2)
  { value := 4 * m * s
    low := (if narrow then 4 * m - 1 else 4 * m - 2) * s
    high := (4 * m + 2) * s
    divisor := d
    closed := m % 2 == 0 }

namespace RoundingInterval

/-- Does the decimal `digits * 10 ^ k` lie in the interval? -/
def contains (i : RoundingInterval) (digits : Nat) (k : Int) : Bool :=
  let (n, d) := if k ≥ 0 then (digits * 10 ^ k.toNat, 1) else (digits, 10 ^ (-k).toNat)
  let x := n * i.divisor
  let lo := i.low * d
  let hi := i.high * d
  if i.closed then lo ≤ x && x ≤ hi else lo < x && x < hi

/-- The decimal of the interval on the grid of `10 ^ k` that is nearest to the value. -/
def onGrid? (i : RoundingInterval) (k : Int) : Option Nat :=
  let (n, d) := if k ≥ 0 then (i.value, i.divisor * 10 ^ k.toNat)
    else (i.value * 10 ^ (-k).toNat, i.divisor)
  let below := n / d
  let nearest := roundDiv n d
  let other := if nearest = below then below + 1 else below
  if i.contains nearest k then some nearest
  else if i.contains other k then some other
  else none

/-- Tries grids of more and more digits, the first with spacing `10 ^ k`. -/
def search (i : RoundingInterval) : Nat → Int → Nat × Int
  | 0, k => ((i.onGrid? k).getD 0, k)
  | n + 1, k =>
    match i.onGrid? k with
    | some d => (d, k)
    | none => search i n (k - 1)

end RoundingInterval

/-- Digits without trailing zeros, with the exponent of the last one. -/
def stripZeros : Nat → Nat → Int → Nat × Int
  | 0, d, k => (d, k)
  | n + 1, d, k => if d % 10 = 0 && d ≠ 0 then stripZeros n (d / 10) (k + 1) else (d, k)

/-- The shortest decimal `(d, k)`, meaning `d * 10 ^ k`, of a positive number of the format. -/
def Format.shortest (f : Format) (m : Nat) (e : Int) : Nat × Int :=
  let i := f.interval m e
  let (d, k) := i.search 17 (decimalLog i.value i.divisor)
  stripZeros 20 d k

end ExprTree
