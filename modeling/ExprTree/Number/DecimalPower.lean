import ExprTree.Number.Decimal

/-!
# Powers of decimals

An integer exponent is raised by squaring, with enough digits beyond the
context for one rounding at the end. Any other exponent goes through the
exponential of a multiple of the logarithm, computed on a grid of powers of
ten fine enough for the digits that are kept.
-/

namespace ExprTree.Decimal

/-! ## Integer exponents -/

/-- The product of two coefficients with exponents, kept to some digits. -/
def mulKept (digits : Nat) (x y : Nat × Int) : Nat × Int :=
  roundTo digits (x.1 * y.1) (x.2 + y.2)

/-- Is the magnitude so far beyond the exponents of the context that it is settled? -/
def settled (x : Nat × Int) : Bool :=
  adjusted x.1 x.2 > 4 * maxExponent || adjusted x.1 x.2 < 4 * minExponent

/-- Raises by squaring over the bits of the exponent after the first, most significant first. -/
def powBits (digits : Nat) (base : Nat × Int) : List Bool → Nat × Int → Nat × Int
  | [], acc => acc
  | bit :: bits, acc =>
    if settled acc then acc
    else
      let acc := mulKept digits acc acc
      powBits digits base bits (if bit then mulKept digits acc base else acc)

/-- The bits of a number, most significant first. -/
def bitsOf (n : Nat) : List Bool :=
  (List.range (n.log2 + 1)).reverse.map fun i => n.testBit i

/-- The power of a positive coefficient to a positive integer. -/
def powNat (digits : Nat) (base : Nat × Int) (n : Nat) : Nat × Int :=
  powBits digits base ((bitsOf n).drop 1) base

/-! ## Logarithm and exponential on a grid -/

/-- The sum of `first`, and of the terms that `next` derives one from the other until they vanish. -/
def series (next : Nat → Int → Int) : Nat → Nat → Int → Int → Int
  | 0, _, _, sum => sum
  | fuel + 1, i, term, sum =>
    let t := next i term
    if t = 0 then sum else series next fuel (i + 1) t (sum + t)

/-- Twice the inverse hyperbolic tangent of `num / den`, in units of `1 / unit`. -/
def twiceAtanh (unit : Nat) (num den : Int) : Int :=
  let z := (num * unit).tdiv den
  let square := (z * z).tdiv unit
  let rec go : Nat → Nat → Int → Int → Int
    | 0, _, _, sum => sum
    | fuel + 1, k, power, sum =>
      if power = 0 then sum
      else go fuel (k + 2) ((power * square).tdiv unit) (sum + power.tdiv k)
  2 * go (10 * Nat.log2 unit) 1 z 0

/-- The logarithm of ten in units of `1 / unit`. -/
def logTen (unit : Nat) : Int :=
  -- ten is (5/4) * 2 ^ 3
  3 * twiceAtanh unit 1 3 + twiceAtanh unit 1 9

/-- The logarithm of a positive number in units of `1 / unit`. -/
def logarithm (unit : Nat) (c : Nat) (e : Int) : Int :=
  let places := digitCount c - 1
  let scale : Int := (10 ^ places : Nat)
  twiceAtanh unit ((c : Int) - scale) (c + scale) + (e + places) * logTen unit

/-- `exp (z / unit)` as a coefficient on a grid and its exponent. -/
def exponential (places : Nat) (z : Int) : Nat × Int :=
  let unit := 10 ^ places
  let ten := logTen unit
  let k := z.fdiv ten
  let r := z - k * ten
  let sum := series (fun i t => (t * r).tdiv ((i : Int) * unit)) (10 * places + 100) 1 unit unit
  (sum.natAbs, k - places)

/-- The power of a positive number to a number that is no integer. -/
def powReal (c : Nat) (e : Int) (negative : Bool) (d : Nat) (k : Int) : Result :=
  let places := 2 * precision + 20 + (adjusted d k).natAbs
  let unit := 10 ^ places
  let log := logarithm unit c e
  let product := Binary.signed negative d * log
  let z := if k ≥ 0 then product * (10 ^ k.toNat : Nat) else product.tdiv (10 ^ (-k).toNat : Nat)
  let (m, x) := exponential places z
  -- an inexact result has all its digits
  let (m, x) := roundTo precision m x
  let (m, x) := if m = 1 then (10 ^ (precision - 1), x - (precision - 1)) else (m, x)
  finish false m x

/-! ## The power -/

/-- One, written with some zeros after the point. -/
def oneWithZeros (negative : Bool) (zeros : Int) : Decimal :=
  let n := (min (max zeros 0) (precision - 1)).toNat
  .finite negative (10 ^ n) (-n)

/-- Could the result still be within the exponents of the context? -/
def outOfRange? (s : Bool) (c : Nat) (e : Int) (negative : Bool) (d : Nat) (k : Int) : Option Result :=
  let size := adjusted c e
  if adjusted d k ≤ 12 then none
  else
    let grows := (size ≥ 0 && !(c = 10 ^ (digitCount c - 1) && size = 0)) != negative
    some (if grows then .error .overflow else .ok (.finite s 0 tinyExponent))

def powFinite (s : Bool) (c : Nat) (e : Int) (negative : Bool) (d : Nat) (k : Int) : Result :=
  let parity := parity? d k
  let sign := s && parity = some true
  if s && parity.isNone then .error .invalidOperation
  else if c = 0 then if negative then .ok (.infinite sign) else .ok (.finite sign 0 0)
  else if compareFinite false c e false 1 0 = .eq then
    match parity with
    | some _ =>
      if negative then .ok (.finite sign 1 0)
      else .ok (oneWithZeros sign (-e * (rescale d k 0 : Nat)))
    | none => .ok (oneWithZeros false (precision - 1))
  else
    match outOfRange? sign c e negative d k with
    | some r => r
    | none =>
      match parity with
      | none => powReal c e negative d k
      | some _ =>
        let n := rescale d k 0
        let digits := precision + (digitCount d + k).toNat + 2
        if negative then
          let digits := digits + 1
          let base := quotient digits 1 0 c e
          let (m, x) := powNat digits (roundTo digits base.1 base.2) n
          finish sign m x
        else
          let (m, x) := powNat digits (c, e) n
          finish sign m x

def pow (x y : Decimal) : Result :=
  match propagate? x y with
  | some r => r
  | none =>
    match x, y with
    | .finite s c e, .finite t d k =>
      if d = 0 then if c = 0 then .error .invalidOperation else .ok (.finite false 1 0)
      else powFinite s c e t d k
    | .finite s c e, .infinite t =>
      if c = 0 then if t then .ok (.infinite false) else .ok (.finite false 0 0)
      else if s then .error .invalidOperation
      else
        match compareFinite false c e false 1 0 with
        | .eq => .ok (oneWithZeros false (precision - 1))
        | order =>
          if (order = .gt) != t then .ok (.infinite false) else .ok (.finite false 0 0)
    | .infinite s, .infinite t =>
      if s then .error .invalidOperation
      else if t then .ok (.finite false 0 0) else .ok (.infinite false)
    | .infinite s, .finite t d k =>
      let parity := parity? d k
      if d = 0 then .ok (.finite false 1 0)
      else if s && parity.isNone then .error .invalidOperation
      else
        let sign := s && parity = some true
        if t then .ok (.finite sign 0 0) else .ok (.infinite sign)
    | _, _ => .error .invalidOperation

end ExprTree.Decimal
