import ExprTree.Number.FloatText

/-!
# Decimal floating point

Decimal numbers keep their digits as written: `1.50` is the coefficient `150`
with exponent `-2`. Arithmetic rounds to 28 digits, a tie going to the even
digit, and signals three conditions: an invalid operation, a division by zero
and an overflow of the exponent. Comparison is exact.
-/

namespace ExprTree

inductive Decimal where
  | finite (negative : Bool) (coefficient : Nat) (exponent : Int)
  | infinite (negative : Bool)
  | nan (negative signaling : Bool) (payload : Nat)
deriving DecidableEq, Repr

inductive DecimalFault where
  | invalidOperation
  | divisionByZero
  | overflow
deriving DecidableEq, Repr

namespace Decimal

/-! ## The arithmetic context -/

def precision : Nat := 28

def maxExponent : Int := 999999

def minExponent : Int := -999999

/-- The exponent of the least digit of a subnormal result. -/
def tinyExponent : Int := minExponent - (precision - 1)

abbrev Result := Except DecimalFault Decimal

def zero : Decimal := .finite false 0 0

def ofInt (n : Int) : Decimal :=
  .finite (n < 0) n.natAbs 0

/-- The exponent of the leading digit. -/
def adjusted (coefficient : Nat) (exponent : Int) : Int :=
  digitCount coefficient + exponent - 1

/-- `coefficient * 10 ^ exponent` on the grid of `10 ^ target`, rounded if digits are lost. -/
def rescale (coefficient : Nat) (exponent target : Int) : Nat :=
  if exponent ≥ target then coefficient * 10 ^ (exponent - target).toNat
  else if target - exponent > digitCount coefficient + 1 then 0
  else roundDiv coefficient (10 ^ (target - exponent).toNat)

/-- Rounds to `digits` digits, without a bound on the exponent. -/
def roundTo (digits : Nat) (coefficient : Nat) (exponent : Int) : Nat × Int :=
  let excess := digitCount coefficient - digits
  if excess = 0 then (coefficient, exponent)
  else
    let c := roundDiv coefficient (10 ^ excess)
    if digitCount c > digits then (c / 10, exponent + excess + 1) else (c, exponent + excess)

/-- Fits an exact result into the context. -/
def finish (negative : Bool) (coefficient : Nat) (exponent : Int) : Result :=
  if coefficient = 0 then
    .ok (.finite negative 0 (min (max exponent tinyExponent) maxExponent))
  else
    let least := max (digitCount coefficient + exponent - precision) tinyExponent
    let (c, e) :=
      if exponent < least then
        let c := rescale coefficient exponent least
        if digitCount c > precision then (c / 10, least + 1) else (c, least)
      else (coefficient, exponent)
    if c ≠ 0 && adjusted c e > maxExponent then .error .overflow else .ok (.finite negative c e)

/-- The operand that decides the result when one is not a number; a signaling one is refused. -/
def propagate? : Decimal → Decimal → Option Result
  | .nan _ true _, _ | _, .nan _ true _ => some (.error .invalidOperation)
  | .nan s false p, _ => some (.ok (.nan s false p))
  | _, .nan s false p => some (.ok (.nan s false p))
  | _, _ => none

/-! ## Arithmetic -/

def neg : Decimal → Result
  | .nan _ true _ => .error .invalidOperation
  | .nan s false p => .ok (.nan s false p)
  | .infinite s => .ok (.infinite !s)
  | .finite s c e => if c = 0 then finish false 0 e else finish (!s) c e

/-- Brings two non-zero numbers to one exponent. A number too small to touch the last
digit of the sum is replaced by a unit below it. -/
def align (c : Nat) (e : Int) (d : Nat) (k : Int) : Nat × Nat × Int :=
  let lower (big : Nat) (bigExp : Int) (small : Nat) (smallExp : Int) : Nat × Nat × Int :=
    let floor := bigExp + min (-1) ((digitCount big : Int) - precision - 2)
    let (small, smallExp) := if digitCount small + smallExp - 1 < floor then (1, floor) else (small, smallExp)
    (big * 10 ^ (bigExp - smallExp).toNat, small, smallExp)
  if e < k then
    let (b, s, x) := lower d k c e
    (s, b, x)
  else
    let (b, s, x) := lower c e d k
    (b, s, x)

def addFinite (s : Bool) (c : Nat) (e : Int) (t : Bool) (d : Nat) (k : Int) : Result :=
  let low := min e k
  if c = 0 && d = 0 then finish (s && t) 0 low
  else if c = 0 then
    let x := max low (k - precision - 1)
    finish t (rescale d k x) x
  else if d = 0 then
    let x := max low (e - precision - 1)
    finish s (rescale c e x) x
  else
    let (a, b, x) := align c e d k
    let sum := Binary.signed s a + Binary.signed t b
    finish (sum < 0) sum.natAbs x

def add (x y : Decimal) : Result :=
  match propagate? x y with
  | some r => r
  | none =>
    match x, y with
    | .infinite s, .infinite t => if s = t then .ok (.infinite s) else .error .invalidOperation
    | .infinite s, _ | _, .infinite s => .ok (.infinite s)
    | .finite s c e, .finite t d k => addFinite s c e t d k
    | _, _ => .error .invalidOperation

/-- The sign turned, without rounding. -/
def flip : Decimal → Decimal
  | .finite s c e => .finite (!s) c e
  | .infinite s => .infinite !s
  | .nan s q p => .nan s q p

def sub (x y : Decimal) : Result :=
  add x y.flip

def mul (x y : Decimal) : Result :=
  match propagate? x y with
  | some r => r
  | none =>
    match x, y with
    | .infinite s, .infinite t => .ok (.infinite (s != t))
    | .infinite s, .finite t c _ | .finite s c _, .infinite t =>
      if c = 0 then .error .invalidOperation else .ok (.infinite (s != t))
    | .finite s c e, .finite t d k => finish (s != t) (c * d) (e + k)
    | _, _ => .error .invalidOperation

/-- Removes trailing zeros while the exponent is below `ideal`. -/
def trimTo (ideal : Int) : Nat → Nat → Int → Nat × Int
  | 0, c, e => (c, e)
  | n + 1, c, e => if e < ideal && c % 10 = 0 then trimTo ideal n (c / 10) (e + 1) else (c, e)

/-- A quotient of non-zero numbers with `digits` digits and one more, which is odd in its
last place when the division leaves a remainder. -/
def quotient (digits : Nat) (c : Nat) (e : Int) (d : Nat) (k : Int) : Nat × Int :=
  let shift : Int := (digitCount d : Int) - digitCount c + digits + 1
  let exponent := e - k - shift
  let (num, den) := if shift ≥ 0 then (c * 10 ^ shift.toNat, d) else (c, d * 10 ^ (-shift).toNat)
  let q := num / den
  if num % den ≠ 0 then (if q % 5 = 0 then q + 1 else q, exponent)
  else trimTo (e - k) (digitCount q) q exponent

def div (x y : Decimal) : Result :=
  match propagate? x y with
  | some r => r
  | none =>
    match x, y with
    | .infinite _, .infinite _ => .error .invalidOperation
    | .infinite s, .finite t _ _ => .ok (.infinite (s != t))
    | .finite s _ _, .infinite t => .ok (.finite (s != t) 0 tinyExponent)
    | .finite s c e, .finite t d k =>
      if d = 0 then if c = 0 then .error .invalidOperation else .error .divisionByZero
      else if c = 0 then finish (s != t) 0 (e - k)
      else
        let (q, x) := quotient precision c e d k
        finish (s != t) q x
    | _, _ => .error .invalidOperation

/-- The integer quotient toward zero, which has to fit the precision. -/
def quo (x y : Decimal) : Result :=
  match propagate? x y with
  | some r => r
  | none =>
    match x, y with
    | .infinite _, .infinite _ => .error .invalidOperation
    | .infinite s, .finite t _ _ => .ok (.infinite (s != t))
    | .finite s _ _, .infinite t => .ok (.finite (s != t) 0 0)
    | .finite s c e, .finite t d k =>
      let low := min e k
      let gap := adjusted c e - adjusted d k
      if d = 0 then if c = 0 then .error .invalidOperation else .error .divisionByZero
      else if c = 0 || gap ≤ -2 then .ok (.finite (s != t) 0 0)
      else if gap > precision then .error .invalidOperation
      else
        let q := c * 10 ^ (e - low).toNat / (d * 10 ^ (k - low).toNat)
        if q ≥ 10 ^ precision then .error .invalidOperation else .ok (.finite (s != t) q 0)
    | _, _ => .error .invalidOperation

/-- The remainder of the division that truncates; it has the sign of the dividend. The
quotient has to fit the precision. -/
def rem (x y : Decimal) : Result :=
  match propagate? x y with
  | some r => r
  | none =>
    match x, y with
    | .finite s c e, .infinite _ => finish s c e
    | .finite s c e, .finite _ d k =>
      let low := min e k
      let gap := adjusted c e - adjusted d k
      if d = 0 then .error .invalidOperation
      else if c = 0 || gap ≤ -2 then
        finish s (rescale c e (max low (e - precision - 1))) (max low (e - precision - 1))
      else if gap > precision then .error .invalidOperation
      else
        let a := c * 10 ^ (e - low).toNat
        let b := d * 10 ^ (k - low).toNat
        if a / b ≥ 10 ^ precision then .error .invalidOperation else finish s (a % b) low
    | _, _ => .error .invalidOperation

/-! ## Comparison -/

/-- Signed comparison of two finite numbers. -/
def compareFinite (s : Bool) (c : Nat) (e : Int) (t : Bool) (d : Nat) (k : Int) : Ordering :=
  if c = 0 && d = 0 then .eq
  else if c = 0 then if t then .gt else .lt
  else if d = 0 then if s then .lt else .gt
  else if s ≠ t then if s then .lt else .gt
  else
    let size :=
      if adjusted c e ≠ adjusted d k then Ord.compare (adjusted c e) (adjusted d k)
      else
        let low := min e k
        Ord.compare (c * 10 ^ (e - low).toNat) (d * 10 ^ (k - low).toNat)
    if s then size.swap else size

/-- How two numbers compare; what is not a number compares with nothing. -/
def compare : Decimal → Decimal → Option Ordering
  | .nan .., _ | _, .nan .. => none
  | .infinite s, .infinite t => some (Ord.compare (!s).toNat (!t).toNat)
  | .infinite s, _ => some (if s then .lt else .gt)
  | _, .infinite s => some (if s then .gt else .lt)
  | .finite s c e, .finite t d k => some (compareFinite s c e t d k)

/-- The exact value of a binary number. -/
def ofBinary : Binary → Decimal
  | .nan => .nan false false 0
  | .infinite s => .infinite s
  | .finite s m e => if e ≥ 0 then .finite s (m * 2 ^ e.toNat) 0 else .finite s (m * 5 ^ (-e).toNat) e

/-- The integer part of a finite number, toward zero. -/
def trunc : Decimal → Int
  | .finite s c e =>
    if e ≥ 0 then Binary.signed s (c * 10 ^ e.toNat)
    else if (-e).toNat > digitCount c then 0
    else Binary.signed s (c / 10 ^ (-e).toNat)
  | _ => 0

/-- Is the number an integer, and if so, is it odd? -/
def parity? (c : Nat) (e : Int) : Option Bool :=
  if c = 0 then some false
  else if e > 0 then some false
  else if (-e).toNat > digitCount c then none
  else
    let unit := 10 ^ (-e).toNat
    if c % unit = 0 then some (c / unit % 2 == 1) else none

end Decimal

end ExprTree
