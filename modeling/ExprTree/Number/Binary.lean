import ExprTree.Number.Integer

/-!
# Binary floating point

Binary floating-point numbers as a sign, a mantissa and an exponent, and
their arithmetic in exact natural numbers: each operation computes its exact
result as a quotient and rounds it once, to nearest with ties to even
(`Format.round`). Nothing ever fails: overflow gives an infinity and an
undefined result is not a number.
-/

namespace ExprTree

/-- A format: digits of the mantissa and the range of the last digit's exponent. -/
structure Format where
  precision : Nat
  minExponent : Int
  maxExponent : Int
deriving DecidableEq, Repr

namespace Format

def half : Format := ⟨11, -24, 5⟩
def single : Format := ⟨24, -149, 104⟩
def double : Format := ⟨53, -1074, 971⟩

end Format

/-- A finite number is `± mantissa * 2 ^ exponent`; both zeros have mantissa `0`. -/
inductive Binary where
  | nan
  | infinite (negative : Bool)
  | finite (negative : Bool) (mantissa : Nat) (exponent : Int)
deriving DecidableEq, Repr

/-- `num * 2 ^ e / den` as a quotient of natural numbers. -/
def scaled (num den : Nat) (e : Int) : Nat × Nat :=
  if e ≥ 0 then (num * 2 ^ e.toNat, den) else (num, den * 2 ^ (-e).toNat)

/-- The natural number nearest to `num / den`, a tie going to the even one. -/
def roundDiv (num den : Nat) : Nat :=
  let q := num / den
  let r := num % den
  if 2 * r > den || (2 * r == den && q % 2 == 1) then q + 1 else q

namespace Format

/-- The greatest `k` with `2 ^ k ≤ num / den`, for positive `num` and `den`. -/
def floorLog (num den : Nat) : Int :=
  let k : Int := (num.log2 : Int) - (den.log2 : Int)
  let (n, d) := scaled num den (-k)
  if d ≤ n then k else k - 1

/-- The number of the format nearest to `± num / den`. -/
def round (f : Format) (negative : Bool) (num den : Nat) : Binary :=
  if num = 0 then .finite negative 0 f.minExponent
  else
    let e := max (floorLog num den - (f.precision - 1)) f.minExponent
    let (n, d) := scaled num den (-e)
    let q := roundDiv n d
    let (q, e) := if q = 2 ^ f.precision then (2 ^ (f.precision - 1), e + 1) else (q, e)
    if e > f.maxExponent then .infinite negative else .finite negative q e

/-- `n * 2 ^ e` in the format, where a zero takes the given sign. -/
def ofScaled (f : Format) (zeroSign : Bool) (n e : Int) : Binary :=
  if n = 0 then .finite zeroSign 0 f.minExponent
  else
    let (num, den) := scaled n.natAbs 1 e
    f.round (n < 0) num den

def ofInt (f : Format) (n : Int) : Binary :=
  f.ofScaled false n 0

/-- The same number in another format. -/
def convert (f : Format) : Binary → Binary
  | .nan => .nan
  | .infinite s => .infinite s
  | .finite s m e =>
    let (num, den) := scaled m 1 e
    f.round s num den

end Format

namespace Binary

def one : Binary := .finite false 1 0

def isFinite : Binary → Bool
  | .finite .. => true
  | _ => false

def isNan : Binary → Bool
  | .nan => true
  | _ => false

def isZero : Binary → Bool
  | .finite _ 0 _ => true
  | _ => false

def neg : Binary → Binary
  | .nan => .nan
  | .infinite s => .infinite !s
  | .finite s m e => .finite (!s) m e

def signed (negative : Bool) (m : Nat) : Int :=
  if negative then -m else m

/-- The exact value of a finite number as a quotient with a positive divisor. -/
def toQuotient : Binary → Int × Nat
  | .finite s m e =>
    let (n, d) := scaled m 1 e
    (signed s n, d)
  | _ => (0, 1)

/-- The integer part, toward zero. -/
def trunc (x : Binary) : Int :=
  let (n, d) := x.toQuotient
  n.tdiv d

def add (f : Format) : Binary → Binary → Binary
  | .nan, _ | _, .nan => .nan
  | .infinite s, .infinite t => if s = t then .infinite s else .nan
  | .infinite s, _ | _, .infinite s => .infinite s
  | .finite s m e, .finite t n k =>
    let l := min e k
    let sum := signed s m * 2 ^ (e - l).toNat + signed t n * 2 ^ (k - l).toNat
    f.ofScaled (s && t && m == 0 && n == 0) sum l

def sub (f : Format) (x y : Binary) : Binary :=
  add f x y.neg

def mul (f : Format) : Binary → Binary → Binary
  | .nan, _ | _, .nan => .nan
  | .infinite s, .infinite t => .infinite (s != t)
  | .infinite s, .finite t m _ | .finite s m _, .infinite t =>
    if m = 0 then .nan else .infinite (s != t)
  | .finite s m e, .finite t n k =>
    let (num, den) := scaled (m * n) 1 (e + k)
    f.round (s != t) num den

def div (f : Format) : Binary → Binary → Binary
  | .nan, _ | _, .nan => .nan
  | .infinite _, .infinite _ => .nan
  | .infinite s, .finite t _ _ => .infinite (s != t)
  | .finite s _ _, .infinite t => .finite (s != t) 0 f.minExponent
  | .finite s m e, .finite t n k =>
    if n = 0 then if m = 0 then .nan else .infinite (s != t)
    else
      let (num, den) := scaled m n (e - k)
      f.round (s != t) num den

/-- The remainder of the division that truncates; it has the sign of the dividend. -/
def rem (f : Format) : Binary → Binary → Binary
  | .nan, _ | _, .nan | .infinite _, _ => .nan
  | .finite s m e, .infinite _ => f.convert (.finite s m e)
  | .finite s m e, .finite _ n k =>
    if n = 0 then .nan
    else
      let l := min e k
      let r := (m * 2 ^ (e - l).toNat) % (n * 2 ^ (k - l).toNat)
      f.ofScaled s (signed s r) l

/-- How two numbers compare; what is not a number compares with nothing. -/
def compare : Binary → Binary → Option Ordering
  | .nan, _ | _, .nan => none
  | .infinite s, .infinite t => some (Ord.compare (!s).toNat (!t).toNat)
  | .infinite s, _ => some (if s then .lt else .gt)
  | _, .infinite s => some (if s then .gt else .lt)
  | .finite s m e, .finite t n k =>
    let l := min e k
    some (Ord.compare (signed s m * 2 ^ (e - l).toNat) (signed t n * 2 ^ (k - l).toNat))

/-! ## Powers -/

/-- The encoding in 64 bits of a number of the double format. -/
def toBits64 : Binary → UInt64
  | .nan => 0x7FF8000000000000
  | .infinite s => (if s then 0x8000000000000000 else 0) + 0x7FF0000000000000
  | .finite s m e =>
    let exponent := if m < 2 ^ 52 then 0 else (e + 1075).toNat
    (if s then 0x8000000000000000 else 0) + (exponent * 2 ^ 52 + m % 2 ^ 52).toUInt64

def ofBits64 (b : UInt64) : Binary :=
  let n := b.toNat
  let s := n / 2 ^ 63 == 1
  let exponent : Nat := n / 2 ^ 52 % 2 ^ 11
  let m := n % 2 ^ 52
  if exponent = 2047 then if m = 0 then .infinite s else .nan
  else if exponent = 0 then .finite s m (-1074)
  else .finite s (m + 2 ^ 52) ((exponent : Int) - 1075)

/-- The encoding in 32 bits of a number of the single format. -/
def toBits32 : Binary → UInt32
  | .nan => 0x7FC00000
  | .infinite s => (if s then 0x80000000 else 0) + 0x7F800000
  | .finite s m e =>
    let exponent := if m < 2 ^ 23 then 0 else (e + 150).toNat
    (if s then 0x80000000 else 0) + (exponent * 2 ^ 23 + m % 2 ^ 23).toUInt32

def ofBits32 (b : UInt32) : Binary :=
  let n := b.toNat
  let s := n / 2 ^ 31 == 1
  let exponent : Nat := n / 2 ^ 23 % 2 ^ 8
  let m := n % 2 ^ 23
  if exponent = 255 then if m = 0 then .infinite s else .nan
  else if exponent = 0 then .finite s m (-149)
  else .finite s (m + 2 ^ 23) ((exponent : Int) - 150)

/-- The power, computed in the machine's double or single arithmetic. -/
def pow (f : Format) (x y : Binary) : Binary :=
  if f = .double then
    ofBits64 (Float.pow (.ofBits x.toBits64) (.ofBits y.toBits64)).toBits
  else
    let x := Format.single.convert x
    let y := Format.single.convert y
    f.convert (ofBits32 (Float32.pow (.ofBits x.toBits32) (.ofBits y.toBits32)).toBits)

end Binary

end ExprTree
