import ExprTree.Fault
import ExprTree.Number.DecimalPower
import ExprTree.Number.DecimalText
import ExprTree.Value

/-!
# Numbers among values

Integers, integers and floats of fixed width, and decimals mix in comparisons
and in the operators of the host. Two numbers meet in a common form: unbounded
integers adapt to a fixed width, fixed widths grow until they hold both
sides, and decimals meet integers only.
-/

namespace ExprTree

inductive Number where
  | int (n : Int)
  | fixed (t : IntType) (n : Int)
  | float (kind : FloatKind) (x : Binary)
  | decimal (d : Decimal)
deriving Repr

/-- A truth value is the number 0 or 1. -/
def Value.number? : Value → Option Number
  | .bool b | .flag b => some (.int b.toNat)
  | .int n => some (.int n)
  | .fixed t n => some (.fixed t n)
  | .float k x => some (.float k x)
  | .decimal d => some (.decimal d)
  | _ => Option.none

namespace Number

def toValue : Number → Value
  | .int n => .int n
  | .fixed t n => .fixed t n
  | .float k x => .float k x
  | .decimal d => .decimal d

/-! ## Common forms -/

/-- The smallest type that holds the values of both; the widest unsigned type and a signed
one have none. -/
def widen (s t : IntType) : Option IntType :=
  if s.signed = t.signed then some (if s.bits ≥ t.bits then s else t)
  else
    let (signed, unsigned) := if s.signed then (s, t) else (t, s)
    if signed.bits > unsigned.bits then some signed
    else
      match unsigned.width with
      | .w8 => some ⟨true, .w16⟩
      | .w16 => some ⟨true, .w32⟩
      | .w32 => some ⟨true, .w64⟩
      | .w64 => none

/-- The float that holds the values of a fixed-width integer as well as possible. -/
def floatFor (t : IntType) : FloatKind :=
  match t.width with
  | .w8 => .half
  | .w16 => .single
  | _ => .double

/-- The wider of two kinds; the general one adapts to a fixed width. -/
def widerFloat : FloatKind → FloatKind → FloatKind
  | .general, k => k
  | k, .general => k
  | .double, _ | _, .double => .double
  | .single, _ | _, .single => .single
  | .half, .half => .half

/-- Two numbers in a common form. -/
inductive Pair where
  | ints (a b : Int)
  | fixed (t : IntType) (a b : Int)
  | floats (kind : FloatKind) (a b : Binary)
  | decimals (a b : Decimal)
  /-- A decimal and a float. -/
  | mixed
  /-- An integer outside the fixed width or the floats it should adapt to. -/
  | outside

/-- An unbounded integer becomes a float by way of the double format, if that holds it. -/
def floatOfInt? (k : FloatKind) (n : Int) : Option Binary :=
  match Format.double.ofInt n with
  | .infinite _ => none
  | x => some (k.format.convert x)

def pair : Number → Number → Pair
  | .int a, .int b => .ints a b
  | .int a, .fixed t b => if t.Holds a then .fixed t a b else .outside
  | .fixed t a, .int b => if t.Holds b then .fixed t a b else .outside
  | .fixed s a, .fixed t b =>
    match widen s t with
    | some u => .fixed u a b
    | none => .floats .double (Format.double.ofInt a) (Format.double.ofInt b)
  | .decimal a, .decimal b => .decimals a b
  | .decimal a, .int b | .decimal a, .fixed _ b => .decimals a (.ofInt b)
  | .int a, .decimal b | .fixed _ a, .decimal b => .decimals (.ofInt a) b
  | .decimal _, .float .. | .float .., .decimal _ => .mixed
  | .float k a, .float j b =>
    let c := widerFloat k j
    .floats c (c.format.convert a) (c.format.convert b)
  | .float k a, .int b => (floatOfInt? k b).elim .outside (.floats k a ·)
  | .int a, .float k b => (floatOfInt? k a).elim .outside (.floats k · b)
  | .float k a, .fixed t b =>
    let c := if k = .general then .double else widerFloat k (floatFor t)
    .floats c (c.format.convert a) (c.format.ofInt b)
  | .fixed t a, .float k b =>
    let c := if k = .general then .double else widerFloat k (floatFor t)
    .floats c (c.format.ofInt a) (c.format.convert b)

/-! ## Comparison -/

/-- The exact value. -/
def exact : Number → Decimal
  | .int n | .fixed _ n => .ofInt n
  | .float _ x => .ofBinary x
  | .decimal d => d

/-- How two numbers compare, when they do. Integers compare as integers, a decimal or a general
float compares exactly with general numbers, and all others in their common form, or exactly
where there is none. -/
def compare (a b : Number) : Option Ordering :=
  match a, b with
  | .int m, .int n | .int m, .fixed _ n | .fixed _ m, .int n | .fixed _ m, .fixed _ n =>
    some (Ord.compare m n)
  | .int _, .float .general _ | .float .general _, .int _ => a.exact.compare b.exact
  | .decimal _, _ | _, .decimal _ => a.exact.compare b.exact
  | _, _ =>
    match pair a b with
    | .floats _ x y => x.compare y
    | _ => a.exact.compare b.exact

/-- A decimal that refuses every use. -/
def isSignaling : Number → Bool
  | .decimal (.nan _ q _) => q
  | _ => false

def isNan : Number → Bool
  | .float _ .nan | .decimal (.nan ..) => true
  | _ => false

def isDecimal : Number → Bool
  | .decimal _ => true
  | _ => false

/-- Are the numbers equal? A signaling decimal refuses the question. -/
def equal (a b : Number) : Except Fault Bool :=
  if a.isSignaling || b.isSignaling then .error (.host (.decimal .invalidOperation))
  else .ok (a.compare b = some .eq)

/-- How the numbers are ordered; a decimal refuses the question when either is not a number. -/
def order (a b : Number) : Except Fault (Option Ordering) :=
  if (a.isDecimal || b.isDecimal) && (a.isNan || b.isNan) then .error (.host (.decimal .invalidOperation))
  else .ok (a.compare b)

/-- Do the numbers have the same exact value? -/
def sameValue (a b : Number) : Bool :=
  a.exact.compare b.exact = some .eq

/-! ## Arithmetic of the host -/

abbrev Result := Except Fault Number

def liftDecimal (r : Decimal.Result) : Result :=
  match r with
  | .ok d => .ok (.decimal d)
  | .error f => .error (.host (.decimal f))

/-- An operation given for each common form. -/
def combine (onInts : Int → Int → Int) (onFloats : Format → Binary → Binary → Binary)
    (onDecimals : Decimal → Decimal → Decimal.Result) (a b : Number) : Result :=
  match pair a b with
  | .ints m n => .ok (.int (onInts m n))
  | .fixed t m n => .ok (.fixed t (t.wrap (onInts m n)))
  | .floats k x y => .ok (.float k (onFloats k.format x y))
  | .decimals x y => liftDecimal (onDecimals x y)
  | .mixed => .error (.host .type)
  | .outside => .error (.host .overflow)

def add : Number → Number → Result := combine (· + ·) Binary.add Decimal.add

def sub : Number → Number → Result := combine (· - ·) Binary.sub Decimal.sub

def mul : Number → Number → Result := combine (· * ·) Binary.mul Decimal.mul

/-- The quotient of integers as a float, rounded once. -/
def quotient (m n : Int) : Result :=
  if n = 0 then .error (.host .zeroDivision)
  else
    match Format.double.round ((m < 0) != (n < 0)) m.natAbs n.natAbs with
    | .infinite _ => .error (.host .overflow)
    | x => .ok (.float .general (if m = 0 then .finite false 0 Format.double.minExponent else x))

def div (a b : Number) : Result :=
  match pair a b with
  | .ints m n => quotient m n
  | .fixed _ m n => .ok (.float .double (Binary.div .double (Format.double.ofInt m) (Format.double.ofInt n)))
  | .floats k x y =>
    if k = .general && y.isZero then .error (.host .zeroDivision) else .ok (.float k (Binary.div k.format x y))
  | .decimals x y => liftDecimal (Decimal.div x y)
  | .mixed => .error (.host .type)
  | .outside => .error (.host .overflow)

/-- The remainder with the sign of the divisor. -/
def floorRem (f : Format) (x y : Binary) : Binary :=
  let r := Binary.rem f x y
  let opposite := match r, y with
    | .finite s m _, .finite t _ _ => m ≠ 0 && s != t
    | .finite s m _, .infinite t => m ≠ 0 && s != t
    | _, _ => false
  if opposite then Binary.add f r y else r

def mod (a b : Number) : Result :=
  match pair a b with
  | .ints m n => if n = 0 then .error (.host .zeroDivision) else .ok (.int (Int.fmod m n))
  | .fixed t m n => .ok (.fixed t (if n = 0 then 0 else Int.fmod m n))
  | .floats k x y =>
    if k = .general && y.isZero then .error (.host .zeroDivision) else .ok (.float k (floorRem k.format x y))
  | .decimals x y => liftDecimal (Decimal.rem x y)
  | .mixed => .error (.host .type)
  | .outside => .error (.host .overflow)

/-- The quotient of floats toward the floor. -/
def floorQuotient (f : Format) (x y : Binary) : Binary :=
  match x, y with
  | .finite s _ _, .finite t _ _ =>
    if y.isZero then Binary.div f x y
    else
      let (a, b) := x.toQuotient
      let (c, d) := y.toQuotient
      let q := Int.fdiv (a * d) (b * c)
      if q = 0 then .finite (s != t) 0 f.minExponent else f.ofInt q
  | .finite s m _, .infinite t =>
    if m = 0 || s = t then .finite (s != t) 0 f.minExponent else (Binary.one).neg
  | _, _ => .nan

/-- The quotient of integers and floats toward the floor, of decimals toward zero. -/
def floorDiv (a b : Number) : Result :=
  match pair a b with
  | .ints m n => if n = 0 then .error (.host .zeroDivision) else .ok (.int (Int.fdiv m n))
  | .fixed t m n => .ok (.fixed t (if n = 0 then 0 else t.wrap (Int.fdiv m n)))
  | .floats k x y =>
    if k = .general && y.isZero then .error (.host .zeroDivision) else .ok (.float k (floorQuotient k.format x y))
  | .decimals x y => liftDecimal (Decimal.quo x y)
  | .mixed => .error (.host .type)
  | .outside => .error (.host .overflow)

/-- A power of general floats, where neither a pole nor an overflow has a value. -/
def floatPower (x y : Binary) : Result :=
  match x, y with
  | .finite _ 0 _, .finite true (_ + 1) _ => .error (.host .zeroDivision)
  | _, _ =>
    match Binary.pow .double x y with
    | .infinite s => if x.isFinite && y.isFinite then .error (.host .overflow) else .ok (.float .general (.infinite s))
    | z => .ok (.float .general z)

def pow (a b : Number) : Result :=
  match pair a b with
  | .ints m n =>
    if n ≥ 0 then .ok (.int (Integer.pow m n.toNat))
    else
      match Format.double.ofInt m, Format.double.ofInt n with
      | .infinite _, _ | _, .infinite _ => .error (.host .overflow)
      | x, y => floatPower x y
  | .fixed t m n => if n < 0 then .error (.host .value) else .ok (.fixed t (t.wrap (Integer.pow m n.toNat)))
  | .floats k x y =>
    if k = .general then floatPower x y else .ok (.float k (Binary.pow k.format x y))
  | .decimals x y => liftDecimal (Decimal.pow x y)
  | .mixed => .error (.host .type)
  | .outside => .error (.host .overflow)

/-- Integers in a common width, for operations on bits. -/
def onBits (f : Int → Int → Except Fault Int) (a b : Number) : Result :=
  match pair a b with
  | .ints m n => return .int (← f m n)
  | .fixed t m n => return .fixed t (t.wrap (← f m n))
  | .outside => .error (.host .overflow)
  | _ => .error (.host .type)

/-- The largest count by which an unbounded integer is shifted left. -/
def shiftLimit : Int := 2 ^ 40

def shiftLeft (a b : Number) : Result :=
  match pair a b with
  | .ints m n =>
    if n < 0 then .error (.host .value)
    else if m ≠ 0 && n > shiftLimit then .error (.host .overflow)
    else .ok (.int (if m = 0 then 0 else Integer.shiftLeft m n.toNat))
  | .fixed t m n => .ok (.fixed t (if 0 ≤ n && n < t.bits then t.wrap (Integer.shiftLeft m n.toNat) else 0))
  | .outside => .error (.host .overflow)
  | _ => .error (.host .type)

def shiftRight (a b : Number) : Result :=
  match pair a b with
  | .ints m n =>
    if n < 0 then .error (.host .value)
    else .ok (.int (if n.toNat > m.natAbs.log2 + 1 then (if m < 0 then -1 else 0) else Integer.shiftRight m n.toNat))
  | .fixed t m n =>
    .ok (.fixed t (if 0 ≤ n && n < t.bits then Integer.shiftRight m n.toNat else if m < 0 then -1 else 0))
  | .outside => .error (.host .overflow)
  | _ => .error (.host .type)

def neg : Number → Result
  | .int n => .ok (.int (-n))
  | .fixed t n => .ok (.fixed t (t.wrap (-n)))
  | .float k x => .ok (.float k x.neg)
  | .decimal d => liftDecimal d.neg

def complement : Number → Result
  | .int n => .ok (.int (Integer.complement n))
  | .fixed t n => .ok (.fixed t (t.wrap (Integer.complement n)))
  | _ => .error (.host .type)

end Number

end ExprTree
