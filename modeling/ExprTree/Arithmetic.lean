import ExprTree.Value.Compare
import ExprTree.Value.Text

/-!
# Arithmetic of a static type

The operators, computed in the type that a node has. Fixed-width integers are
computed without bounds and then narrowed: an unchecked result wraps, a checked
one outside the type is a fault. Integer division truncates toward zero.
Floats never fail. Every other type leaves the operator to the values
themselves.
-/

namespace ExprTree.Arithmetic

/-- Fits an integer into a fixed width. -/
def narrow (t : IntType) (checked : Bool) (n : Int) : Except Fault Value :=
  if t.Holds n then .ok (.fixed t n)
  else if checked then .error (.outOfRange t)
  else .ok (.fixed t (t.wrap n))

/-! ## Reading operands -/

/-- An operand as an integer, the way integers are made from values: numbers lose their
fraction and texts are read. -/
def integer (v : Value) : Except Fault Int :=
  match v with
  | .bool b | .flag b => .ok b.toNat
  | .int n | .fixed _ n => .ok n
  | .float _ x =>
    match x with
    | .nan => .error (.host .value)
    | .infinite _ => .error (.host .overflow)
    | x => .ok x.trunc
  | .decimal d =>
    match d with
    | .nan .. => .error (.host .value)
    | .infinite _ => .error (.host .overflow)
    | d => .ok d.trunc
  | .str s =>
    match readInteger? s with
    | some n => .ok n
    | none => .error (.host .value)
  | .char c =>
    match readInteger? (String.singleton c) with
    | some n => .ok n
    | none => .error (.host .value)
  | _ => .error (.host .type)

/-- The double nearest to an integer, if there is one. -/
def doubleOfInt (n : Int) : Except Fault Binary :=
  match Format.double.ofInt n with
  | .infinite _ => .error (.host .overflow)
  | x => .ok x

/-- An operand as a float of a kind. -/
def float (k : FloatKind) (v : Value) : Except Fault Binary := do
  match v with
  | .none => return .nan
  | .bool b | .flag b => return k.format.ofInt b.toNat
  | .int n => return k.format.convert (← doubleOfInt n)
  | .fixed _ n => return k.format.ofInt n
  | .float _ x => return k.format.convert x
  | .decimal d =>
    match d.toBinary? with
    | some x => return k.format.convert x
    | none => throw (.host .value)
  | .str s =>
    match Binary.read? .double s with
    | some x => return k.format.convert x
    | none => throw (.host .value)
  | .char c =>
    match Binary.read? .double (String.singleton c) with
    | some x => return k.format.convert x
    | none => throw (.host .value)
  | _ => throw (.host .type)

/-! ## Operators of the values themselves -/

/-- Applies an operator to two numbers. -/
def onNumbers (f : Number → Number → Number.Result) (v w : Value) : Except Fault Value :=
  match v.number?, w.number? with
  | some m, some n => (f m n).map Number.toValue
  | _, _ => .error (.host .type)

/-- Texts and tuples are joined, numbers added. -/
def addValues (v w : Value) : Except Fault Value :=
  match v.text?, w.text? with
  | some s, some t => .ok (.str (s ++ t))
  | _, _ =>
    match v, w with
    | .tuple vs, .tuple ws => .ok (.tuple (vs ++ ws))
    | .bytes bs, .bytes cs => .ok (.bytes (bs ++ cs))
    | v, w => onNumbers Number.add v w

/-- A count of repetitions; only an integer is one. -/
def count? : Value → Option Nat
  | .bool b | .flag b => some b.toNat
  | .int n | .fixed _ n => some n.toNat
  | _ => none

/-- Some copies of a list, one after the other. -/
def copies {α : Type} (n : Nat) (xs : List α) : List α :=
  (List.replicate n xs).flatten

/-- Texts and tuples are repeated, numbers multiplied. -/
def multiplyValues (v w : Value) : Except Fault Value :=
  match v.text?, count? w, count? v, w.text? with
  | some s, some n, _, _ | _, _, some n, some s => .ok (.str (String.ofList (copies n s.toList)))
  | _, _, _, _ =>
    match v, w with
    | .tuple vs, w =>
      match count? w with
      | some n => .ok (.tuple (copies n vs))
      | none => .error (.host .type)
    | v, .tuple ws =>
      match count? v with
      | some n => .ok (.tuple (copies n ws))
      | none => .error (.host .type)
    | v, w => onNumbers Number.mul v w

def bitwiseValues (k : BitwiseKind) (v w : Value) : Except Fault Value :=
  match v, w with
  | .bool a, .bool b =>
    .ok (.bool (match k with
      | .and => a && b
      | .or => a || b
      | .exclusiveOr => a != b))
  | v, w =>
    let f := match k with
      | .and => Integer.land
      | .or => Integer.lor
      | .exclusiveOr => Integer.xor
    onNumbers (Number.onBits fun m n => .ok (f m n)) v w

def negateValue (v : Value) : Except Fault Value :=
  match v.number? with
  | some n => n.neg.map Number.toValue
  | none => .error (.host .type)

def complementValue (v : Value) : Except Fault Value :=
  match v.number? with
  | some n => n.complement.map Number.toValue
  | none => .error (.host .type)

/-! ## Typed operators -/

/-- An operator given for integers, for floats and for all other values, in a type. -/
def apply (onInts : Int → Int → Int) (onFloats : Format → Binary → Binary → Binary)
    (onValues : Value → Value → Except Fault Value) (t : Ty) (checked : Bool) (v w : Value) :
    Except Fault Value := do
  match t.fixed?, t.floatKind? with
  | some i, _ => narrow i checked (onInts (← integer v) (← integer w))
  | none, some k => return .float k (onFloats k.format (← float k v) (← float k w))
  | none, none => onValues v w

def add (t : Ty) (checked : Bool) (v w : Value) : Except Fault Value :=
  apply (· + ·) Binary.add addValues t checked v w

def subtract (t : Ty) (checked : Bool) (v w : Value) : Except Fault Value :=
  apply (· - ·) Binary.sub (onNumbers Number.sub) t checked v w

def multiply (t : Ty) (checked : Bool) (v w : Value) : Except Fault Value :=
  apply (· * ·) Binary.mul multiplyValues t checked v w

/-- The quotient toward zero. -/
def truncatedQuotient (a b : Int) : Except Fault Int :=
  if b = 0 then .error .divisionByZero else .ok (a.tdiv b)

/-- Division; the least value of a fixed width by minus one is out of range in any mode. -/
def divide (t : Ty) (v w : Value) : Except Fault Value := do
  match t.fixed? with
  | some i => narrow i true (← truncatedQuotient (← integer v) (← integer w))
  | none =>
    if t.isInt then return .int (← truncatedQuotient (← integer v) (← integer w))
    else apply (fun a _ => a) Binary.div (onNumbers Number.div) t false v w

/-- The remainder of the truncating division. -/
def modulo (t : Ty) (v w : Value) : Except Fault Value := do
  if t.isInteger then
    let a ← integer v
    let b ← integer w
    let r := a - b * (← truncatedQuotient a b)
    match t.fixed? with
    | some i => narrow i false r
    | none => return .int r
  else apply (fun a _ => a) Binary.rem (onNumbers Number.mod) t false v w

def power (t : Ty) (v w : Value) : Except Fault Value := do
  match t.fixed? with
  | some i =>
    let n ← integer w
    if n < 0 then throw .negativeExponent
    narrow i false (Integer.pow (← integer v) n.toNat)
  | none => apply (fun a _ => a) Binary.pow (onNumbers Number.pow) t false v w

/-- The count of a shift in a width: its lowest bits. -/
def shiftCount (i : IntType) (n : Int) : Nat :=
  (n % i.bits).toNat

def shift (k : ShiftKind) (t : Ty) (v w : Value) : Except Fault Value := do
  match t.fixed? with
  | some i =>
    let a ← integer v
    let n := shiftCount i (← integer w)
    match k with
    | .left => narrow i false (Integer.shiftLeft a n)
    | .right => narrow i false (Integer.shiftRight a n)
  | none =>
    match k with
    | .left => onNumbers Number.shiftLeft v w
    | .right => onNumbers Number.shiftRight v w

def bitwise (k : BitwiseKind) (t : Ty) (v w : Value) : Except Fault Value := do
  match t.fixed? with
  | some i =>
    let a ← integer v
    let b ← integer w
    match k with
    | .and => narrow i false (Integer.land a b)
    | .or => narrow i false (Integer.lor a b)
    | .exclusiveOr => narrow i false (Integer.xor a b)
  | none => bitwiseValues k v w

def negate (t : Ty) (checked : Bool) (v : Value) : Except Fault Value := do
  match t.fixed?, t.fixedFloat? with
  | some i, _ => narrow i checked (-(← integer v))
  | none, some k => return .float k (← float k v).neg
  | none, none => negateValue v

def onesComplement (t : Ty) (v : Value) : Except Fault Value := do
  match t.fixed? with
  | some i => narrow i false (Integer.complement (← integer v))
  | none => complementValue v

def increment (t : Ty) (v : Value) : Except Fault Value :=
  add t false v (.int 1)

def decrement (t : Ty) (v : Value) : Except Fault Value :=
  subtract t false v (.int 1)

/-- A non-assigning operation in a type. -/
def operate (o : Operation) (t : Ty) (v w : Value) : Except Fault Value :=
  match o with
  | .arithmetic .add => add t false v w
  | .arithmetic .addChecked => add t true v w
  | .arithmetic .subtract => subtract t false v w
  | .arithmetic .subtractChecked => subtract t true v w
  | .arithmetic .multiply => multiply t false v w
  | .arithmetic .multiplyChecked => multiply t true v w
  | .arithmetic .divide => divide t v w
  | .arithmetic .modulo => modulo t v w
  | .arithmetic .power => power t v w
  | .bitwise k => bitwise k t v w
  | .shift k => shift k t v w

/-! ## Conversion -/

/-- A value as a number, where characters stand for their code points. -/
def toNumber (v : Value) : Except Fault Value :=
  match v with
  | .char c => .ok (.int c.toNat)
  | .str s => .error (.textAsNumber s)
  | .bool b | .flag b => .ok (.int b.toNat)
  | .fixed _ n => .ok (.int n)
  | v => .ok v

/-- The integer part of a number. Without one, a checked conversion to `target` is a fault and
an unchecked one gives zero. The narrower floats have no integer part to take. -/
def toInteger (target : String) (checked : Bool) (v : Value) : Except Fault Int := do
  let missing (shown : String) : Except Fault Int :=
    if checked then .error (.notFinite shown target) else .ok 0
  match ← toNumber v with
  | .int n => return n
  | .float k x =>
    if !x.isFinite then missing (k.style.render x)
    else
      match k with
      | .general | .double => return x.trunc
      | _ => throw (.host .type)
  | .decimal d =>
    match d.toBinary? with
    | none => throw (.host .value)
    | some x => if x.isFinite then return d.trunc else missing d.render
  | _ => throw (.host .type)

/-- The character with a code point. -/
def character (n : Int) : Except Fault Value :=
  if n < -(2 ^ 31) || n ≥ 2 ^ 31 then .error (.host .overflow)
  else if n < 0 || n > 0x10FFFF then .error (.host .value)
  else .ok (.char (Char.ofNat n.toNat))

/-- An integer that is no number of fixed width. -/
def plainInteger (v : Value) : Except Fault Int :=
  match v with
  | .bool b => .ok b.toNat
  | .int n => .ok n
  | _ => .error (.host .value)

/-- A plain integer from zero to a limit, which has to fit a machine word before it is compared. -/
def smallInteger (limit : Nat) (v : Value) : Except Fault Nat := do
  let n ← plainInteger v
  if n < -(2 ^ 63) || n ≥ 2 ^ 63 then throw (.host .overflow)
  else if n < 0 || n > limit then throw (.host .value)
  else return n.toNat

/-- A decimal from its sign (0 or 1), its digits and its exponent. In place of the exponent the
letter `F` stands for infinity, `n` and `N` for what is not a number, quiet or signaling. -/
def decimalOfParts (h : Heap) (sign digits exponent : Value) : Except Fault Decimal := do
  let negative := (← smallInteger 1 sign) = 1
  let coefficient : Except Fault Nat := do
    match h.sequence? digits with
    | some ds => return Text.natOfDigits ((← ds.mapM (smallInteger 9)).map Nat.digitChar)
    | none => throw (.host .value)
  match exponent.text? with
  | some "F" =>
    let _ ← coefficient
    return .infinite negative
  | some "n" => return .nan negative false (← coefficient)
  | some "N" => return .nan negative true (← coefficient)
  | some _ => throw (.host .value)
  | none =>
    let e ← plainInteger exponent
    if e < -(2 ^ 63) || e ≥ 2 ^ 63 then throw (.host .overflow)
    let d := Decimal.finite negative (← coefficient) e
    if d.isRepresentable then return d else throw (.host (.decimal .invalidOperation))

/-- The decimal that a value is read as: floats from their text, lists and tuples from the three
parts of a decimal. -/
def toDecimal (h : Heap) (v : Value) : Except Fault Value := do
  match v with
  | .float k x =>
    match Decimal.read? (k.style.render x) with
    | some d => return .decimal d
    | none => throw (.host (.decimal .invalidOperation))
  | v =>
    match ← toNumber v with
    | .int n => return .decimal (.ofInt n)
    | .decimal d => return .decimal d
    | v =>
      match h.sequence? v with
      | some [sign, digits, exponent] => return .decimal (← decimalOfParts h sign digits exponent)
      | some _ => throw (.host .value)
      | none => throw (.host .type)

/-- Is a value an instance of a class? The class of all types cannot be asked about. -/
def isInstance (l : Library) (h : Heap) (v : Value) (c : ClassName) : Except Fault Bool :=
  if c = .anything then .error (.host .type) else .ok (l.isSubclass (h.className v) c)

/-- Converts a value to a type that is no union with the null type. -/
def convertTo (l : Library) (h : Heap) (target : Ty) (checked : Bool) (v : Value) :
    Except Fault Value := do
  if v.isNone then
    if target.isObject || target.isNothing then return .none else throw (.noneConverted target)
  match target.fixed?, target.fixedFloat? with
  | some i, _ => narrow i checked (← toInteger i.name checked v)
  | none, some k => return .float k (← float k (← toNumber v))
  | none, none =>
    if target.isInt then return .int (← toInteger "int" checked v)
    else if target.isClass FloatKind.general.className then return .float .general (← float .general (← toNumber v))
    else if target.isDecimal then toDecimal h v
    else if target.isBool then return .bool (h.isTrue v)
    else if target.isChar then character (← toInteger "int" checked v)
    else if target.isStr then
      match h.textOf v with
      | some s => return .str s
      | none => throw (.host .value)
    else
      match target.runtimeForm.className? with
      | some c =>
        if ← isInstance l h v c then return v
        else throw (.unconvertible (h.className v).simpleName target)
      | none => throw (.unconvertible (h.className v).simpleName target)

/-- Converts a value to a type; in a union with the null type, none stays none. -/
def convert (l : Library) (h : Heap) (target : Ty) (checked : Bool) (v : Value) : Except Fault Value :=
  match target.optionalInner? with
  | some inner => if v.isNone then .ok .none else convertTo l h inner checked v
  | none => convertTo l h target checked v

end ExprTree.Arithmetic
