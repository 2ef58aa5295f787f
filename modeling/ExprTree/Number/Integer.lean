/-!
# Integers of fixed width

The eight fixed-width integer types, their ranges, and the operations on
unbounded integers that fixed-width arithmetic is built from: wrapping into a
range, division that truncates toward zero, and the bitwise operations on
two's complement patterns of unbounded length.
-/

-- A power is the core library's, also in a module that imports the powers of monoids.
attribute [instance (1100), default_instance 10100] instPowNat

namespace ExprTree

inductive Width where
  | w8 | w16 | w32 | w64
deriving DecidableEq, Repr

def Width.bits : Width → Nat
  | .w8 => 8
  | .w16 => 16
  | .w32 => 32
  | .w64 => 64

theorem Width.bits_pos (w : Width) : 0 < w.bits := by cases w <;> decide

/-- A fixed-width integer type. -/
structure IntType where
  signed : Bool
  width : Width
deriving DecidableEq, Repr

namespace IntType

def all : List IntType :=
  [true, false].flatMap fun s => [Width.w8, .w16, .w32, .w64].map fun w => ⟨s, w⟩

def bits (t : IntType) : Nat :=
  t.width.bits

def name (t : IntType) : String :=
  (if t.signed then "int" else "uint") ++ toString t.bits

/-- The number of values of the type. -/
def span (t : IntType) : Int :=
  2 ^ t.bits

def low (t : IntType) : Int :=
  if t.signed then -(2 ^ (t.bits - 1)) else 0

def high (t : IntType) : Int :=
  if t.signed then 2 ^ (t.bits - 1) - 1 else 2 ^ t.bits - 1

/-- The values of the type, as integers. -/
def Holds (t : IntType) (n : Int) : Prop :=
  t.low ≤ n ∧ n ≤ t.high

instance (t : IntType) (n : Int) : Decidable (t.Holds n) :=
  inferInstanceAs (Decidable (_ ∧ _))

/-- The value of the type that is congruent to `n` modulo its span. -/
def wrap (t : IntType) (n : Int) : Int :=
  (n - t.low) % t.span + t.low

theorem high_eq (t : IntType) : t.high = t.low + t.span - 1 := by
  obtain ⟨s, w⟩ := t
  cases s <;> cases w <;> decide

theorem span_pos (t : IntType) : 0 < t.span := by
  obtain ⟨s, w⟩ := t
  cases s <;> cases w <;> decide

theorem holds_wrap (t : IntType) (n : Int) : t.Holds (t.wrap n) := by
  have h₁ := Int.emod_nonneg (n - t.low) (Int.ne_of_gt t.span_pos)
  have h₂ := Int.emod_lt_of_pos (n - t.low) t.span_pos
  have h₃ := t.high_eq
  unfold Holds wrap
  omega

theorem wrap_of_holds {t : IntType} {n : Int} (h : t.Holds n) : t.wrap n = n := by
  have h₃ := t.high_eq
  unfold Holds at h
  rw [wrap, Int.emod_eq_of_lt (by omega) (by omega)]
  omega

end IntType

namespace Integer

/-- The power of an integer, sign and magnitude apart. -/
def pow (a : Int) (n : Nat) : Int :=
  if a < 0 && n % 2 == 1 then -((a.natAbs ^ n : Nat) : Int) else ((a.natAbs ^ n : Nat) : Int)

/-- The bits of `m` that `n` lacks. -/
def without (m n : Nat) : Nat :=
  m ^^^ (m &&& n)

def land : Int → Int → Int
  | .ofNat m, .ofNat n => .ofNat (m &&& n)
  | .ofNat m, .negSucc n => .ofNat (without m n)
  | .negSucc m, .ofNat n => .ofNat (without n m)
  | .negSucc m, .negSucc n => .negSucc (m ||| n)

def lor : Int → Int → Int
  | .ofNat m, .ofNat n => .ofNat (m ||| n)
  | .ofNat m, .negSucc n => .negSucc (without n m)
  | .negSucc m, .ofNat n => .negSucc (without m n)
  | .negSucc m, .negSucc n => .negSucc (m &&& n)

def xor : Int → Int → Int
  | .ofNat m, .ofNat n => .ofNat (m ^^^ n)
  | .ofNat m, .negSucc n => .negSucc (m ^^^ n)
  | .negSucc m, .ofNat n => .negSucc (m ^^^ n)
  | .negSucc m, .negSucc n => .ofNat (m ^^^ n)

/-- All bits flipped. -/
def complement (a : Int) : Int :=
  -a - 1

def shiftLeft (a : Int) (n : Nat) : Int :=
  a * (2 ^ n : Nat)

/-- Division by a power of two, toward the floor. -/
def shiftRight (a : Int) (n : Nat) : Int :=
  a / (2 ^ n : Nat)

end Integer

end ExprTree
