import ExprTree.Proofs.Scalar.Exact
import Mathlib.Data.Rat.Floor

/-!
# Integers of a type

Which integer a value of an integer type is, and what an integer becomes in a
type: itself among the unbounded ones, and what fits the width in the others.
Division and conversion both drop a fraction toward zero.
-/

namespace ExprTree

/-! ## Toward zero -/

/-- The integer part of a number, toward zero. -/
def towardZero (x : ℚ) : Int :=
  if 0 ≤ x then ⌊x⌋ else ⌈x⌉

theorem towardZero_neg (x : ℚ) : towardZero (-x) = -towardZero x := by
  unfold towardZero
  rcases lt_trichotomy x 0 with hx | rfl | hx
  · rw [if_pos (neg_nonneg.mpr hx.le), if_neg hx.not_ge, Int.floor_neg]
  · simp
  · rw [if_neg (neg_neg_of_pos hx).not_ge, if_pos hx.le, Int.ceil_neg]

theorem towardZero_natCast_div (m n : Nat) : towardZero (m / n) = (m / n : Nat) := by
  unfold towardZero
  rw [if_pos (by positivity)]
  have h := Rat.floor_intCast_div_natCast m n
  rwa [Int.cast_natCast, ← Int.natCast_ediv] at h

theorem towardZero_div (a b : Int) : towardZero (a / b) = a.tdiv b := by
  obtain ⟨m, rfl | rfl⟩ := a.eq_nat_or_neg <;> obtain ⟨n, rfl | rfl⟩ := b.eq_nat_or_neg <;>
    simp only [Int.cast_neg, Int.cast_natCast, neg_div, div_neg, neg_neg, towardZero_neg, Int.neg_tdiv, Int.tdiv_neg,
      towardZero_natCast_div] <;> rfl

@[simp] theorem towardZero_intCast (n : Int) : towardZero n = n := by
  simpa using towardZero_div n 1

@[simp] theorem towardZero_natCast (n : Nat) : towardZero n = n :=
  towardZero_intCast n

/-! ## Integer types -/

namespace IntType

theorem bits_pos (t : IntType) : 0 < t.bits := t.width.bits_pos

theorem low_nonpos (t : IntType) : t.low ≤ 0 := by
  obtain ⟨signed, width⟩ := t
  cases signed <;> cases width <;> decide

theorem high_pos (t : IntType) : 0 < t.high := by
  obtain ⟨signed, width⟩ := t
  cases signed <;> cases width <;> decide

/-- Without a check an integer fits as its residue. -/
theorem fit_residue (t : IntType) (n : Int) : ∃ m, t.fit false n = .ok m ∧ t.IsResidue n m := by
  generalize hr : t.fit false n = r
  have hgives := hr ▸ t.fit_gives false n
  cases hgives with
  | ok h => exact ⟨_, rfl, isResidue_of_modEq h.1 h.2⟩
  | error h => cases h.2

end IntType

theorem Ty.fixed?_of_isInt {t : Ty} (ht : t.isInt = true) : t.fixed? = none := by
  rw [Ty.eq_cls_of_isClass ht]
  exact Scalar.fixed?_ty .int

theorem Ty.eq_cls_of_fixed? {t : Ty} {i : IntType} (ht : t.fixed? = some i) : t = .cls (.ofIntType i) :=
  eq_cls_of_isClass (List.find?_some (p := fun i => t.isClass (.ofIntType i)) ht)

theorem Ty.isInteger_iff {t : Ty} : t.isInteger = true ↔ t.isInt = true ∨ ∃ i, t.fixed? = some i := by
  rw [isInteger, isFixed, Bool.or_eq_true, Option.isSome_iff_exists]

theorem Ty.isInt_of_isInteger {t : Ty} (ht : t.isInteger = true) (hfixed : t.fixed? = none) : t.isInt = true :=
  (isInteger_iff.mp ht).resolve_right (by simp [hfixed])

namespace Ty

/-- Is the integer one of the type? All of them are unbounded integers. -/
def Contains (t : Ty) (n : Int) : Prop :=
  ∀ i, t.fixed? = some i → i.Holds n

/-- An integer as a value of an integer type. -/
def integer (t : Ty) (n : Int) : Value :=
  match t.fixed? with
  | some i => .fixed i n
  | none => .int n

/-- An integer as it fits an integer type: only the widths are bounded. -/
def fit (t : Ty) (checked : Bool) (n : Int) : Except Fault Int :=
  match t.fixed? with
  | some i => i.fit checked n
  | none => .ok n

variable {t : Ty} {i : IntType} {n : Int}

theorem integer_int (ht : t.isInt = true) (n : Int) : t.integer n = .int n := by
  rw [integer, fixed?_of_isInt ht]

theorem integer_fixed (ht : t.fixed? = some i) (n : Int) : t.integer n = .fixed i n := by
  rw [integer, ht]

theorem contains_int (ht : t.isInt = true) (n : Int) : t.Contains n := by
  rw [Contains, fixed?_of_isInt ht]
  exact nofun

theorem contains_fixed (ht : t.fixed? = some i) : t.Contains n ↔ i.Holds n := by
  simp [Contains, ht]

theorem fit_fixed (ht : t.fixed? = some i) (checked : Bool) (n : Int) : t.fit checked n = i.fit checked n := by
  rw [fit, ht]

theorem fit_of_contains (hn : t.Contains n) (checked : Bool) : t.fit checked n = .ok n := by
  cases ht : t.fixed? with
  | none => rw [fit, ht]
  | some i =>
    rw [fit_fixed ht]
    exact if_pos (hn i ht)

/-- What is fitted to a type is a value of it: unbounded integers are the values themselves. -/
theorem fit_map_int (ht : t.isInt = true) (checked : Bool) (n : Int) :
    (t.fit checked n).map t.integer = .ok (.int n) := by
  rw [fit_of_contains (contains_int ht n), Except.map, integer_int ht]

/-- A width narrows what it is given. -/
theorem narrow_eq (ht : t.fixed? = some i) (checked : Bool) (n : Int) :
    Arithmetic.narrow i checked n = (t.fit checked n).map t.integer := by
  rw [Arithmetic.narrow_eq, fit_fixed ht]
  congr 1
  exact funext fun n => (integer_fixed ht n).symm

end Ty

/-- Is the value of the integer type, and this integer? Truth values are among the unbounded integers. -/
inductive Value.IsInteger : Value → Ty → Int → Prop where
  | int {t : Ty} (ht : t.isInt = true) (n : Int) : IsInteger (.int n) t n
  | truth {t : Ty} (ht : t.isInt = true) (b : Bool) : IsInteger (.bool b) t b.toNat
  | fixed {t : Ty} {i : IntType} {n : Int} (ht : t.fixed? = some i) (hn : i.Holds n) : IsInteger (.fixed i n) t n

namespace Value.IsInteger

variable {v : Value} {t u : Ty} {i : IntType} {n : Int}

theorem isInteger (hv : v.IsInteger t n) : t.isInteger = true := by
  rw [Ty.isInteger_iff]
  cases hv with
  | int ht => exact .inl ht
  | truth ht => exact .inl ht
  | fixed ht => exact .inr ⟨_, ht⟩

theorem contains (hv : v.IsInteger t n) : t.Contains n := by
  cases hv with
  | int ht => exact Ty.contains_int ht _
  | truth ht => exact Ty.contains_int ht _
  | fixed ht hn => exact (Ty.contains_fixed ht).mpr hn

theorem isScalar (hv : v.IsInteger t n) : v.IsScalar := by
  cases hv <;> exact .inr rfl

/-- As an operand it is read as the integer it is. -/
theorem integer_eq (hv : v.IsInteger t n) : Arithmetic.integer v = .ok n := by
  cases hv <;> rfl

/-- A value of a width is no other value. -/
theorem eq_fixed (hv : v.IsInteger t n) (ht : t.fixed? = some i) : v = .fixed i n ∧ i.Holds n := by
  cases hv with
  | int ht' => cases (Ty.fixed?_of_isInt ht').symm.trans ht
  | truth ht' => cases (Ty.fixed?_of_isInt ht').symm.trans ht
  | fixed ht' hn =>
    cases ht'.symm.trans ht
    exact ⟨rfl, hn⟩

/-- Among numbers an unbounded integer is one, and so is a truth value. -/
theorem number?_int (hv : v.IsInteger t n) (ht : t.isInt = true) : v.number? = some (.int n) := by
  cases hv with
  | int => rfl
  | truth => rfl
  | fixed ht' => cases (Ty.fixed?_of_isInt ht).symm.trans ht'

theorem number?_fixed (hv : v.IsInteger t n) (ht : t.fixed? = some i) : v.number? = some (.fixed i n) := by
  rw [(hv.eq_fixed ht).1]
  rfl

end Value.IsInteger

end ExprTree
