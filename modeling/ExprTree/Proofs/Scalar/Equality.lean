import ExprTree.Proofs.Document.Constant
import ExprTree.Proofs.Scalar.Types

/-!
# Equal scalars

A number is equal to itself unless it is none. An instance of a class below a
scalar class has an equal among the values of the class itself.
-/

namespace ExprTree

theorem Binary.compare_self {x : Binary} (hx : x.isNan = false) : x.compare x = some .eq := by
  cases x with
  | nan => cases hx
  | _ => simp [compare, Std.compare_self]

theorem Decimal.compareFinite_self (s : Bool) (c : Nat) (e : Int) : compareFinite s c e s c e = .eq := by
  unfold compareFinite
  by_cases hc : c = 0
  · simp [hc]
  · cases s <;> simp [hc, Std.compare_self]

theorem Decimal.compare_self {d : Decimal} (hd : (Number.decimal d).isNan = false) : d.compare d = some .eq := by
  cases d with
  | nan => cases hd
  | infinite s => simp [compare, Std.compare_self]
  | finite s c e => rw [compare, compareFinite_self]

namespace Number

theorem compare_ints (m n : Int) : (int m).compare (int n) = some (Ord.compare m n) := rfl

@[simp] theorem isNan_float (k : FloatKind) (x : Binary) : (float k x).isNan = x.isNan := by
  cases x <;> rfl

/-- A float compares with itself in each kind that can hold it. -/
theorem compare_floats {k j : FloatKind} {x : Binary} (hx : (widerFloat k j).format.Holds x)
    (hnan : (float k x).isNan = false) : (float k x).compare (float j x) = some .eq := by
  rw [isNan_float] at hnan
  have hconvert : (widerFloat k j).format.convert x = x :=
    Format.convert_of_holds (by cases widerFloat k j <;> decide) hx
  simp [compare, pair, hconvert, Binary.compare_self hnan]

theorem equal_of_compare {a b : Number} (ha : a.isNan = false) (hb : b.isNan = false) (h : a.compare b = some .eq) :
    a.equal b = .ok true := by
  have hquiet {a : Number} (ha : a.isNan = false) : a.isSignaling = false := by
    cases a with
    | decimal d => cases d <;> first | rfl | cases ha
    | _ => rfl
  rw [equal, hquiet ha, hquiet hb, h]
  rfl

end Number

/-- Is the value a number that is none? -/
def Value.isNan (v : Value) : Bool :=
  v.number?.any (·.isNan)

/-- Are the values equal, or both numbers that are none? -/
def Heap.Matches (h : Heap) (v w : Value) : Prop :=
  h.equal v w = .ok true ∨ v.isNan = true ∧ w.isNan = true

namespace Heap

variable {h : Heap} {v w : Value}

theorem equal_numbers {a b : Number} (hv : v.number? = some a) (hw : w.number? = some b) : h.equal v w = a.equal b := by
  unfold equal Value.equalWith
  split
  · cases hv
  · cases hv
  · cases hv
  · cases hv
  · rw [hv, hw]

theorem equal_texts {s t : String} (hv : v.text? = some s) (hw : w.text? = some t) :
    h.equal v w = .ok (decide (s = t)) := by
  have hnumber : v.number? = none := by cases v <;> first | rfl | cases hv
  unfold equal Value.equalWith
  split
  · cases hv
  · cases hv
  · cases hv
  · cases hv
  · rw [hnumber, hv, hw]

theorem matches_numbers {a b : Number} (hv : v.number? = some a) (hw : w.number? = some b) (hnan : a.isNan = b.isNan)
    (hab : a.isNan = false → a.compare b = some .eq) : h.Matches v w := by
  cases ha : a.isNan with
  | true => exact .inr ⟨by simp [Value.isNan, hv, ha], by simp [Value.isNan, hw, ← hnan, ha]⟩
  | false => exact .inl ((equal_numbers hv hw).trans (Number.equal_of_compare ha (hnan ▸ ha) (hab ha)))

theorem matches_texts {s : String} (hv : v.text? = some s) (hw : w.text? = some s) : h.Matches v w :=
  .inl (by rw [equal_texts hv hw, decide_eq_true rfl])

end Heap

namespace Scalar

/-- The value of the class itself that is equal to an instance of it. -/
def cast : Scalar → Value → Value
  | .int, .bool b => .int b.toNat
  | .str, .char c => .str (String.singleton c)
  | .float .general, .float .double x => .float .general x
  | _, v => v

variable {s : Scalar} {v : Value}

theorem matches_cast (hv : s.Holds v) (hproper : v.IsProper) (h : Heap) : h.Matches v (s.cast v) := by
  cases hv with
  | bool b => exact Heap.matches_numbers rfl rfl rfl fun _ => by simp [Number.compare_ints, Std.compare_self]
  | int n => exact Heap.matches_numbers rfl rfl rfl fun _ => by simp [Number.compare_ints, Std.compare_self]
  | truth b => exact Heap.matches_numbers rfl rfl rfl fun _ => by simp [Number.compare_ints, Std.compare_self]
  | decimal d => exact Heap.matches_numbers rfl rfl rfl fun hnan => Decimal.compare_self hnan
  | str t => exact Heap.matches_texts rfl rfl
  | letter c => exact Heap.matches_texts rfl rfl
  | char c => exact Heap.matches_texts rfl rfl
  | fixed t n => exact Heap.matches_numbers rfl rfl rfl fun _ => by simp [Number.compare, Std.compare_self]
  | float k x =>
    have hholds : (Number.widerFloat k k).format.Holds x := by cases k <;> exact hproper
    have hcast : (Scalar.float k).cast (.float k x) = .float k x := by cases k <;> rfl
    rw [hcast]
    exact Heap.matches_numbers rfl rfl rfl fun hnan => Number.compare_floats hholds hnan
  | double x =>
    exact Heap.matches_numbers rfl rfl (by simp) fun hnan => Number.compare_floats (k := .double) (j := .general) hproper hnan

end Scalar

end ExprTree
