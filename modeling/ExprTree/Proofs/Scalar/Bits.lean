import ExprTree.Proofs.Number.Patterns
import ExprTree.Proofs.Scalar.Integers

/-!
# Bits of fixed-width integers

The operations on bits are computed on unbounded integers and narrowed. What
they yield in a width is what the patterns of the width yield: the operation on
the patterns, and the shift of a pattern by as many places as the count has in
the width. None of them fails.
-/

namespace ExprTree

namespace IntType

variable {t : IntType} {n : Int}

/-! ## Patterns of a width -/

/-- The two's complement pattern of an integer in the bits of the width. -/
def pattern (t : IntType) (n : Int) : BitVec t.bits :=
  BitVec.ofInt t.bits n

/-- Is `n` the one number of the width with this pattern? -/
structure Encodes (t : IntType) (p : BitVec t.bits) (n : Int) : Prop where
  holds : t.Holds n
  pattern : t.pattern n = p
  unique : ∀ m, t.Holds m → t.pattern m = p → m = n

/-- Narrowing keeps the pattern. -/
theorem fit_encodes (t : IntType) (n : Int) : ∃ m, t.fit false n = .ok m ∧ t.Encodes (t.pattern n) m := by
  obtain ⟨m, hfit, hm⟩ := t.fit_residue n
  refine ⟨m, hfit, hm.holds, ofInt_eq_iff.mpr hm.modEq, fun k hk hpattern => ?_⟩
  exact hm.unique k hk (ofInt_eq_iff.mp hpattern)

/-- A shift to the right copies the sign in the signed widths. -/
theorem pattern_shiftRight (hn : t.Holds n) (places : Nat) :
    t.pattern (Integer.shiftRight n places) =
      if t.signed then (t.pattern n).sshiftRight places else t.pattern n >>> places := by
  obtain ⟨hlow, hhigh⟩ := hn
  unfold low at hlow
  unfold high at hhigh
  split
  · next hs =>
    rw [if_pos hs] at hlow hhigh
    exact Integer.ofInt_shiftRight_signed t.bits_pos hlow (by omega) places
  · next hs =>
    rw [if_neg hs] at hlow hhigh
    exact Integer.ofInt_shiftRight_unsigned hlow (by omega) places

end IntType

/-! ## Operators on patterns -/

namespace BitwiseKind

variable {w : Nat}

def onInts : BitwiseKind → Int → Int → Int
  | .and => Integer.land
  | .or => Integer.lor
  | .exclusiveOr => Integer.xor

def onPatterns : BitwiseKind → BitVec w → BitVec w → BitVec w
  | .and => (· &&& ·)
  | .or => (· ||| ·)
  | .exclusiveOr => (· ^^^ ·)

theorem ofInt_onInts (k : BitwiseKind) (a b : Int) :
    BitVec.ofInt w (k.onInts a b) = k.onPatterns (BitVec.ofInt w a) (BitVec.ofInt w b) := by
  cases k with
  | and => exact Integer.ofInt_land a b
  | or => exact Integer.ofInt_lor a b
  | exclusiveOr => exact Integer.ofInt_xor a b

end BitwiseKind

namespace ShiftKind

variable {w : Nat}

def onInts : ShiftKind → Int → Nat → Int
  | .left => Integer.shiftLeft
  | .right => Integer.shiftRight

/-- A shift to the right fills up with the sign, if there is one. -/
def onPatterns (signed : Bool) : ShiftKind → BitVec w → Nat → BitVec w
  | .left, p, places => p <<< places
  | .right, p, places => if signed then p.sshiftRight places else p >>> places

theorem pattern_onInts (k : ShiftKind) {t : IntType} {a : Int} (ha : t.Holds a) (places : Nat) :
    t.pattern (k.onInts a places) = k.onPatterns t.signed (t.pattern a) places := by
  cases k with
  | left => exact Integer.ofInt_shiftLeft a places
  | right => exact IntType.pattern_shiftRight ha places

end ShiftKind

/-! ## In a width -/

namespace Arithmetic

variable {t u : Ty} {i : IntType} {v w : Value} {a b : Int}

/-- What is narrowed has the pattern of the result. -/
theorem narrow_encodes {n : Int} {p : BitVec i.bits} (hp : i.pattern n = p) :
    ∃ m, narrow i false n = .ok (.fixed i m) ∧ i.Encodes p m := by
  obtain ⟨m, hfit, hm⟩ := i.fit_encodes n
  rw [narrow_eq, hfit]
  exact ⟨m, rfl, hp ▸ hm⟩

theorem bitwise_patterns (k : BitwiseKind) (ht : t.fixed? = some i) (hv : v.IsInteger t a) (hw : w.IsInteger t b) :
    ∃ m, bitwise k t v w = .ok (.fixed i m) ∧ i.Encodes (k.onPatterns (i.pattern a) (i.pattern b)) m := by
  have hnarrow : bitwise k t v w = narrow i false (k.onInts a b) := by
    unfold bitwise
    simp only [ht, hv.integer_eq, hw.integer_eq, ok_bind]
    cases k <;> rfl
  rw [hnarrow]
  exact narrow_encodes (k.ofInt_onInts a b)

/-- Whatever type the count has, its residue counts the places. -/
theorem shift_patterns (k : ShiftKind) (ht : t.fixed? = some i) (hv : v.IsInteger t a) (hw : w.IsInteger u b) :
    ∃ m, shift k t v w = .ok (.fixed i m) ∧ i.Encodes (k.onPatterns i.signed (i.pattern a) (b % i.bits).toNat) m := by
  have hnarrow : shift k t v w = narrow i false (k.onInts a (shiftCount i b)) := by
    unfold shift
    simp only [ht, hv.integer_eq, hw.integer_eq, ok_bind]
    cases k <;> rfl
  rw [hnarrow]
  exact narrow_encodes (k.pattern_onInts (hv.eq_fixed ht).2 _)

theorem onesComplement_patterns (ht : t.fixed? = some i) (hv : v.IsInteger t a) :
    ∃ m, onesComplement t v = .ok (.fixed i m) ∧ i.Encodes (~~~i.pattern a) m := by
  have hnarrow : onesComplement t v = narrow i false (Integer.complement a) := by
    unfold onesComplement
    simp only [ht, hv.integer_eq, ok_bind]
  rw [hnarrow]
  exact narrow_encodes (Integer.ofInt_complement a)

end Arithmetic

/-! ## Nodes -/

namespace Node

variable {l : Library} {host : Host} {apply : Apply} {frame : Frame} {h h₁ h₂ : Heap} {left right : Node}
  {i : IntType} {v w : Value} {a b : Int}

/-- Either negation of an integer of a width flips the bits. -/
theorem run_complement {u : UnaryKind} (hu : u = .not ∨ u = .onesComplement) (ht : left.type.fixed? = some i)
    (hl : (left.eval host apply frame).run h = (.ok v, h₁)) :
    ∃ n, mkUnary (.unary u) left none = .ok n ∧
      (n.eval host apply frame).run h = (Arithmetic.onesComplement left.type v, h₁) := by
  have hconvert (c : Bool) : u ≠ .convert c := by
    rintro rfl
    obtain h | h := hu <;> cases h
  have htype : unaryType u left = .ok left.type := by
    have hinteger := Ty.isInteger_iff.mpr (.inr ⟨i, ht⟩)
    obtain rfl | rfl := hu <;> simp [unaryType, hinteger]
  have hvalue : unaryValue host.library u left.type left.type v = Run.ofResult (Arithmetic.onesComplement left.type v) := by
    obtain rfl | rfl := hu
    · have hbool : left.type.isBool = false := by
        rw [Ty.eq_cls_of_fixed? ht]
        exact Scalar.isBool_ty (.fixed i)
      simp [unaryValue, hbool]
    · rfl
  refine ⟨_, (mkUnary_eq_ok hconvert).mpr ⟨_, htype, fun _ h => (by cases h), rfl⟩, ?_⟩
  rw [eval, Action.run_bind_ok hl, hvalue]
  cases Arithmetic.onesComplement left.type v <;> obtain rfl | rfl := hu <;> rfl

/-- The operators on bits build nodes for integers of a width, and running these never fails: what they yield has the
pattern that comes of the patterns of the operands. -/
theorem eval_patterns (ht : left.type.fixed? = some i) (hl : (left.eval host apply frame).run h = (.ok v, h₁))
    (hv : v.IsInteger left.type a) (hr : (right.eval host apply frame).run h₁ = (.ok w, h₂))
    (hw : w.IsInteger right.type b) :
    (right.type.fixed? = some i → ∀ k, ∃ n m, mkBinary l (.binary (.operation (.bitwise k))) left right = .ok n ∧
      (n.eval host apply frame).run h = (.ok (.fixed i m), h₂) ∧
      i.Encodes (k.onPatterns (i.pattern a) (i.pattern b)) m) ∧
    (∀ k, ∃ n m, mkBinary l (.binary (.operation (.shift k))) left right = .ok n ∧
      (n.eval host apply frame).run h = (.ok (.fixed i m), h₂) ∧
      i.Encodes (k.onPatterns i.signed (i.pattern a) (b % i.bits).toNat) m) ∧
    (∀ u, u = .not ∨ u = .onesComplement → ∃ n m, mkUnary (.unary u) left none = .ok n ∧
      (n.eval host apply frame).run h = (.ok (.fixed i m), h₁) ∧ i.Encodes (~~~i.pattern a) m) := by
  have hinteger := hv.isInteger
  refine ⟨fun hright k => ?_, fun k => ?_, fun u hu => ?_⟩
  · have hsame : right.type = left.type := (Ty.eq_cls_of_fixed? hright).trans (Ty.eq_cls_of_fixed? ht).symm
    have ho : (Operation.bitwise k).IsFor left.type right.type := ⟨by rw [hsame, Ty.equivalent_refl], .inl hinteger⟩
    obtain ⟨n, hn, hrun⟩ := run_operation ho hl hr hv.isScalar hw.isScalar
    obtain ⟨m, hm, hencodes⟩ := Arithmetic.bitwise_patterns k ht hv (hsame ▸ hw)
    exact ⟨n, m, hn, hrun.trans (congrArg (·, h₂) hm), hencodes⟩
  · have ho : (Operation.shift k).IsFor left.type right.type := ⟨hinteger, hw.isInteger⟩
    obtain ⟨n, hn, hrun⟩ := run_operation ho hl hr hv.isScalar hw.isScalar
    obtain ⟨m, hm, hencodes⟩ := Arithmetic.shift_patterns k ht hv hw
    exact ⟨n, m, hn, hrun.trans (congrArg (·, h₂) hm), hencodes⟩
  · obtain ⟨n, hn, hrun⟩ := run_complement hu ht hl
    obtain ⟨m, hm, hencodes⟩ := Arithmetic.onesComplement_patterns ht hv
    exact ⟨n, m, hn, hrun.trans (congrArg (·, h₁) hm), hencodes⟩

/-- Minus three counts five places in eight bits. -/
theorem eval_patterns_least :
    let left := Node.constant (.fixed ⟨true, .w8⟩ (-128)) (Scalar.fixed ⟨true, .w8⟩).ty
    let right := Node.constant (.int (-3)) Scalar.int.ty
    left.type.fixed? = some ⟨true, .w8⟩ ∧ (Value.fixed ⟨true, .w8⟩ (-128)).IsInteger left.type (-128) ∧
      (Value.int (-3)).IsInteger right.type (-3) ∧
      ∃ n m, mkBinary Sample.host.library (.binary (.operation (.shift .right))) left right = .ok n ∧
        (n.eval Sample.host Sample.host.apply []).run ⟨#[]⟩ = (.ok (.fixed ⟨true, .w8⟩ m), ⟨#[]⟩) ∧
        IntType.Encodes ⟨true, .w8⟩ ((0x80#8).sshiftRight 5) m := by
  intro left right
  have ht : left.type.fixed? = some ⟨true, .w8⟩ := Scalar.fixed?_ty _
  have hv : (Value.fixed ⟨true, .w8⟩ (-128)).IsInteger left.type (-128) := .fixed ht (by decide)
  have hw : (Value.int (-3)).IsInteger right.type (-3) := .int (Scalar.isInt_ty _) _
  exact ⟨ht, hv, hw, (eval_patterns ht rfl hv rfl hw).2.1 .right⟩

end Node

end ExprTree
