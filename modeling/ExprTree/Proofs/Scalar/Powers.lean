import ExprTree.Proofs.Scalar.Bits

/-!
# Powers and shifts of unbounded integers

The type of the left operand is that of the result, but for unbounded integers
the operands are handed to the host as they are. An exponent or a count that is
an unbounded integer too gives the exact value, if it is not negative. A
negative exponent gives a float, and a count of a width draws the whole shift
into that width, where it wraps and a negative count is no fault.
-/

namespace ExprTree

/-! ## Powers and shifts in the integers -/

namespace Integer

variable {a : Int} {n : Nat}

theorem pow_eq (a : Int) (n : Nat) : pow a n = a ^ n := by
  unfold pow
  obtain ⟨m, rfl | rfl⟩ := a.eq_nat_or_neg
  · simp
  · rcases Nat.even_or_odd n with hn | hn
    · simp [hn.neg_pow, Nat.even_iff.mp hn]
    · rcases Nat.eq_zero_or_pos m with rfl | hm
      · simp
      · simp [hn.neg_pow, Nat.odd_iff.mp hn, hm]

/-- Where the bits run out, the sign is left. -/
theorem shiftRight_of_lt (h : a.natAbs < 2 ^ n) : shiftRight a n = if a < 0 then -1 else 0 := by
  unfold shiftRight
  split
  · next ha =>
    rw [Int.ediv_eq_iff_of_pos (by positivity)]
    omega
  · next ha => exact Int.ediv_eq_zero_of_lt (by omega) (by omega)

theorem shiftRight_eq_floor (a : Int) (n : Nat) : shiftRight a n = ⌊(a : ℚ) / 2 ^ n⌋ := by
  have h := Rat.floor_intCast_div_natCast a (2 ^ n)
  push_cast at h
  rw [h, shiftRight]
  push_cast
  rfl

end Integer

theorem IntType.holds_shiftRight {t : IntType} {a : Int} (ha : t.Holds a) (n : Nat) : t.Holds (Integer.shiftRight a n) := by
  have hlow := t.low_nonpos
  have hhigh := t.high_pos
  have hpos : (1 : Int) ≤ (2 ^ n : Nat) := by exact_mod_cast Nat.one_le_two_pow
  unfold Holds at *
  unfold Integer.shiftRight
  rcases Int.le_total 0 a with h | h
  · have := Int.ediv_nonneg h (by omega : (0 : Int) ≤ (2 ^ n : Nat))
    have := Int.ediv_le_self (2 ^ n : Nat) h
    omega
  · have : a ≤ a / (2 ^ n : Nat) := by
      rw [Int.le_ediv_iff_mul_le (by omega)]
      nlinarith
    have : a / (2 ^ n : Nat) ≤ 0 := Int.ediv_nonpos_of_nonpos_of_neg h (by omega)
    omega

theorem IntType.natAbs_lt {t : IntType} {a : Int} (ha : t.Holds a) : a.natAbs < 2 ^ t.bits := by
  unfold Holds low high at ha
  have hhalf : (2 : Int) ^ (t.bits - 1) < 2 ^ t.bits := by
    gcongr
    · decide
    · exact Nat.sub_lt t.bits_pos (by decide)
  have : (2 : Int) ^ t.bits = (2 ^ t.bits : Nat) := by push_cast; rfl
  split_ifs at ha <;> omega

/-! ## Shifts of numbers -/

theorem Number.pair_adapted {i : IntType} {a : Int} (ha : i.Holds a) (b : Int) :
    pair (.int a) (.fixed i b) = .fixed i a b := if_pos ha

theorem Number.pair_outside {i : IntType} {a : Int} (ha : ¬i.Holds a) (b : Int) :
    pair (.int a) (.fixed i b) = .outside := if_neg ha

namespace ShiftKind

variable {i : IntType} {a : Int}

/-- The value of a shift in the integers. -/
def exact : ShiftKind → Int → Nat → Int
  | .left, a, n => a * 2 ^ n
  | .right, a, n => ⌊(a : ℚ) / 2 ^ n⌋

theorem onInts_eq_exact (k : ShiftKind) (a : Int) (n : Nat) : k.onInts a n = k.exact a n := by
  cases k with
  | left => simp [onInts, exact, Integer.shiftLeft]
  | right => exact Integer.shiftRight_eq_floor a n

/-- The shift of the host. -/
def onNumbers : ShiftKind → Number → Number → Number.Result
  | .left => Number.shiftLeft
  | .right => Number.shiftRight

theorem onNumbers_int (k : ShiftKind) (a b : Int) :
    k.onNumbers (.int a) (.int b) =
      if b < 0 then .error (.host .value)
      else if k = .left ∧ a ≠ 0 ∧ Number.shiftLimit < b then .error (.host .overflow)
      else .ok (.int (k.exact a b.toNat)) := by
  rw [← k.onInts_eq_exact]
  cases k with
  | left =>
    unfold onNumbers Number.shiftLeft
    simp only [Number.pair, onInts, ne_eq, Bool.and_eq_true, decide_eq_true_eq, gt_iff_lt, true_and]
    by_cases ha : a = 0
    · simp [ha, Integer.shiftLeft]
    · simp [ha]
  | right =>
    unfold onNumbers Number.shiftRight
    simp only [Number.pair, onInts, reduceCtorEq, false_and, if_false]
    congr 2
    split
    · next hlarge =>
      -- more places than there are bits
      have hlt := a.natAbs.lt_log2_self.trans_le (Nat.pow_le_pow_right (by decide) hlarge.le)
      rw [Integer.shiftRight_of_lt hlt]
    · rfl

theorem onNumbers_adapted (k : ShiftKind) (ha : i.Holds a) (b : Int) :
    ∃ m, k.onNumbers (.int a) (.fixed i b) = .ok (.fixed i m) ∧ (0 ≤ b → i.IsResidue (k.exact a b.toNat) m) ∧
      (b < 0 → m = if k = .right ∧ a < 0 then -1 else 0) := by
  rw [← k.onInts_eq_exact]
  cases k with
  | left =>
    simp only [onNumbers, Number.shiftLeft, Number.pair_adapted ha, Bool.and_eq_true, decide_eq_true_eq]
    refine ⟨_, rfl, fun hb => ?_, fun hb => ?_⟩
    · split
      · exact IntType.isResidue_of_modEq (i.holds_wrap _) (i.wrap_modEq _)
      · next hlarge =>
        -- all of the bits are shifted out
        have hle : i.bits ≤ b.toNat := by omega
        refine IntType.isResidue_of_modEq ⟨i.low_nonpos, i.high_pos.le⟩ (Int.ModEq.symm ?_)
        exact Int.modEq_zero_iff_dvd.mpr (Dvd.dvd.mul_left (by exact_mod_cast Nat.pow_dvd_pow 2 hle) a)
    · rw [if_neg (by omega), if_neg (by simp)]
  | right =>
    simp only [onNumbers, Number.shiftRight, Number.pair_adapted ha, Bool.and_eq_true, decide_eq_true_eq]
    refine ⟨_, rfl, fun hb => ?_, fun hb => ?_⟩
    · have hm : (if 0 ≤ b ∧ b < i.bits then Integer.shiftRight a b.toNat else if a < 0 then -1 else 0) =
          Integer.shiftRight a b.toNat := by
        split
        · rfl
        · next hlarge =>
          have hle : i.bits ≤ b.toNat := by omega
          exact (Integer.shiftRight_of_lt ((IntType.natAbs_lt ha).trans_le (Nat.pow_le_pow_right (by decide) hle))).symm
      rw [hm]
      exact IntType.isResidue_of_modEq (IntType.holds_shiftRight ha _) (Int.ModEq.refl _)
    · rw [if_neg (by omega)]
      simp only [true_and]

theorem onNumbers_outside (k : ShiftKind) (ha : ¬i.Holds a) (b : Int) :
    k.onNumbers (.int a) (.fixed i b) = .error (.host .overflow) := by
  cases k <;> simp only [onNumbers, Number.shiftLeft, Number.shiftRight, Number.pair_outside ha]

end ShiftKind

/-! ## Values -/

namespace Arithmetic

variable {t u : Ty} {i : IntType} {v w : Value} {a b : Int}

theorem shift_numbers (k : ShiftKind) (ht : t.isInt = true) {m n : Number} (hv : v.number? = some m)
    (hw : w.number? = some n) : shift k t v w = (k.onNumbers m n).map Number.toValue := by
  simp only [shift, Ty.fixed?_of_isInt ht, onNumbers, hv, hw]
  cases k <;> rfl

/-- Is it a fault of powers of floats? -/
def IsPowerFault (f : Fault) : Prop :=
  f.kind = .zeroDivision ∨ f.kind = .overflow

theorem floatPower_gives (x y : Binary) :
    Gives (fun m => ∃ z, m = .float .general z) IsPowerFault (Number.floatPower x y) := by
  unfold Number.floatPower
  split
  · exact .error (.inl rfl)
  · split
    · exact .ite (fun _ => .error (.inr rfl)) fun _ => .ok ⟨_, rfl⟩
    · exact .ok ⟨_, rfl⟩

section

variable (hv : v.IsInteger t a) (hw : w.IsInteger u b) (ht : t.isInt = true)
include hv hw ht

/-! ### Powers -/

theorem power_int (hu : u.isInt = true) :
    power t v w = (Number.pow (.int a) (.int b)).map Number.toValue := by
  have hfloat : t.floatKind? = none := by
    rw [Ty.eq_cls_of_isClass ht]
    exact Scalar.floatKind?_ty .int
  simp only [power, apply, Ty.fixed?_of_isInt ht, hfloat, onNumbers, hv.number?_int ht, hw.number?_int hu]

theorem power_exact (hu : u.isInt = true) (hb : 0 ≤ b) : power t v w = .ok (.int (a ^ b.toNat)) := by
  rw [power_int hv hw ht hu]
  simp only [Number.pow, Number.pair, ge_iff_le, hb, if_true, Integer.pow_eq]
  rfl

/-- A negative exponent leads to floats. -/
theorem power_negative (hu : u.isInt = true) (hb : b < 0) :
    Gives (fun x => ∃ y, x = .float .general y) IsPowerFault (power t v w) := by
  rw [power_int hv hw ht hu]
  refine Gives.map ?_ (P := fun m => ∃ z, m = Number.float .general z) (by rintro _ ⟨z, rfl⟩; exact ⟨z, rfl⟩)
  simp only [Number.pow, Number.pair, ge_iff_le, not_le.mpr hb, if_false]
  split
  · exact .error (.inr rfl)
  · exact .error (.inr rfl)
  · exact floatPower_gives _ _

/-! ### Shifts -/

theorem shift_int (k : ShiftKind) (hu : u.isInt = true) :
    shift k t v w =
      if b < 0 then .error (.host .value)
      else if k = .left ∧ a ≠ 0 ∧ Number.shiftLimit < b then .error (.host .overflow)
      else .ok (.int (k.exact a b.toNat)) := by
  rw [shift_numbers k ht (hv.number?_int ht) (hw.number?_int hu), k.onNumbers_int]
  split_ifs <;> rfl

/-- A count of a width takes the operand into the width, as far as it is in it. -/
theorem shift_adapted (k : ShiftKind) (hu : u.fixed? = some i) (ha : i.Holds a) :
    ∃ m, shift k t v w = .ok (.fixed i m) ∧ (0 ≤ b → i.IsResidue (k.exact a b.toNat) m) ∧
      (b < 0 → m = if k = .right ∧ a < 0 then -1 else 0) := by
  obtain ⟨m, hm, hspec⟩ := k.onNumbers_adapted ha b
  refine ⟨m, ?_, hspec⟩
  rw [shift_numbers k ht (hv.number?_int ht) (hw.number?_fixed hu), hm]
  rfl

theorem shift_outside (k : ShiftKind) (hu : u.fixed? = some i) (ha : ¬i.Holds a) :
    shift k t v w = .error (.host .overflow) := by
  rw [shift_numbers k ht (hv.number?_int ht) (hw.number?_fixed hu), k.onNumbers_outside ha]
  rfl

end

end Arithmetic

/-! ## Nodes -/

namespace Node

variable {l : Library} {host : Host} {apply : Apply} {frame : Frame} {h h₁ h₂ : Heap} {left right n : Node}
  {v w : Value} {a b : Int}

/-- Powers and shifts of unbounded integers. With an unbounded exponent or count that is not negative they yield the exact
value, unless a shift to the left is too large; a negative count is a fault, and a negative exponent gives a float or a
fault of floats. A count of a width asks for an operand in the width and yields the residue of the exact value there, and
a negative one leaves no bits. -/
theorem eval_unbounded (ht : left.type.isInt = true) (hl : (left.eval host apply frame).run h = (.ok v, h₁))
    (hv : v.IsInteger left.type a) (hr : (right.eval host apply frame).run h₁ = (.ok w, h₂))
    (hw : w.IsInteger right.type b) :
    (∀ n, mkBinary l (.binary (.operation (.arithmetic .power))) left right = .ok n →
      ∃ r, (n.eval host apply frame).run h = (r, h₂) ∧ (0 ≤ b → r = .ok (.int (a ^ b.toNat))) ∧
        (b < 0 → (∃ x, r = .ok (.float .general x)) ∨ ∃ f, r = .error f ∧ (f.kind = .zeroDivision ∨ f.kind = .overflow))) ∧
    (∀ k n, mkBinary l (.binary (.operation (.shift k))) left right = .ok n →
      ∃ r, (n.eval host apply frame).run h = (r, h₂) ∧
        (right.type.isInt = true → 0 ≤ b → r = .ok (.int (k.exact a b.toNat)) ∨
          k = .left ∧ a ≠ 0 ∧ Number.shiftLimit < b ∧ r = .error (.host .overflow)) ∧
        (right.type.isInt = true → b < 0 → r = .error (.host .value)) ∧
        (∀ i, right.type.fixed? = some i → i.Holds a → ∃ m, r = .ok (.fixed i m) ∧
          (0 ≤ b → i.IsResidue (k.exact a b.toNat) m) ∧ (b < 0 → m = if k = .right ∧ a < 0 then -1 else 0)) ∧
        (∀ i, right.type.fixed? = some i → ¬i.Holds a → r = .error (.host .overflow))) := by
  refine ⟨fun n hn => ?_, fun k n hn => ?_⟩
  · obtain ⟨⟨hsame, -⟩, rfl⟩ := mkBinary_operation.mp hn
    have hu : right.type.isInt = true := Ty.isInt_congr hsame ▸ ht
    refine ⟨_, eval_operation hl hr hv.isScalar hw.isScalar, Arithmetic.power_exact hv hw ht hu, fun hb => ?_⟩
    have hgives := Arithmetic.power_negative hv hw ht hu hb
    change (∃ x, Arithmetic.power left.type v w = _) ∨ ∃ f, Arithmetic.power left.type v w = _ ∧ _
    generalize Arithmetic.power left.type v w = r at hgives
    cases hgives with
    | ok hx => exact .inl (hx.imp fun _ => congrArg _)
    | error hf => exact .inr ⟨_, rfl, hf⟩
  · obtain ⟨-, rfl⟩ := mkBinary_operation.mp hn
    refine ⟨_, eval_operation hl hr hv.isScalar hw.isScalar, ?_, ?_, ?_, ?_⟩
    · intro hu hb
      have hshift := Arithmetic.shift_int hv hw ht k hu
      rw [if_neg (not_lt.mpr hb)] at hshift
      split at hshift
      · next hlarge => exact .inr ⟨hlarge.1, hlarge.2.1, hlarge.2.2, hshift⟩
      · exact .inl hshift
    · intro hu hb
      exact (Arithmetic.shift_int hv hw ht k hu).trans (if_pos hb)
    · exact fun i hu ha => Arithmetic.shift_adapted hv hw ht k hu ha
    · exact fun i hu ha => Arithmetic.shift_outside hv hw ht k hu ha

/-- Minus seven, shifted to the right by one place. -/
theorem eval_unbounded_halved :
    let left := Node.constant (.int (-7)) Scalar.int.ty
    let right := Node.constant (.int 1) Scalar.int.ty
    left.type.isInt = true ∧ (Value.int (-7)).IsInteger left.type (-7) ∧ (Value.int 1).IsInteger right.type 1 ∧
      ∃ n, mkBinary Sample.host.library (.binary (.operation (.shift .right))) left right = .ok n ∧
        (n.eval Sample.host Sample.host.apply []).run ⟨#[]⟩ = (.ok (.int ⌊(-7 : ℚ) / 2⌋), ⟨#[]⟩) := by
  intro left right
  have ht : left.type.isInt = true := Scalar.isInt_ty _
  have hv : (Value.int (-7)).IsInteger left.type (-7) := .int ht _
  have hw : (Value.int 1).IsInteger right.type 1 := .int ht _
  have hfor : (Operation.shift .right).IsFor left.type right.type := ⟨hv.isInteger, hw.isInteger⟩
  have hn := (mkBinary_operation (l := Sample.host.library)).mpr ⟨hfor, rfl⟩
  refine ⟨ht, hv, hw, _, hn, ?_⟩
  obtain ⟨r, hr, hexact, -⟩ := (eval_unbounded ht rfl hv rfl hw).2 .right _ hn
  obtain rfl | h := hexact ht (by decide)
  · simpa [ShiftKind.exact] using hr
  · cases h.1

/-- One, shifted to the left by seven places of a count of eight bits: the type is that of unbounded integers, and the
value is not. -/
theorem eval_unbounded_wraps :
    let left := Node.constant (.int 1) Scalar.int.ty
    let right := Node.constant (.fixed ⟨true, .w8⟩ 7) (Scalar.fixed ⟨true, .w8⟩).ty
    ∃ n, mkBinary Sample.host.library (.binary (.operation (.shift .left))) left right = .ok n ∧ n.type.isInt = true ∧
      (n.eval Sample.host Sample.host.apply []).run ⟨#[]⟩ = (.ok (.fixed ⟨true, .w8⟩ (-128)), ⟨#[]⟩) := by
  intro left right
  have hleft : left.type.isInteger = true := Scalar.isInteger_ty .int
  have hright : right.type.isInteger = true := Scalar.isInteger_ty (.fixed ⟨true, .w8⟩)
  refine ⟨_, mkBinary_operation.mpr ⟨⟨hleft, hright⟩, rfl⟩, Scalar.isInt_ty .int, ?_⟩
  rw [eval_operation rfl rfl (.inr rfl) (.inr rfl)]
  rfl

end Node

end ExprTree
