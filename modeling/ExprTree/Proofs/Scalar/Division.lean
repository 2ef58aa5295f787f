import ExprTree.Proofs.Scalar.Integers

/-!
# Division of integers

Quotients are truncated toward zero and remainders take the sign of the
dividend, in the unbounded integers and in every width. Narrowing never
changes a remainder, since a remainder lies between zero and the dividend; of
the quotients only one leaves its width.
-/

namespace ExprTree

namespace IntType

variable {t : IntType} {a b : Int}

/-! ## Quotients and remainders in a width -/

theorem low_of_signed (ht : t.signed = true) : t.low = -t.high - 1 := by
  obtain ⟨signed, width⟩ := t
  cases ht
  cases width <;> decide

theorem low_of_unsigned (ht : t.signed = false) : t.low = 0 := by
  obtain ⟨signed, width⟩ := t
  cases ht
  rfl

/-- A quotient leaves the width only where the least number is divided by minus one. -/
theorem holds_tdiv_iff (ha : t.Holds a) (hb : t.Holds b) (hzero : b ≠ 0) :
    t.Holds (a.tdiv b) ↔ ¬(t.signed = true ∧ a = t.low ∧ b = -1) := by
  have hhigh := t.high_pos
  unfold Holds at *
  cases hs : t.signed with
  | false =>
    have hlow := low_of_unsigned hs
    have hnonneg : 0 ≤ a.tdiv b := Int.tdiv_nonneg (by omega) (by omega)
    have hle : a.tdiv b ≤ a := Int.tdiv_le_self b (by omega)
    simp only [Bool.false_eq_true, false_and, not_false_eq_true, iff_true]
    omega
  | true =>
    have hlow := low_of_signed hs
    simp only [true_and]
    constructor
    · rintro ⟨-, h⟩ ⟨rfl, rfl⟩
      rw [Int.tdiv_neg, Int.tdiv_one] at h
      omega
    · intro hne
      by_cases hunit : b.natAbs = 1
      · obtain rfl | rfl : b = 1 ∨ b = -1 := by omega
        · rwa [Int.tdiv_one]
        · rw [Int.tdiv_neg, Int.tdiv_one]
          omega
      · -- no other quotient is more than half as large as the dividend
        have hsize := Int.natAbs_tdiv a b
        have hhalf : a.natAbs / b.natAbs ≤ a.natAbs / 2 := Nat.div_le_div_left (by omega) (by decide)
        change _ = a.natAbs / b.natAbs at hsize
        omega

/-- A remainder lies between zero and the dividend. -/
theorem holds_tmod (ha : t.Holds a) (b : Int) : t.Holds (a.tmod b) := by
  have hsize := Int.natAbs_tmod a b
  have hle : a.natAbs % b.natAbs ≤ a.natAbs := Nat.mod_le _ _
  have hlow := t.low_nonpos
  have hhigh := t.high_pos
  unfold Holds at *
  rcases Int.le_total 0 a with h | h
  · have := Int.tmod_nonneg b h
    omega
  · have := Int.tmod_nonneg b (Int.neg_nonneg_of_nonpos h)
    rw [Int.neg_tmod] at this
    omega

end IntType

namespace Ty

variable {t : Ty} {a b : Int}

/-- Is this the one division whose quotient is not in the type? -/
def Overflows (t : Ty) (a b : Int) : Prop :=
  ∃ i, t.fixed? = some i ∧ i.signed = true ∧ a = i.low ∧ b = -1

theorem contains_tdiv_iff (ha : t.Contains a) (hb : t.Contains b) (hzero : b ≠ 0) :
    t.Contains (a.tdiv b) ↔ ¬t.Overflows a b := by
  cases ht : t.fixed? with
  | none => simp [Contains, Overflows, ht]
  | some i =>
    rw [contains_fixed ht] at *
    rw [IntType.holds_tdiv_iff ha hb hzero]
    simp [Overflows, ht]

theorem contains_tmod (ha : t.Contains a) (b : Int) : t.Contains (a.tmod b) :=
  fun i ht => IntType.holds_tmod (ha i ht) b

end Ty

/-! ## Division -/

namespace Arithmetic

variable {t : Ty} {v w : Value} {a b : Int}

theorem truncatedQuotient_zero (a : Int) : truncatedQuotient a 0 = .error .divisionByZero := rfl

theorem truncatedQuotient_ne_zero (hb : b ≠ 0) : truncatedQuotient a b = .ok (a.tdiv b) := by
  rw [truncatedQuotient, if_neg hb]

section

variable (hv : v.IsInteger t a) (hw : w.IsInteger t b)
include hv hw

/-- The quotient is fitted to the type with a check, whatever the mode. -/
theorem divide_integers :
    divide t v w = truncatedQuotient a b >>= fun q => (t.fit true q).map t.integer := by
  unfold divide
  cases ht : t.fixed? with
  | some i => simp only [hv.integer_eq, hw.integer_eq, ok_bind, Ty.narrow_eq ht]
  | none =>
    have hint := Ty.isInt_of_isInteger hv.isInteger ht
    simp only [hv.integer_eq, hw.integer_eq, ok_bind, hint, if_true, Ty.fit_map_int hint]
    rfl

theorem modulo_integers :
    modulo t v w = truncatedQuotient a b >>= fun q => (t.fit false (a - b * q)).map t.integer := by
  unfold modulo
  rw [if_pos hv.isInteger]
  cases ht : t.fixed? with
  | some i => simp only [hv.integer_eq, hw.integer_eq, ok_bind, Ty.narrow_eq ht]
  | none =>
    have hint := Ty.isInt_of_isInteger hv.isInteger ht
    simp only [hv.integer_eq, hw.integer_eq, ok_bind, Ty.fit_map_int hint]
    rfl

theorem divide_zero (hb : b = 0) : divide t v w = .error .divisionByZero := by
  rw [divide_integers hv hw, hb, truncatedQuotient_zero, error_bind]

theorem modulo_zero (hb : b = 0) : modulo t v w = .error .divisionByZero := by
  rw [modulo_integers hv hw, hb, truncatedQuotient_zero, error_bind]

theorem divide_ok (hb : b ≠ 0) (hoverflow : ¬t.Overflows a b) :
    divide t v w = .ok (t.integer (a.tdiv b)) := by
  have hq := (Ty.contains_tdiv_iff hv.contains hw.contains hb).mpr hoverflow
  rw [divide_integers hv hw, truncatedQuotient_ne_zero hb, ok_bind, Ty.fit_of_contains hq, Except.map]

theorem divide_overflows (hb : b ≠ 0) (hoverflow : t.Overflows a b) :
    ∃ i, divide t v w = .error (.outOfRange i) := by
  have hq := (Ty.contains_tdiv_iff hv.contains hw.contains hb).not.mpr (not_not.mpr hoverflow)
  obtain ⟨i, ht, -⟩ := hoverflow
  rw [Ty.contains_fixed ht] at hq
  rw [divide_integers hv hw, truncatedQuotient_ne_zero hb, ok_bind, Ty.fit_fixed ht, IntType.fit, if_neg hq, if_pos rfl]
  exact ⟨i, rfl⟩

/-- The remainder is in the type, so that narrowing it changes nothing. -/
theorem modulo_ok (hb : b ≠ 0) :
    modulo t v w = .ok (t.integer (a.tmod b)) := by
  rw [modulo_integers hv hw, truncatedQuotient_ne_zero hb, ok_bind, ← Int.tmod_def,
    Ty.fit_of_contains (Ty.contains_tmod hv.contains b), Except.map]

theorem modulo_remainder (hb : b ≠ 0) :
    ∃ r, modulo t v w = .ok (t.integer r) ∧ t.Contains r ∧ |r| < |b| ∧ (r = 0 ∨ r.sign = a.sign) ∧ b ∣ a - r := by
  refine ⟨a.tmod b, modulo_ok hv hw hb, Ty.contains_tmod hv.contains b, ?_, ?_, Int.dvd_self_sub_tmod⟩
  · rw [Int.abs_eq_natAbs, Int.abs_eq_natAbs, Int.natAbs_tmod]
    exact_mod_cast Nat.mod_lt _ (Int.natAbs_pos.mpr hb)
  · by_cases hdvd : b ∣ a
    · exact .inl (Int.tmod_eq_zero_of_dvd hdvd)
    · exact .inr (by rw [Int.sign_tmod, if_neg hdvd])

end

/-- Division fails by zero, and for the least number of a signed width by minus one; remainders fail by zero. A
remainder is smaller than the divisor, has the sign of the dividend and leaves a multiple of the divisor, and the
quotient is the one toward zero, of which the dividend consists exactly. -/
theorem division_truncates (hv : v.IsInteger t a) (hw : w.IsInteger t b) :
    ((∃ f, divide t v w = .error f ∧ f.kind = .zeroDivision) ↔ b = 0) ∧
    ((∃ f, divide t v w = .error f ∧ f.kind = .overflow) ↔
      ∃ i, t.fixed? = some i ∧ i.signed = true ∧ a = i.low ∧ b = -1) ∧
    (∀ f, divide t v w = .error f → f.kind = .zeroDivision ∨ f.kind = .overflow) ∧
    ((∃ f, modulo t v w = .error f) ↔ b = 0) ∧
    (∀ f, modulo t v w = .error f → f.kind = .zeroDivision) ∧
    (b ≠ 0 → ∃ r, modulo t v w = .ok (t.integer r) ∧ t.Contains r ∧ |r| < |b| ∧ (r = 0 ∨ r.sign = a.sign) ∧ b ∣ a - r) ∧
    (∀ u, divide t v w = .ok u → ∃ q r, u = t.integer q ∧ t.Contains q ∧ modulo t v w = .ok (t.integer r) ∧
      a = q * b + r ∧ q = towardZero ((a : ℚ) / b)) := by
  change _ ∧ (_ ↔ t.Overflows a b) ∧ _
  by_cases hb : b = 0
  · have hoverflow : ¬t.Overflows a b := fun ⟨_, _, _, _, h⟩ => absurd (hb.symm.trans h) (by decide)
    simp [divide_zero hv hw hb, modulo_zero hv hw hb, hb, hb ▸ hoverflow, Fault.kind]
  have hmodulo := modulo_ok hv hw hb
  by_cases hoverflow : t.Overflows a b
  · obtain ⟨i, hdivide⟩ := divide_overflows hv hw hb hoverflow
    refine ⟨?_, ?_, ?_, ?_, ?_, modulo_remainder hv hw, ?_⟩ <;> simp [hdivide, hmodulo, hb, hoverflow, Fault.kind]
  · have hdivide := divide_ok hv hw hb hoverflow
    refine ⟨?_, ?_, ?_, ?_, ?_, modulo_remainder hv hw, ?_⟩
    case refine_6 =>
      intro u hu
      cases hdivide.symm.trans hu
      have hq := (Ty.contains_tdiv_iff hv.contains hw.contains hb).mpr hoverflow
      exact ⟨_, _, rfl, hq, hmodulo, (Int.tdiv_mul_add_tmod a b).symm, (towardZero_div a b).symm⟩
    all_goals simp [hdivide, hmodulo, hb, hoverflow]

/-- The least number of eight bits by minus one: no quotient, and no remainder is left. -/
theorem division_truncates_least :
    let t := (Scalar.fixed ⟨true, .w8⟩).ty
    let v := Value.fixed ⟨true, .w8⟩ (-128)
    let w := Value.fixed ⟨true, .w8⟩ (-1)
    v.IsInteger t (-128) ∧ w.IsInteger t (-1) ∧ (∃ f, divide t v w = .error f ∧ f.kind = .overflow) ∧
      ∃ r, modulo t v w = .ok (t.integer r) ∧ |r| < |(-1 : Int)| := by
  intro t v w
  have ht : t.fixed? = some ⟨true, .w8⟩ := Scalar.fixed?_ty _
  have hv : v.IsInteger t (-128) := .fixed ht (by decide)
  have hw : w.IsInteger t (-1) := .fixed ht (by decide)
  obtain ⟨-, hoverflow, -, -, -, hremainder, -⟩ := division_truncates hv hw
  obtain ⟨r, hr, -, hsize, -⟩ := hremainder (by decide)
  exact ⟨hv, hw, hoverflow.mpr ⟨_, ht, rfl, rfl, rfl⟩, r, hr, hsize⟩

end Arithmetic

end ExprTree
