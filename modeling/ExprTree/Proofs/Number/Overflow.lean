import ExprTree.Proofs.Number.RoundTrip

/-!
# Where rounding overflows

A quotient is rounded to an infinity from half a unit of the last digit above
the greatest number of the format. For decimals this is so whatever their
digits and exponents are, since those that are not computed lie far outside.
-/

namespace ExprTree

/-- Even numbers are reached half a unit below them. -/
theorem roundDiv_lt_iff {n d k : Nat} (hd : 0 < d) (heven : k % 2 = 0) : roundDiv n d < k ↔ 2 * n + d < 2 * (k * d) := by
  have hdiv : d * (n / d) + n % d = n := Nat.div_add_mod n d
  have hmod : n % d < d := Nat.mod_lt n hd
  unfold roundDiv
  simp only [Bool.or_eq_true, decide_eq_true_eq, Bool.and_eq_true, beq_iff_eq]
  generalize n / d = q at hdiv
  obtain h | rfl | h : k ≤ q ∨ q + 1 = k ∨ q + 2 ≤ k := by omega
  · have := Nat.mul_le_mul_left d h
    rw [Nat.mul_comm k d]
    split <;> omega
  · rw [Nat.mul_comm (q + 1) d, Nat.mul_succ]
    split <;> omega
  · have := Nat.mul_le_mul_left d h
    rw [Nat.mul_add] at this
    rw [Nat.mul_comm k d]
    split <;> omega

namespace Format

variable {f : Format} {negative : Bool} {num den : Nat}

/-- The least magnitude that is rounded to an infinity. -/
def overflow (f : Format) : ℚ :=
  (2 ^ f.precision - 1 / 2) * 2 ^ f.maxExponent

theorem digits_lt_iff (hden : 0 < den) {k : Nat} (heven : k % 2 = 0) :
    f.digits num den < k ↔ (num / den : ℚ) < (k - 1 / 2) * 2 ^ f.unit num den := by
  have hvalue := scaled_value num den (-f.unit num den)
  have hpos := scaled_pos num hden (-f.unit num den)
  unfold digits
  generalize scaled num den (-f.unit num den) = q at hvalue hpos
  have hq : (0 : ℚ) < q.2 := by exact_mod_cast hpos
  have htwo : (0 : ℚ) < 2 ^ f.unit num den := by positivity
  rw [roundDiv_lt_iff hpos heven, ← div_lt_iff₀ htwo, div_eq_mul_inv, ← zpow_neg, ← hvalue, div_lt_iff₀ hq]
  rw [← Nat.cast_lt (α := ℚ)]
  push_cast
  constructor <;> intro h <;> linarith

theorem rounded_le_iff (hp : 0 < f.precision) (hnum : 0 < num) (hden : 0 < den) :
    (f.rounded num den).2 ≤ f.maxExponent ↔
      f.unit num den < f.maxExponent ∨ f.unit num den = f.maxExponent ∧ f.digits num den < 2 ^ f.precision := by
  have hdigits := (digits_bounds (f := f) hp hnum hden).1
  unfold rounded
  split <;> (dsimp only; omega)

theorem isFinite_round_iff (hp : 0 < f.precision) (hrange : f.minExponent ≤ f.maxExponent) (hnum : 0 < num)
    (hden : 0 < den) : (f.round negative num den).isFinite = true ↔ (num / den : ℚ) < f.overflow := by
  have hfinite : (f.round negative num den).isFinite = true ↔ (f.rounded num den).2 ≤ f.maxExponent := by
    rw [round_eq hnum.ne']
    split
    · next h => simpa [Binary.isFinite] using h
    · next h => simpa [Binary.isFinite] using h
  obtain ⟨hlow, hhigh⟩ := floorLog_spec hnum hden
  have htop : (2 : ℚ) ^ ((f.precision : Int) + f.maxExponent) = 2 ^ f.precision * 2 ^ f.maxExponent := by
    rw [zpow_add₀ (by norm_num), zpow_natCast]
  have hlast : (0 : ℚ) < 2 ^ f.maxExponent := by positivity
  rw [hfinite, rounded_le_iff hp hnum hden]
  unfold overflow
  rcases lt_trichotomy (f.unit num den) f.maxExponent with hunit | hunit | hunit
  · -- with fewer digits than the format has, the quotient is below half of the bound
    have hlog : floorLog num den + 1 ≤ f.precision + f.maxExponent - 1 := by
      unfold unit at hunit
      omega
    have hhalf : (2 : ℚ) ^ (floorLog num den + 1) ≤ 2 ^ f.precision * 2 ^ f.maxExponent / 2 := by
      rw [← htop, div_eq_mul_inv, ← zpow_sub_one₀ (by norm_num)]
      exact zpow_le_zpow_right₀ (by norm_num) hlog
    have hone : (1 : ℚ) ≤ 2 ^ f.precision := one_le_pow₀ (by norm_num)
    simp only [hunit, true_or, true_iff]
    nlinarith
  · have heven : 2 ^ f.precision % 2 = 0 := Nat.mod_eq_zero_of_dvd (dvd_pow_self 2 hp.ne')
    have hdigits : f.digits num den < 2 ^ f.precision ↔ _ := digits_lt_iff hden heven
    rw [hunit] at hdigits
    simp only [hunit, lt_irrefl, false_or, true_and, hdigits]
    push_cast
    rfl
  · have hlog : f.precision + f.maxExponent ≤ floorLog num den := by
      unfold unit at hunit
      omega
    have hlarge : (2 : ℚ) ^ f.precision * 2 ^ f.maxExponent ≤ num / den :=
      htop ▸ (zpow_le_zpow_right₀ (by norm_num) hlog).trans hlow
    constructor
    · omega
    · intro h
      linarith

/-! ## Decimals -/

theorem double_overflow : double.overflow = 2 ^ 1024 - 2 ^ 970 := by
  have htop : (2 : ℚ) ^ 1024 = 2 ^ 53 * 2 ^ (971 : Int) := by rw [zpow_ofNat, ← pow_add]
  have hhalf : (2 : ℚ) ^ 970 = 1 / 2 * 2 ^ (971 : Int) := by
    rw [zpow_ofNat, pow_succ' _ 970, one_div, inv_mul_cancel_left₀ (by norm_num)]
  rw [htop, hhalf, ← sub_mul]
  rfl

theorem two_pow_le_double_overflow : 2 ^ 970 ≤ double.overflow := by
  have htwice : (2 : ℚ) ^ 970 + 2 ^ 970 ≤ 2 ^ 1024 := by
    rw [← mul_two, ← pow_succ]
    exact pow_le_pow_right₀ (by norm_num) (by norm_num)
  rw [double_overflow]
  exact le_sub_iff_add_le.mpr htwice

theorem double_overflow_lt : double.overflow < 10 ^ (400 : Int) := by
  have hlt : (2 ^ 53 * 2 ^ 971 : ℚ) < 10 ^ 400 := cast_two_pow_lt (by decide +kernel)
  have htop : (2 : ℚ) ^ 1024 = 2 ^ 53 * 2 ^ 971 := by rw [← pow_add]
  rw [double_overflow, zpow_ofNat, htop]
  exact (sub_lt_self _ (by positivity)).trans hlt

/-- The bounds on the magnitude of what is computed do not show. -/
theorem isFinite_ofDecimal_iff (d : Nat) (k : Int) :
    (double.ofDecimal negative (Nat.toDigits 10 d) k).isFinite = true ↔ (d * 10 ^ k : ℚ) < double.overflow := by
  have hone : 1 ≤ double.overflow := (one_le_pow₀ (by norm_num)).trans two_pow_le_double_overflow
  have hlt := double_overflow_lt
  rcases Nat.eq_zero_or_pos d with rfl | hd
  · simp only [ofDecimal, Text.natOfDigits_toDigits, if_true, Binary.isFinite, true_iff, Nat.cast_zero, zero_mul]
    linarith
  obtain ⟨hlow, hhigh⟩ := decimal_bounds hd.ne' k
  by_cases hlarge : k + digitCount d > 400
  · have hge : (10 : ℚ) ^ (400 : Int) ≤ d * 10 ^ k := (zpow_le_zpow_right₀ (by norm_num) (by omega)).trans hlow
    simp only [ofDecimal, Text.natOfDigits_toDigits, if_neg hd.ne', if_pos hlarge, Binary.isFinite, Bool.false_eq_true,
      false_iff, not_lt]
    linarith
  by_cases hsmall : k + digitCount d < -400
  · have hle : (10 : ℚ) ^ (k + digitCount d) ≤ 10 ^ (0 : Int) := zpow_le_zpow_right₀ (by norm_num) (by omega)
    simp only [ofDecimal, Text.natOfDigits_toDigits, if_neg hd.ne', if_neg hlarge, if_pos hsmall, Binary.isFinite, true_iff]
    rw [zpow_zero] at hle
    linarith
  · have hvalue := decimalQuotient_value d k
    have hpos := decimalQuotient_pos d k
    have hnum : 0 < (decimalQuotient d k).1 := by
      by_contra hzero
      rw [Nat.eq_zero_of_not_pos hzero, Nat.cast_zero, zero_div] at hvalue
      have : (0 : ℚ) < d * 10 ^ k := by positivity
      linarith
    have hdigits := Text.natOfDigits_toDigits d
    rw [ofDecimal_eq (by omega) (by rw [hdigits]; omega) (by rw [hdigits]; omega), hdigits,
      isFinite_round_iff (by decide) (by decide) hnum hpos, hvalue]

end Format

end ExprTree
