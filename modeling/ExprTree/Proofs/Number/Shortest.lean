import ExprTree.Number.Shortest
import ExprTree.Proofs.Number.Digits
import ExprTree.Proofs.Number.Rounding

/-!
# The shortest digits are near

Among the decimals that are tried the last ones are so fine that one of them
lies in the interval around the number. So a decimal is found, it lies in the
interval, and the number comes out when it is rounded.
-/

namespace ExprTree

/-! ## Numbers of digits -/

theorem lt_pow_digitCount (n : Nat) : n < 10 ^ digitCount n :=
  (Text.length_toDigits_le Nat.length_toDigits_pos).mp le_rfl

theorem pow_digitCount_le {n : Nat} (hn : 0 < n) : 10 ^ (digitCount n - 1) ≤ n := by
  by_contra h
  have hcount : 0 < digitCount n - 1 := by
    by_contra hzero
    rw [Nat.eq_zero_of_not_pos hzero] at h
    omega
  have := (Text.length_toDigits_le hcount).mpr (not_le.mp h)
  unfold digitCount at hcount
  unfold digitCount at this
  omega

theorem decimalLog_le {num den : Nat} (hnum : 0 < num) (hden : 0 < den) :
    (10 : ℚ) ^ decimalLog num den ≤ num / den := by
  have hd : (0 : ℚ) < den := by exact_mod_cast hden
  unfold decimalLog
  split
  · next h =>
    have hpos : 0 < digitCount (num / den) := Nat.length_toDigits_pos
    have hle := pow_digitCount_le (Nat.div_pos h hden)
    rw [show (digitCount (num / den) : Int) - 1 = ((digitCount (num / den) - 1 : Nat) : Int) by omega, zpow_natCast,
      le_div_iff₀ hd]
    have := Nat.mul_le_of_le_div den _ num hle
    exact_mod_cast this
  · next h =>
    generalize hq : (den + num - 1) / num = q
    have hden_le : den ≤ q * num := by
      have hlt := Nat.lt_mul_div_succ (den + num - 1) hnum
      rw [hq, Nat.mul_add, Nat.mul_comm num q] at hlt
      omega
    have hq_le : q ≤ 10 ^ digitCount (q - 1) := by
      have := lt_pow_digitCount (q - 1)
      omega
    have hpow : (0 : ℚ) < 10 ^ digitCount (q - 1) := by positivity
    rw [zpow_neg, zpow_natCast, inv_le_iff_one_le_mul₀ hpow, div_mul_eq_mul_div, one_le_div hd]
    calc (den : ℚ) ≤ q * num := by exact_mod_cast hden_le
      _ ≤ 10 ^ digitCount (q - 1) * num := by gcongr; exact_mod_cast hq_le
      _ = num * 10 ^ digitCount (q - 1) := mul_comm _ _

/-! ## The interval -/

namespace Format

/-- The lower end of the interval of a number. -/
def lowEnd (f : Format) (m : Nat) (e : Int) : ℚ :=
  (if m = 2 ^ (f.precision - 1) ∧ e > f.minExponent then (m - 1 / 4 : ℚ) else m - 1 / 2) * 2 ^ e

def highEnd (m : Nat) (e : Int) : ℚ :=
  (m + 1 / 2) * 2 ^ e

variable {f : Format} {m d : Nat} {e k : Int}

/-- A decimal as a quotient of natural numbers. -/
def decimalQuotient (d : Nat) (k : Int) : Nat × Nat :=
  if k ≥ 0 then (d * 10 ^ k.toNat, 1) else (d, 10 ^ (-k).toNat)

theorem decimalQuotient_pos (d : Nat) (k : Int) : 0 < (decimalQuotient d k).2 := by
  unfold decimalQuotient
  split
  · exact Nat.one_pos
  · exact Nat.pow_pos (by decide)

theorem decimalQuotient_value (d : Nat) (k : Int) :
    ((decimalQuotient d k).1 : ℚ) / (decimalQuotient d k).2 = d * 10 ^ k := by
  unfold decimalQuotient
  split
  · next h =>
    have hk : (10 : ℚ) ^ k = 10 ^ k.toNat := by rw [← zpow_natCast, Int.toNat_of_nonneg h]
    push_cast
    rw [hk, div_one]
  · next h =>
    have hk : (10 : ℚ) ^ k = (10 ^ (-k).toNat)⁻¹ := by
      rw [← zpow_natCast, Int.toNat_of_nonneg (by omega), zpow_neg, inv_inv]
    push_cast
    rw [hk, div_eq_mul_inv]

theorem interval_ends (hm : 0 < m) :
    0 < (f.interval m e).divisor ∧
      ((f.interval m e).value : ℚ) / (f.interval m e).divisor = m * 2 ^ e ∧
      ((f.interval m e).low : ℚ) / (f.interval m e).divisor = f.lowEnd m e ∧
      ((f.interval m e).high : ℚ) / (f.interval m e).divisor = highEnd m e := by
  have hscaled := scaled_value 1 1 (e - 2)
  have hpos := scaled_pos 1 Nat.one_pos (e - 2)
  have hquarter : (2 : ℚ) ^ (e - 2) = 2 ^ e / 4 := by
    rw [zpow_sub₀ (by norm_num)]
    norm_num
  rw [hquarter, Nat.cast_one, div_one, one_mul] at hscaled
  unfold interval lowEnd highEnd
  dsimp only
  generalize scaled 1 1 (e - 2) = q at hscaled hpos
  refine ⟨hpos, ?_, ?_, ?_⟩
  · push_cast
    rw [mul_div_assoc, hscaled]
    ring
  · have hiff : (m == 2 ^ (f.precision - 1) && decide (e > f.minExponent)) = true ↔
        m = 2 ^ (f.precision - 1) ∧ e > f.minExponent := by simp
    by_cases hn : m = 2 ^ (f.precision - 1) ∧ e > f.minExponent
    · rw [if_pos (hiff.mpr hn), if_pos hn, Nat.cast_mul, Nat.cast_sub (show 1 ≤ 4 * m by omega), mul_div_assoc, hscaled]
      push_cast
      ring
    · rw [if_neg (mt hiff.mp hn), if_neg hn, Nat.cast_mul, Nat.cast_sub (show 2 ≤ 4 * m by omega), mul_div_assoc, hscaled]
      push_cast
      ring
  · push_cast
    rw [mul_div_assoc, hscaled]
    ring

theorem contains_eq (i : RoundingInterval) (d : Nat) (k : Int) :
    i.contains d k =
      if i.closed then
        i.low * (decimalQuotient d k).2 ≤ (decimalQuotient d k).1 * i.divisor &&
          (decimalQuotient d k).1 * i.divisor ≤ i.high * (decimalQuotient d k).2
      else
        i.low * (decimalQuotient d k).2 < (decimalQuotient d k).1 * i.divisor &&
          (decimalQuotient d k).1 * i.divisor < i.high * (decimalQuotient d k).2 := rfl

/-- What it is for a decimal to lie in the interval. -/
theorem contains_iff (hm : 0 < m) : (f.interval m e).contains d k = true ↔
    if m % 2 = 0 then f.lowEnd m e ≤ d * 10 ^ k ∧ (d * 10 ^ k : ℚ) ≤ highEnd m e
    else f.lowEnd m e < d * 10 ^ k ∧ (d * 10 ^ k : ℚ) < highEnd m e := by
  obtain ⟨hdivisor, -, hlow, hhigh⟩ := interval_ends (f := f) (e := e) hm
  have hpos := decimalQuotient_pos d k
  have hvalue := decimalQuotient_value d k
  rw [contains_eq]
  generalize decimalQuotient d k = q at hpos hvalue
  have hclosed : (f.interval m e).closed = (m % 2 == 0) := rfl
  generalize f.interval m e = i at hdivisor hlow hhigh hclosed
  have hD : (0 : ℚ) < i.divisor := by exact_mod_cast hdivisor
  have hq : (0 : ℚ) < q.2 := by exact_mod_cast hpos
  rw [← hlow, ← hhigh, ← hvalue, hclosed]
  rw [div_le_div_iff₀ hD hq, div_le_div_iff₀ hq hD, div_lt_div_iff₀ hD hq, div_lt_div_iff₀ hq hD]
  norm_cast
  by_cases heven : m % 2 = 0
  · simp [heven]
  · simp [heven]

theorem isNear_of_contains (hm : 0 < m) (h : (f.interval m e).contains d k = true) : f.IsNear m e (d * 10 ^ k) := by
  rw [contains_iff hm] at h
  have htwo : (0 : ℚ) < 2 ^ e := by positivity
  have hlowEnd : (m - 1 / 2) * 2 ^ e ≤ f.lowEnd m e := by
    unfold lowEnd
    split
    · exact mul_le_mul_of_nonneg_right (by linarith) htwo.le
    · exact le_rfl
  have hle : f.lowEnd m e ≤ d * 10 ^ k ∧ (d * 10 ^ k : ℚ) ≤ highEnd m e := by
    split at h
    · exact h
    · exact ⟨h.1.le, h.2.le⟩
  refine ⟨hlowEnd.trans hle.1, fun hmin he => ?_, hle.2, fun hodd => ?_⟩
  · have := hle.1
    rwa [lowEnd, if_pos ⟨hmin, he⟩] at this
  · rw [if_neg (by omega)] at h
    exact ⟨hlowEnd.trans_lt h.1, h.2⟩

/-- Well inside the interval it does not matter whether its ends belong to it. -/
theorem contains_of_close (hm : 0 < m) (hlow : ((m - 1 / 4) * 2 ^ e : ℚ) < d * 10 ^ k)
    (hhigh : (d * 10 ^ k : ℚ) < (m + 1 / 2) * 2 ^ e) : (f.interval m e).contains d k = true := by
  have htwo : (0 : ℚ) < 2 ^ e := by positivity
  have hlowEnd : f.lowEnd m e ≤ (m - 1 / 4 : ℚ) * 2 ^ e := by
    unfold lowEnd
    split
    · exact le_rfl
    · exact mul_le_mul_of_nonneg_right (by linarith) htwo.le
  rw [contains_iff hm]
  split
  · exact ⟨(hlowEnd.trans_lt hlow).le, hhigh.le⟩
  · exact ⟨hlowEnd.trans_lt hlow, hhigh⟩

end Format

/-! ## The search -/

namespace RoundingInterval

/-- The value in steps of the grid of `10 ^ k`. -/
def steps (i : RoundingInterval) (k : Int) : Nat × Nat :=
  if k ≥ 0 then (i.value, i.divisor * 10 ^ k.toNat) else (i.value * 10 ^ (-k).toNat, i.divisor)

/-- The decimal of the grid that is nearest to the value. -/
def nearest (i : RoundingInterval) (k : Int) : Nat :=
  roundDiv (i.steps k).1 (i.steps k).2

/-- The decimal of the grid on the other side of the value. -/
def opposite (i : RoundingInterval) (k : Int) : Nat :=
  if i.nearest k = (i.steps k).1 / (i.steps k).2 then (i.steps k).1 / (i.steps k).2 + 1 else (i.steps k).1 / (i.steps k).2

theorem onGrid_eq (i : RoundingInterval) (k : Int) :
    i.onGrid? k =
      if i.contains (i.nearest k) k then some (i.nearest k)
      else if i.contains (i.opposite k) k then some (i.opposite k)
      else none := rfl

variable {i : RoundingInterval} {d : Nat} {k : Int}

theorem contains_of_onGrid (h : i.onGrid? k = some d) : i.contains d k = true := by
  rw [onGrid_eq] at h
  split at h
  · next hc =>
    cases h
    exact hc
  · split at h
    · next hc =>
      cases h
      exact hc
    · cases h

theorem steps_pos (hd : 0 < i.divisor) (k : Int) : 0 < (i.steps k).2 := by
  unfold steps
  split
  · exact Nat.mul_pos hd (Nat.pow_pos (by decide))
  · exact hd

theorem steps_value (i : RoundingInterval) (k : Int) :
    ((i.steps k).1 : ℚ) / (i.steps k).2 = i.value / i.divisor * 10 ^ (-k) := by
  unfold steps
  split
  · next h =>
    have hk : (10 : ℚ) ^ (-k) = (10 ^ k.toNat)⁻¹ := by
      rw [← zpow_natCast, Int.toNat_of_nonneg h, zpow_neg]
    push_cast
    rw [hk, div_mul_eq_div_div, div_eq_mul_inv _ ((10 : ℚ) ^ k.toNat)]
  · next h =>
    have hk : (10 : ℚ) ^ (-k) = 10 ^ (-k).toNat := by
      rw [← zpow_natCast, Int.toNat_of_nonneg (by omega)]
    push_cast
    rw [hk]
    ring

/-- If a grid within reach has a decimal of the interval, such a decimal is what is found. -/
theorem search_contains {n j : Nat} (hj : j ≤ n) (h : (i.onGrid? (k - j)).isSome) :
    i.contains (i.search n k).1 (i.search n k).2 = true := by
  induction n generalizing k j with
  | zero =>
    obtain rfl : j = 0 := by omega
    rw [Nat.cast_zero, sub_zero] at h
    obtain ⟨d, hd⟩ := Option.isSome_iff_exists.mp h
    rw [search, hd]
    exact contains_of_onGrid hd
  | succ n ih =>
    rw [search]
    cases hk : i.onGrid? k with
    | some d => exact contains_of_onGrid hk
    | none =>
      cases j with
      | zero =>
        rw [Nat.cast_zero, sub_zero, hk] at h
        cases h
      | succ j =>
        refine ih (j := j) (by omega) ?_
        rwa [show k - 1 - j = k - (j + 1 : Nat) by omega]

/-- The nearest decimal of a grid is at most half a step away. -/
theorem nearest_close {n d : Nat} (hd : 0 < d) : |(roundDiv n d : ℚ) - n / d| ≤ 1 / 2 := by
  have hd' : (0 : ℚ) < d := by exact_mod_cast hd
  have hdiv := Nat.div_add_mod n d
  have hmod := Nat.mod_lt n hd
  have hbounds : 2 * (roundDiv n d * d) ≤ 2 * n + d ∧ 2 * n ≤ 2 * (roundDiv n d * d) + d := by
    unfold roundDiv
    simp only [Bool.or_eq_true, decide_eq_true_eq, Bool.and_eq_true, beq_iff_eq]
    split
    · rw [Nat.add_mul, Nat.mul_comm (n / d) d]
      omega
    · rw [Nat.mul_comm (n / d) d]
      omega
  obtain ⟨hlow, hhigh⟩ := hbounds
  have hlow' : (2 * (roundDiv n d * d) : ℚ) ≤ 2 * n + d := by exact_mod_cast hlow
  have hhigh' : (2 * n : ℚ) ≤ 2 * (roundDiv n d * d) + d := by exact_mod_cast hhigh
  rw [abs_le, neg_le_sub_iff_le_add, sub_le_iff_le_add, div_le_iff₀ hd', ← sub_le_iff_le_add', le_div_iff₀ hd']
  constructor <;> nlinarith

end RoundingInterval

/-- Removing zeros does not change the value. -/
theorem stripZeros_value (n d : Nat) (k : Int) :
    ((stripZeros n d k).1 * 10 ^ (stripZeros n d k).2 : ℚ) = d * 10 ^ k := by
  induction n generalizing d k with
  | zero => rfl
  | succ n ih =>
    rw [stripZeros]
    split
    · next h =>
      simp only [Bool.and_eq_true, decide_eq_true_eq] at h
      have hd : (d : ℚ) = (d / 10 : Nat) * 10 := by
        exact_mod_cast (Nat.div_mul_cancel (Nat.dvd_of_mod_eq_zero h.1)).symm
      rw [ih, hd, zpow_add_one₀ (by norm_num)]
      ring
    · rfl

namespace Format

variable {f : Format} {m : Nat} {e : Int}

/-- The finest grid has a decimal in the interval: half its step is less than a quarter of the
last digit of any number with 53 digits. -/
theorem onGrid_isSome (hm : 0 < m) (hmax : m < 2 ^ 53) :
    ((f.interval m e).onGrid? (decimalLog (f.interval m e).value (f.interval m e).divisor - (17 : Nat))).isSome := by
  obtain ⟨hdivisor, hvalue, -, -⟩ := interval_ends (f := f) (e := e) hm
  have hvalue_pos : 0 < (f.interval m e).value := by
    have : (0 : ℚ) < m * 2 ^ e := by positivity
    by_contra hzero
    rw [Nat.eq_zero_of_not_pos hzero, Nat.cast_zero, zero_div] at hvalue
    exact this.ne hvalue
  have hlog := decimalLog_le hvalue_pos hdivisor
  rw [hvalue] at hlog
  generalize decimalLog (f.interval m e).value (f.interval m e).divisor = k at hlog
  have hten : (0 : ℚ) < 10 ^ (k - (17 : Nat)) := by positivity
  have hstep : (10 : ℚ) ^ k = 10 ^ 17 * 10 ^ (k - (17 : Nat)) := by
    rw [← zpow_natCast (10 : ℚ) 17, ← zpow_add₀ (by norm_num), add_sub_cancel]
  have hclose := RoundingInterval.nearest_close (n := ((f.interval m e).steps (k - (17 : Nat))).1)
    (RoundingInterval.steps_pos hdivisor (k - (17 : Nat)))
  rw [RoundingInterval.steps_value, hvalue, zpow_neg, ← div_eq_mul_inv, abs_le] at hclose
  obtain ⟨hlow, hhigh⟩ := hclose
  rw [neg_le_sub_iff_le_add, div_le_iff₀ hten] at hlow
  rw [sub_le_iff_le_add', ← sub_le_iff_le_add, le_div_iff₀ hten] at hhigh
  have hcontains : (f.interval m e).contains ((f.interval m e).nearest (k - (17 : Nat))) (k - (17 : Nat)) = true := by
    have htwo : (0 : ℚ) < 2 ^ e := by positivity
    have hhalf : (10 : ℚ) ^ (k - (17 : Nat)) < 2 ^ e / 2 := by
      have hm' : (m : ℚ) ≤ 10 ^ 17 / 4 := by
        have : (m : ℚ) ≤ 2 ^ 53 := by exact_mod_cast hmax.le
        refine this.trans ?_
        norm_num
      rw [hstep] at hlog
      have := hlog.trans (mul_le_mul_of_nonneg_right hm' htwo.le)
      linarith
    unfold RoundingInterval.nearest
    refine contains_of_close hm ?_ ?_ <;> linarith
  rw [RoundingInterval.onGrid_eq, if_pos hcontains]
  rfl

theorem shortest_near (hm : 0 < m) (hmax : m < 2 ^ 53) :
    f.IsNear m e ((f.shortest m e).1 * 10 ^ (f.shortest m e).2) := by
  have hfound := RoundingInterval.search_contains (i := f.interval m e)
    (k := decimalLog (f.interval m e).value (f.interval m e).divisor) le_rfl (onGrid_isSome hm hmax)
  unfold shortest
  dsimp only
  rw [stripZeros_value]
  exact isNear_of_contains hm hfound

end Format

end ExprTree
