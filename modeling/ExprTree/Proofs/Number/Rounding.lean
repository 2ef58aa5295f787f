import ExprTree.Number.Binary
import Mathlib.Algebra.Order.Field.Power
import Mathlib.Data.Rat.Cast.Order
import Mathlib.Tactic.FieldSimp
import Mathlib.Tactic.Linarith
import Mathlib.Tactic.NormNum
import Mathlib.Tactic.Positivity
import Mathlib.Tactic.Ring

/-!
# Rounding to a format

A number of a format comes out of every quotient that lies half way to its
neighbours or nearer. In particular its own value rounds to it, so converting
it to the format changes nothing, and neither does a detour through a format
that holds the number as well.
-/

namespace ExprTree

/-! ## Quotients -/

theorem scaled_pos (num : Nat) {den : Nat} (h : 0 < den) (e : Int) : 0 < (scaled num den e).2 := by
  unfold scaled
  split
  · exact h
  · exact Nat.mul_pos h (Nat.two_pow_pos _)

theorem scaled_value (num den : Nat) (e : Int) :
    ((scaled num den e).1 : ℚ) / (scaled num den e).2 = num / den * 2 ^ e := by
  unfold scaled
  split
  · next h =>
    have he : (2 : ℚ) ^ e = 2 ^ e.toNat := by
      rw [← zpow_natCast, Int.toNat_of_nonneg h]
    push_cast
    rw [he]
    ring
  · next h =>
    have he : (2 : ℚ) ^ e = (2 ^ (-e).toNat)⁻¹ := by
      rw [← zpow_natCast, Int.toNat_of_nonneg (by omega), zpow_neg, inv_inv]
    push_cast
    rw [he, div_mul_eq_div_div, div_eq_mul_inv _ ((2 : ℚ) ^ (-e).toNat)]

theorem roundDiv_eq {n d m : Nat} (hd : 0 < d) (hlow : 2 * (m * d) ≤ 2 * n + d) (hhigh : 2 * n ≤ 2 * (m * d) + d)
    (hodd : m % 2 = 1 → 2 * (m * d) < 2 * n + d ∧ 2 * n < 2 * (m * d) + d) : roundDiv n d = m := by
  have hdiv : d * (n / d) + n % d = n := Nat.div_add_mod n d
  have hmod : n % d < d := Nat.mod_lt n hd
  have hq : n / d = m ∨ n / d + 1 = m := by
    have h₁ : n / d < m + 1 := by
      rw [Nat.div_lt_iff_lt_mul hd, Nat.add_mul]
      omega
    have h₂ : m - 1 ≤ n / d := by
      rw [Nat.le_div_iff_mul_le hd, Nat.sub_mul]
      omega
    omega
  unfold roundDiv
  simp only [Bool.or_eq_true, decide_eq_true_eq, Bool.and_eq_true, beq_iff_eq]
  rcases hq with hq | hq
  · rw [hq, Nat.mul_comm d m] at hdiv
    rw [if_neg (by rw [hq]; omega), hq]
  · rw [← hq, Nat.add_mul, Nat.mul_comm (n / d) d] at hlow hhigh hodd
    rw [if_pos (by omega), hq]

namespace Format

theorem floorLog_spec {num den : Nat} (hnum : 0 < num) (hden : 0 < den) :
    (2 : ℚ) ^ floorLog num den ≤ num / den ∧ (num / den : ℚ) < 2 ^ (floorLog num den + 1) := by
  have hd : (0 : ℚ) < den := by exact_mod_cast hden
  have hlow (n : Nat) (h : 0 < n) : (2 : ℚ) ^ (n.log2 : Int) ≤ n := by
    rw [zpow_natCast]
    exact_mod_cast Nat.log2_self_le (by omega)
  have hhigh (n : Nat) : (n : ℚ) < 2 ^ ((n.log2 : Int) + 1) := by
    have : (n : ℚ) < 2 ^ (n.log2 + 1) := by exact_mod_cast Nat.lt_log2_self
    exact_mod_cast this
  -- the logarithms of the parts differ by the exponent or by one more, which a comparison decides
  unfold floorLog
  simp only
  have hscaled := scaled_value num den (-(num.log2 - den.log2))
  have hpos := scaled_pos num hden (-(num.log2 - den.log2))
  generalize scaled num den (-(num.log2 - den.log2)) = q at hscaled hpos
  have hq : (0 : ℚ) < q.2 := by exact_mod_cast hpos
  generalize hk : (num.log2 : Int) - den.log2 = k at hscaled
  have htwo : (0 : ℚ) < 2 ^ k := by positivity
  have htest : q.2 ≤ q.1 ↔ (2 : ℚ) ^ k ≤ num / den := by
    rw [← Nat.cast_le (α := ℚ), ← one_le_div hq, hscaled, zpow_neg, ← div_eq_mul_inv, one_le_div htwo]
  split
  · next h =>
    refine ⟨htest.mp h, ?_⟩
    rw [div_lt_iff₀ hd]
    calc (num : ℚ) < 2 ^ ((num.log2 : Int) + 1) := hhigh num
      _ = 2 ^ (k + 1) * 2 ^ (den.log2 : Int) := by
        rw [← zpow_add₀ (by norm_num)]; congr 1; omega
      _ ≤ 2 ^ (k + 1) * den := by gcongr; exact hlow den hden
  · next h =>
    refine ⟨?_, ?_⟩
    · rw [le_div_iff₀ hd]
      calc (2 : ℚ) ^ (k - 1) * den ≤ 2 ^ (k - 1) * 2 ^ ((den.log2 : Int) + 1) := by
            gcongr; exact (hhigh den).le
        _ = 2 ^ (num.log2 : Int) := by
          rw [← zpow_add₀ (by norm_num)]; congr 1; omega
        _ ≤ num := hlow num hnum
    · rw [sub_add_cancel]
      exact not_le.mp fun hle => h (htest.mpr hle)

/-! ## The numbers of a format -/

/-- Is the number one of the format, with as many digits as its exponent allows? -/
def Holds (f : Format) : Binary → Prop
  | .finite _ m e => m < 2 ^ f.precision ∧ f.minExponent ≤ e ∧ e ≤ f.maxExponent ∧
      (2 ^ (f.precision - 1) ≤ m ∨ e = f.minExponent)
  | _ => True

instance (f : Format) (x : Binary) : Decidable (f.Holds x) := by
  cases x <;> unfold Holds <;> infer_instance

/-- Does a number lie half way from `m * 2 ^ e` to its neighbours or nearer? Where the lower
neighbour is at half the distance, half the way to it is a quarter. -/
structure IsNear (f : Format) (m : Nat) (e : Int) (v : ℚ) : Prop where
  low : (m - 1 / 2) * 2 ^ e ≤ v
  narrow : m = 2 ^ (f.precision - 1) → f.minExponent < e → (m - 1 / 4) * 2 ^ e ≤ v
  high : v ≤ (m + 1 / 2) * 2 ^ e
  odd : m % 2 = 1 → (m - 1 / 2) * 2 ^ e < v ∧ v < (m + 1 / 2) * 2 ^ e

theorem isNear_self (f : Format) (m : Nat) (e : Int) : f.IsNear m e (m * 2 ^ e) := by
  have htwo : (0 : ℚ) < 2 ^ e := by positivity
  constructor <;> (try intros) <;> (try constructor) <;> nlinarith

/-- Counted in units of the last digit, a near quotient rounds to the mantissa. -/
theorem roundDiv_of_near {f : Format} {m n d : Nat} {e : Int} {v : ℚ} (h : f.IsNear m e v) (hd : 0 < d)
    (hv : (n : ℚ) / d = v * 2 ^ (-e)) : roundDiv n d = m := by
  have hq : (0 : ℚ) < d := by exact_mod_cast hd
  have htwo : (0 : ℚ) < 2 ^ e := by positivity
  obtain rfl : v = n / d * 2 ^ e := by
    rw [hv, mul_assoc, ← zpow_add₀ two_ne_zero, neg_add_cancel, zpow_zero, mul_one]
  -- a bound in units of the last digit is a bound of the numerator
  have hbelow (x : ℚ) : x * 2 ^ e ≤ n / d * 2 ^ e ↔ x * d ≤ n := (mul_le_mul_iff_left₀ htwo).trans (le_div_iff₀ hq)
  have habove (x : ℚ) : n / d * 2 ^ e ≤ x * 2 ^ e ↔ n ≤ x * d := (mul_le_mul_iff_left₀ htwo).trans (div_le_iff₀ hq)
  refine roundDiv_eq hd ?_ ?_ fun ho => ⟨?_, ?_⟩
  · have := (hbelow _).mp h.low
    have : (2 * (m * d) : ℚ) ≤ 2 * n + d := by linarith
    exact_mod_cast this
  · have := (habove _).mp h.high
    have : (2 * n : ℚ) ≤ 2 * (m * d) + d := by linarith
    exact_mod_cast this
  · have := (lt_iff_lt_of_le_iff_le (habove _)).mp (h.odd ho).1
    have : (2 * (m * d) : ℚ) < 2 * n + d := by linarith
    exact_mod_cast this
  · have := (lt_iff_lt_of_le_iff_le (hbelow _)).mp (h.odd ho).2
    have : (2 * n : ℚ) < 2 * (m * d) + d := by linarith
    exact_mod_cast this

/-! ## Rounding -/

/-- The exponent that a quotient is rounded at. -/
def unit (f : Format) (num den : Nat) : Int :=
  max (floorLog num den - (f.precision - 1)) f.minExponent

/-- The quotient counted in units, to the nearest. -/
def digits (f : Format) (num den : Nat) : Nat :=
  roundDiv (scaled num den (-f.unit num den)).1 (scaled num den (-f.unit num den)).2

variable {f : Format} {negative : Bool} {m num den : Nat} {e : Int}

/-- The mantissa and the exponent; digits that reach the next power of two are carried. -/
def rounded (f : Format) (num den : Nat) : Nat × Int :=
  if f.digits num den = 2 ^ f.precision then (2 ^ (f.precision - 1), f.unit num den + 1)
  else (f.digits num den, f.unit num den)

theorem round_eq (hnum : num ≠ 0) :
    f.round negative num den =
      if (f.rounded num den).2 > f.maxExponent then .infinite negative
      else .finite negative (f.rounded num den).1 (f.rounded num den).2 := by
  unfold round
  rw [if_neg hnum]
  rfl

theorem digits_of_near (hden : 0 < den) (he : f.unit num den = e) (h : f.IsNear m e (num / den)) : f.digits num den = m := by
  subst he
  exact roundDiv_of_near h (scaled_pos num hden _) (scaled_value num den _)

theorem two_pow_lt {k : Int} {n : Nat} (hnum : 0 < num) (hden : 0 < den) (h : (num / den : ℚ) < 2 ^ (n : Int) * 2 ^ k) :
    floorLog num den < n + k := by
  rw [← zpow_add₀ (by norm_num)] at h
  exact (zpow_lt_zpow_iff_right₀ (by norm_num)).mp ((floorLog_spec hnum hden).1.trans_lt h)

theorem two_pow_le {k : Int} {n : Nat} (hnum : 0 < num) (hden : 0 < den) (h : (2 : ℚ) ^ (n : Int) * 2 ^ k ≤ num / den) :
    n + k ≤ floorLog num den := by
  rw [← zpow_add₀ (by norm_num)] at h
  exact Int.lt_add_one_iff.mp ((zpow_lt_zpow_iff_right₀ (by norm_num)).mp (h.trans_lt (floorLog_spec hnum hden).2))

theorem unit_le_of_near (hm : m < 2 ^ f.precision) (he : f.minExponent ≤ e) (hnum : 0 < num) (hden : 0 < den)
    (h : f.IsNear m e (num / den)) : f.unit num den ≤ e := by
  have htwo : (0 : ℚ) < 2 ^ e := by positivity
  have hm' : (m : ℚ) + 1 ≤ 2 ^ f.precision := by exact_mod_cast hm
  have hlt : (num / den : ℚ) < 2 ^ (f.precision : Int) * 2 ^ e := by
    rw [zpow_natCast]
    refine h.high.trans_lt (mul_lt_mul_of_pos_right ?_ htwo)
    linarith
  have := two_pow_lt hnum hden hlt
  unfold unit
  omega

/-- A quotient that is counted in a smaller unit lies below the least number of the exponent. -/
theorem lt_least_of_unit_lt (hp : 1 ≤ f.precision) (hnum : 0 < num) (hden : 0 < den) (h : f.unit num den < e) :
    (num / den : ℚ) < 2 ^ (f.precision - 1) * 2 ^ e := by
  by_contra hge
  have hle : (2 : ℚ) ^ ((f.precision - 1 : Nat) : Int) * 2 ^ e ≤ num / den := by
    rw [zpow_natCast]
    exact not_lt.mp hge
  have := two_pow_le hnum hden hle
  unfold unit at h
  omega

namespace IsNear

variable {v : ℚ}

/-- What is below the least number of an exponent is near no greater one. -/
theorem eq_least (h : f.IsNear m e v) (hle : 2 ^ (f.precision - 1) ≤ m) (hbelow : v < 2 ^ (f.precision - 1) * 2 ^ e) :
    m = 2 ^ (f.precision - 1) := by
  by_contra hne
  have hm : (2 : ℚ) ^ (f.precision - 1) + 1 ≤ m := by
    have : 2 ^ (f.precision - 1) + 1 ≤ m := by omega
    exact_mod_cast this
  have hlow : (2 : ℚ) ^ (f.precision - 1) * 2 ^ e ≤ (m - 1 / 2) * 2 ^ e :=
    mul_le_mul_of_nonneg_right (by linarith) (by positivity)
  exact absurd (hlow.trans h.low) (not_le.mpr hbelow)

/-- Below the least number of an exponent, a quotient is as near to it when both are counted in half units. -/
theorem halved (hp : 1 ≤ f.precision) (h : f.IsNear (2 ^ (f.precision - 1)) e v) (he : f.minExponent < e)
    (hbelow : v < 2 ^ (f.precision - 1) * 2 ^ e) : f.IsNear (2 ^ f.precision) (e - 1) v := by
  have hpred : (2 : ℚ) ^ (e - 1) = 2 ^ e / 2 := by
    rw [zpow_sub_one₀ (by norm_num), div_eq_mul_inv]
  have hdouble : ((2 ^ f.precision : Nat) : ℚ) = 2 * 2 ^ (f.precision - 1) := by
    push_cast
    rw [← pow_succ', Nat.sub_add_cancel hp]
  have hlow := h.narrow rfl he
  push_cast at hlow
  constructor
  case low =>
    rw [hdouble, hpred]
    linarith
  case narrow =>
    intro hsame
    exact absurd hsame (Nat.pow_lt_pow_right (by norm_num) (by omega)).ne'
  case high =>
    rw [hdouble, hpred]
    have : (0 : ℚ) < 2 ^ e := by positivity
    linarith
  case odd =>
    intro hodd
    obtain ⟨k, hk⟩ : ∃ k, f.precision = k + 1 := ⟨f.precision - 1, by omega⟩
    rw [hk, pow_succ] at hodd
    omega

end IsNear

/-- Just below the least number of an exponent, a quotient is counted in half units. -/
theorem unit_of_halved (hp : 2 ≤ f.precision) (hnum : 0 < num) (hden : 0 < den) (h : f.unit num den < e)
    (hnear : f.IsNear (2 ^ (f.precision - 1)) e (num / den)) (he : f.minExponent < e) : f.unit num den = e - 1 := by
  have htwo : (0 : ℚ) < 2 ^ e := by positivity
  have hlow := hnear.narrow rfl he
  push_cast at hlow
  have hge : (2 : ℚ) ^ ((f.precision - 2 : Nat) : Int) * 2 ^ e ≤ num / den := by
    have hquarter : (2 : ℚ) ^ (f.precision - 1) = 2 * 2 ^ (f.precision - 2) := by
      rw [← pow_succ']
      congr 1
      omega
    have hone : (1 : ℚ) ≤ 2 ^ (f.precision - 2) := one_le_pow₀ (by norm_num)
    rw [zpow_natCast]
    refine le_trans (mul_le_mul_of_nonneg_right ?_ htwo.le) hlow
    linarith
  have := two_pow_le hnum hden hge
  unfold unit at h ⊢
  omega

/-- A number of the format comes out of every quotient near it. -/
theorem round_of_near (hp : 2 ≤ f.precision) (h : f.Holds (.finite negative m e)) (hnum : 0 < num)
    (hden : 0 < den) (hnear : f.IsNear m e (num / den)) : f.round negative num den = .finite negative m e := by
  obtain ⟨hmax, hmin, he, hleast⟩ := h
  have hrounded : f.rounded num den = (m, e) := by
    obtain hunit | hunit := (unit_le_of_near hmax hmin hnum hden hnear).eq_or_lt
    · have hdigits := digits_of_near hden hunit hnear
      unfold rounded
      rw [hdigits, if_neg (by omega), hunit]
    · -- the quotient lies below the least number of its exponent: its digits in half units are carried
      have hexponent : f.minExponent < e := by
        unfold unit at hunit
        omega
      have hbelow := lt_least_of_unit_lt (by omega) hnum hden hunit
      obtain rfl := hnear.eq_least (by omega) hbelow
      have hunit' := unit_of_halved hp hnum hden hunit hnear hexponent
      have hhalved := hnear.halved (by omega) hexponent hbelow
      unfold rounded
      rw [if_pos (digits_of_near hden hunit' hhalved), hunit', sub_add_cancel]
  rw [round_eq (by omega), hrounded, if_neg (by simpa using he)]

/-! ## Conversions -/

theorem convert_zero (negative : Bool) (e : Int) :
    f.convert (.finite negative 0 e) = .finite negative 0 f.minExponent := by
  have hzero : (scaled 0 1 e).1 = 0 := by
    unfold scaled
    split <;> simp
  unfold convert
  simp only [hzero]
  rw [round, if_pos rfl]

/-- What has the value of a number of the format is converted to that number. -/
theorem convert_of_value (hp : 2 ≤ f.precision) (h : f.Holds (.finite negative m e)) {n : Nat} {k : Int} (hm : 0 < m)
    (hvalue : (n * 2 ^ k : ℚ) = m * 2 ^ e) : f.convert (.finite negative n k) = .finite negative m e := by
  have hscaled := scaled_value n 1 k
  rw [Nat.cast_one, div_one, hvalue] at hscaled
  have hden := scaled_pos n Nat.one_pos k
  have hvalue_pos : (0 : ℚ) < m * 2 ^ e := by positivity
  have hnum : 0 < (scaled n 1 k).1 := by
    by_contra hzero
    rw [Nat.eq_zero_of_not_pos hzero, Nat.cast_zero, zero_div] at hscaled
    exact hvalue_pos.ne hscaled
  unfold convert
  exact round_of_near hp h hnum hden (hscaled ▸ isNear_self f m e)

theorem exponent_of_zero (h : f.Holds (.finite negative 0 e)) : e = f.minExponent := by
  obtain ⟨-, -, -, hleast⟩ := h
  have := Nat.two_pow_pos (f.precision - 1)
  omega

theorem convert_of_holds (hp : 2 ≤ f.precision) {x : Binary} (h : f.Holds x) : f.convert x = x := by
  cases x with
  | finite s m e =>
    rcases Nat.eq_zero_or_pos m with rfl | hm
    · rw [convert_zero, exponent_of_zero h]
    · exact convert_of_value hp h hm rfl
  | _ => rfl

/-- Has the other format room for every number of the first with all its digits? -/
structure Within (f g : Format) : Prop where
  precision : f.precision ≤ g.precision
  low : g.minExponent + (g.precision - 1) ≤ f.minExponent
  high : f.maxExponent ≤ g.maxExponent

theorem exists_holds {g : Format} (hw : f.Within g) (h : f.Holds (.finite negative m e)) (hm : 0 < m) :
    ∃ n k, g.Holds (.finite negative n k) ∧ 0 < n ∧ (n * 2 ^ k : ℚ) = m * 2 ^ e := by
  obtain ⟨hprecision, hlow, hhigh⟩ := hw
  obtain ⟨hmax, hmin, he, -⟩ := h
  have hlog : m.log2 < g.precision :=
    (Nat.log2_lt hm.ne').mpr (hmax.trans_le (Nat.pow_le_pow_right (by norm_num) hprecision))
  refine ⟨m * 2 ^ (g.precision - 1 - m.log2), e - (g.precision - 1 - m.log2 : Nat), ⟨?_, ?_, ?_, .inl ?_⟩,
    Nat.mul_pos hm (Nat.two_pow_pos _), ?_⟩
  · calc m * 2 ^ (g.precision - 1 - m.log2) < 2 ^ (m.log2 + 1) * 2 ^ (g.precision - 1 - m.log2) :=
        Nat.mul_lt_mul_of_pos_right Nat.lt_log2_self (Nat.two_pow_pos _)
      _ = 2 ^ g.precision := by rw [← pow_add]; congr 1; omega
  · omega
  · omega
  · calc 2 ^ (g.precision - 1) = 2 ^ m.log2 * 2 ^ (g.precision - 1 - m.log2) := by
          rw [← pow_add]; congr 1; omega
      _ ≤ m * 2 ^ (g.precision - 1 - m.log2) := Nat.mul_le_mul_right _ (Nat.log2_self_le hm.ne')
  · push_cast
    rw [mul_assoc, ← zpow_natCast, ← zpow_add₀ (by norm_num), add_sub_cancel]

/-- A number that goes through a wider format is there again afterwards. -/
theorem convert_widened {g : Format} (hp : 2 ≤ f.precision) (hw : f.Within g) {x : Binary} (h : f.Holds x) :
    g.Holds (g.convert x) ∧ f.convert (g.convert x) = x := by
  have hp' : 2 ≤ g.precision := hp.trans hw.precision
  cases x with
  | finite s m e =>
    rcases Nat.eq_zero_or_pos m with rfl | hm
    · have := hw.low
      have := hw.high
      have hleast := exponent_of_zero h
      obtain ⟨-, hmin, he, -⟩ := h
      rw [convert_zero, convert_zero, hleast]
      exact ⟨⟨Nat.two_pow_pos _, le_rfl, by omega, .inr rfl⟩, rfl⟩
    · obtain ⟨n, k, hholds, hn, hvalue⟩ := exists_holds hw h hm
      rw [convert_of_value hp' hholds hn hvalue.symm]
      exact ⟨hholds, convert_of_value hp h hm hvalue⟩
  | _ => exact ⟨trivial, rfl⟩

/-! ## What rounding yields -/

theorem roundDiv_le {n d k : Nat} (hd : 0 < d) (h : n < k * d) : roundDiv n d ≤ k := by
  have hq : n / d < k := (Nat.div_lt_iff_lt_mul hd).mpr h
  unfold roundDiv
  dsimp only
  split <;> omega

theorem le_roundDiv {n d k : Nat} (hd : 0 < d) (h : k * d ≤ n) : k ≤ roundDiv n d := by
  have hq : k ≤ n / d := (Nat.le_div_iff_mul_le hd).mpr h
  unfold roundDiv
  dsimp only
  split <;> omega

/-- Counted in units, a quotient has at most the digits of the format, and all of them unless the unit is the least. -/
theorem digits_bounds (hp : 0 < f.precision) (hnum : 0 < num) (hden : 0 < den) :
    f.digits num den ≤ 2 ^ f.precision ∧ (f.minExponent < f.unit num den → 2 ^ (f.precision - 1) ≤ f.digits num den) := by
  obtain ⟨hlow, hhigh⟩ := floorLog_spec hnum hden
  have hscaled := scaled_value num den (-f.unit num den)
  have hpos := scaled_pos num hden (-f.unit num den)
  have hd : (0 : ℚ) < (scaled num den (-f.unit num den)).2 := by exact_mod_cast hpos
  have hunit (k : Int) : (2 : ℚ) ^ k * 2 ^ (-f.unit num den) = 2 ^ (k - f.unit num den) := by
    rw [← zpow_add₀ (by norm_num), sub_eq_add_neg]
  have htwo : (0 : ℚ) < 2 ^ (-f.unit num den) := by positivity
  constructor
  · refine roundDiv_le hpos ?_
    have hlt : (num / den * 2 ^ (-f.unit num den) : ℚ) < 2 ^ f.precision := by
      calc (num / den * 2 ^ (-f.unit num den) : ℚ) < 2 ^ (floorLog num den + 1) * 2 ^ (-f.unit num den) :=
            mul_lt_mul_of_pos_right hhigh htwo
        _ = 2 ^ (floorLog num den + 1 - f.unit num den) := hunit _
        _ ≤ 2 ^ (f.precision : Int) := by
          refine zpow_le_zpow_right₀ (by norm_num) ?_
          unfold unit
          omega
        _ = 2 ^ f.precision := zpow_natCast _ _
    rw [← hscaled, div_lt_iff₀ hd] at hlt
    exact_mod_cast hlt
  · intro hleast
    refine le_roundDiv hpos ?_
    have hle : (2 : ℚ) ^ (f.precision - 1) ≤ num / den * 2 ^ (-f.unit num den) := by
      calc (2 : ℚ) ^ (f.precision - 1) = 2 ^ ((f.precision - 1 : Nat) : Int) := (zpow_natCast _ _).symm
        _ ≤ 2 ^ (floorLog num den - f.unit num den) := by
          refine zpow_le_zpow_right₀ (by norm_num) ?_
          unfold unit at hleast ⊢
          omega
        _ = 2 ^ floorLog num den * 2 ^ (-f.unit num den) := (hunit _).symm
        _ ≤ num / den * 2 ^ (-f.unit num den) := mul_le_mul_of_nonneg_right hlow htwo.le
    rw [← hscaled, le_div_iff₀ hd] at hle
    exact_mod_cast hle

/-- What a quotient is rounded to is a number of the format. -/
theorem holds_round (hp : 0 < f.precision) (hrange : f.minExponent ≤ f.maxExponent) (hden : 0 < den) :
    f.Holds (f.round negative num den) := by
  rcases Nat.eq_zero_or_pos num with rfl | hnum
  · rw [round, if_pos rfl]
    exact ⟨Nat.two_pow_pos _, le_rfl, hrange, .inr rfl⟩
  obtain ⟨hmost, hleast⟩ := digits_bounds (f := f) hp hnum hden
  have hunit : f.minExponent ≤ f.unit num den := le_max_right _ _
  rw [round_eq hnum.ne']
  split
  · trivial
  · next hmax =>
    unfold rounded at hmax ⊢
    split
    · next hcarry =>
      rw [if_pos hcarry] at hmax
      exact ⟨Nat.pow_lt_pow_right (by norm_num) (by omega), by dsimp only; omega, by dsimp only at hmax ⊢; omega, .inl le_rfl⟩
    · next hcarry =>
      rw [if_neg hcarry] at hmax
      refine ⟨lt_of_le_of_ne hmost hcarry, hunit, by dsimp only at hmax ⊢; omega, ?_⟩
      rcases hunit.lt_or_eq with hlt | heq
      · exact .inl (hleast hlt)
      · exact .inr heq.symm

theorem holds_convert (hp : 0 < f.precision) (hrange : f.minExponent ≤ f.maxExponent) (x : Binary) :
    f.Holds (f.convert x) := by
  cases x with
  | finite s m e => exact holds_round hp hrange (scaled_pos m Nat.one_pos e)
  | _ => trivial

end Format

end ExprTree
