import ExprTree.Proofs.Number.Overflow
import ExprTree.Proofs.Scalar.Integers

/-!
# Conversion to integers

What is converted to an integer type loses its fraction and is then fitted to
the type. That a number is finite is asked of the double nearest to it, so that
a decimal from half a unit above the greatest double passes for an infinity.
-/

namespace ExprTree

/-! ## Integer parts of decimals -/

theorem towardZero_signed (negative : Bool) (m n : Nat) :
    towardZero (Binary.signed negative m / n) = Binary.signed negative (m / n) := by
  cases negative with
  | false => exact towardZero_natCast_div m n
  | true =>
    simp only [Binary.signed, if_true, Int.cast_neg, Int.cast_natCast, neg_div, towardZero_neg, towardZero_natCast_div]

namespace Decimal

theorem trunc_eq (negative : Bool) (c : Nat) (e : Int) :
    trunc (.finite negative c e) = towardZero (Binary.signed negative c * 10 ^ e) := by
  have hvalue : (Binary.signed negative c * 10 ^ e : ℚ) =
      Binary.signed negative (Format.decimalQuotient c e).1 / (Format.decimalQuotient c e).2 := by
    have hquotient := Format.decimalQuotient_value c e
    cases negative with
    | false => exact hquotient.symm
    | true => simp only [Binary.signed, if_true, Int.cast_neg, Int.cast_natCast, neg_div, hquotient, neg_mul]
  rw [hvalue, towardZero_signed]
  unfold trunc Format.decimalQuotient
  dsimp only
  split
  · rw [Nat.div_one]
  · split
    · next hsmall =>
      -- the first digit stands behind the point
      have hlt : c < 10 ^ (-e).toNat := (lt_pow_digitCount c).trans_le (Nat.pow_le_pow_right (by decide) hsmall.le)
      rw [Nat.div_eq_of_lt hlt]
      cases negative <;> rfl
    · rfl

theorem isFinite_toBinary (negative : Bool) (c : Nat) (e : Int) :
    ∃ x, toBinary? (.finite negative c e) = some x ∧
      (x.isFinite = true ↔ |(Binary.signed negative c * 10 ^ e : ℚ)| < 2 ^ 1024 - 2 ^ 970) := by
  refine ⟨_, rfl, ?_⟩
  have hsize : |(Binary.signed negative c * 10 ^ e : ℚ)| = c * 10 ^ e := by
    rw [abs_mul, abs_of_nonneg (by positivity : (0 : ℚ) ≤ 10 ^ e)]
    cases negative <;> simp [Binary.signed]
  rw [hsize, ← Format.double_overflow]
  exact Format.isFinite_ofDecimal_iff c e

end Decimal

/-! ## Amounts -/

namespace Value

/-- The number that a value stands for in a conversion to an integer, characters for their code points. -/
inductive HasAmount : Value → ℚ → Prop where
  | bool (b : Bool) : HasAmount (.bool b) b.toNat
  | int (n : Int) : HasAmount (.int n) n
  | fixed {i : IntType} {n : Int} (hn : i.Holds n) : HasAmount (.fixed i n) n
  | char (c : Char) : HasAmount (.char c) c.toNat
  | decimal (negative : Bool) (c : Nat) (e : Int) :
      HasAmount (.decimal (.finite negative c e)) (Binary.signed negative c * 10 ^ e)

/-- Is it a decimal beyond the doubles, with what is rounded up to an infinity? -/
def IsBeyondDouble (v : Value) (q : ℚ) : Prop :=
  (∃ d, v = .decimal d) ∧ 2 ^ 1024 - 2 ^ 970 ≤ |q|

end Value

namespace Arithmetic

variable {l : Library} {h : Heap} {t o : Ty} {v : Value} {q : ℚ} {target : String} {checked : Bool}

theorem toInteger_exact (hv : v.HasAmount q) (hdouble : ¬v.IsBeyondDouble q) :
    toInteger target checked v = .ok (towardZero q) := by
  cases hv with
  | bool b => rw [towardZero_natCast]; rfl
  | int n => rw [towardZero_intCast]; rfl
  | fixed hn => rw [towardZero_intCast]; rfl
  | char c => rw [towardZero_natCast]; rfl
  | decimal negative c e =>
    obtain ⟨x, hx, hfinite⟩ := Decimal.isFinite_toBinary negative c e
    have hlt := hfinite.mpr (not_le.mp fun hle => hdouble ⟨⟨_, rfl⟩, hle⟩)
    unfold toInteger
    simp only [toNumber, ok_bind, hx, hlt, if_true, Decimal.trunc_eq]
    rfl

/-- Beyond the doubles the digits are not looked at. -/
theorem toInteger_beyond (target : String) (checked : Bool) (hv : v.HasAmount q) (hdouble : v.IsBeyondDouble q) :
    ∃ shown, toInteger target checked v = if checked then .error (.notFinite shown target) else .ok 0 := by
  obtain ⟨⟨d, rfl⟩, hle⟩ := hdouble
  cases hv with
  | decimal negative c e =>
    obtain ⟨x, hx, hfinite⟩ := Decimal.isFinite_toBinary negative c e
    have hinfinite := hfinite.not.mpr (not_lt.mpr hle)
    unfold toInteger
    simp only [toNumber, ok_bind, hx, hinfinite]
    exact ⟨_, rfl⟩

theorem convertTo_integer (ht : t.isInteger = true) (hv : v.isNone = false) :
    convertTo l h t checked v =
      toInteger (t.fixed?.elim "int" IntType.name) checked v >>= fun z => (t.fit checked z).map t.integer := by
  unfold convertTo
  rw [if_neg (by simp [hv])]
  cases hfixed : t.fixed? with
  | some i => simp only [Option.elim, Ty.narrow_eq hfixed]
  | none =>
    have hint := Ty.isInt_of_isInteger ht hfixed
    have hfloat : t.fixedFloat? = none := by
      rw [Ty.eq_cls_of_isClass hint]
      exact Scalar.fixedFloat?_ty .int
    simp only [hfloat, hint, if_true, Option.elim, Ty.fit_map_int hint]
    rfl

theorem convert_of_isInteger (ht : t.isInteger = true) : convert l h t checked v = convertTo l h t checked v := by
  obtain ⟨c, rfl⟩ := Ty.exists_cls_of_isNumeric (Ty.isNumeric_of_isInteger ht)
  rfl

/-- Conversion to an integer type drops the fraction toward zero and fits what is left, wrapped or checked; a type that
is the integer type or none takes none as well. Only decimals beyond the doubles are not converted: they give zero, or
overflow with a check. -/
theorem convert_truncates (ht : t.isInteger = true) (hv : v.HasAmount q) :
    (¬v.IsBeyondDouble q →
      (t.isInt = true → ∀ checked, convert l h t checked v = .ok (.int (towardZero q))) ∧
      ∀ i, t.fixed? = some i →
        (∃ m, convert l h t false v = .ok (.fixed i m) ∧ i.IsResidue (towardZero q) m) ∧
        (i.Holds (towardZero q) → convert l h t true v = .ok (.fixed i (towardZero q))) ∧
        (¬i.Holds (towardZero q) → ∃ f, convert l h t true v = .error f ∧ f.kind = .overflow)) ∧
    (v.IsBeyondDouble q → convert l h t false v = .ok (t.integer 0) ∧
      ∃ f, convert l h t true v = .error f ∧ f.kind = .overflow) ∧
    (∀ o, o.optionalInner? = some t → ∀ checked, convert l h o checked .none = .ok .none ∧
      convert l h o checked v = convert l h t checked v) := by
  have hnone : v.isNone = false := by cases hv <;> rfl
  have hconvert (checked : Bool) : convert l h t checked v =
      toInteger (t.fixed?.elim "int" IntType.name) checked v >>= fun z => (t.fit checked z).map t.integer :=
    (convert_of_isInteger ht).trans (convertTo_integer ht hnone)
  refine ⟨fun hdouble => ?_, fun hdouble => ?_, fun o ho checked => ?_⟩
  · have hexact (checked : Bool) : convert l h t checked v = (t.fit checked (towardZero q)).map t.integer := by
      rw [hconvert, toInteger_exact hv hdouble, ok_bind]
    refine ⟨fun hint checked => (hexact checked).trans (Ty.fit_map_int hint checked _), fun i hfixed => ?_⟩
    simp only [Ty.fit_fixed hfixed] at hexact
    obtain ⟨m, hfit, hm⟩ := i.fit_residue (towardZero q)
    refine ⟨⟨m, ?_, hm⟩, fun hholds => ?_, fun hholds => ?_⟩
    · rw [hexact, hfit, Except.map, Ty.integer_fixed hfixed]
    · rw [hexact, IntType.fit, if_pos hholds, Except.map, Ty.integer_fixed hfixed]
    · rw [hexact, IntType.fit, if_neg hholds, if_pos rfl]
      exact ⟨_, rfl, rfl⟩
  · have hbeyond (checked : Bool) := toInteger_beyond (t.fixed?.elim "int" IntType.name) checked hv hdouble
    have hzero : t.Contains 0 := fun i _ => ⟨i.low_nonpos, i.high_pos.le⟩
    constructor
    · obtain ⟨_, hlost⟩ := hbeyond false
      rw [hconvert, hlost, if_neg (by simp), ok_bind, Ty.fit_of_contains hzero, Except.map]
    · obtain ⟨_, hlost⟩ := hbeyond true
      rw [hconvert, hlost, if_pos rfl]
      exact ⟨_, rfl, rfl⟩
  · rw [convert_of_isInteger ht]
    unfold convert
    simp only [ho, hnone, Bool.false_eq_true, if_false]
    exact ⟨rfl, trivial⟩

/-- Minus three and seven tenths, in eight bits without a sign. -/
theorem convert_truncates_tenths :
    let t := (Scalar.fixed ⟨false, .w8⟩).ty
    let v := Value.decimal (.finite true 37 (-1))
    t.isInteger = true ∧ v.HasAmount (-37 / 10) ∧
      ∃ m, convert Sample.library ⟨#[]⟩ t false v = .ok (.fixed ⟨false, .w8⟩ m) ∧
        IntType.IsResidue ⟨false, .w8⟩ (towardZero (-37 / 10)) m := by
  intro t v
  have ht : t.isInteger = true := Scalar.isInteger_ty (.fixed ⟨false, .w8⟩)
  have hv : v.HasAmount (-37 / 10) := by
    have hamount := Value.HasAmount.decimal true 37 (-1)
    rwa [show (Binary.signed true 37 * 10 ^ (-1 : Int) : ℚ) = -37 / 10 by norm_num [Binary.signed]] at hamount
  have hdouble : ¬v.IsBeyondDouble (-37 / 10) := by
    rintro ⟨-, hle⟩
    have hfour : (2 : ℚ) ^ 2 ≤ 2 ^ 1024 - 2 ^ 970 := by
      rw [← Format.double_overflow]
      exact (pow_le_pow_right₀ (by norm_num) (by norm_num)).trans Format.two_pow_le_double_overflow
    have := hfour.trans hle
    norm_num at this
  exact ⟨ht, hv, (((convert_truncates ht hv).1 hdouble).2 _ (Scalar.fixed?_ty _)).1⟩

/-- A decimal of more than four hundred digits becomes zero among the unbounded integers. -/
theorem convert_truncates_beyond :
    let v := Value.decimal (.finite false 1 400)
    v.HasAmount (10 ^ 400) ∧ towardZero (10 ^ 400) = 10 ^ 400 ∧
      convert Sample.library ⟨#[]⟩ Scalar.int.ty false v = .ok (.int 0) := by
  intro v
  have hamount := Value.HasAmount.decimal false 1 400
  rw [show (Binary.signed false 1 : ℚ) = 1 from Int.cast_one, one_mul, zpow_ofNat] at hamount
  have hinteger := towardZero_intCast ((10 : Int) ^ (400 : Nat))
  rw [Int.cast_pow, Int.cast_ofNat] at hinteger
  exact ⟨hamount, hinteger, rfl⟩

end Arithmetic

end ExprTree
