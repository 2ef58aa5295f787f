import ExprTree.Number.Integer
import ExprTree.Number.IntegerText
import Mathlib.Data.List.Induction

/-!
# Decimal digits

The digits of a natural number are ASCII digits, and reading them gives the
number back. What digits stand for is below the power of ten of their count.
-/

namespace ExprTree.Text

/-- What holds of the characters of a fixed text is decided by looking at these characters only. -/
theorem forall_of_all {P : Char → Prop} [DecidablePred P] {cs : List Char} (h : cs.all (fun c => decide (P c)) = true) :
    ∀ c ∈ cs, P c :=
  fun c hc => of_decide_eq_true (List.all_eq_true.mp h c hc)

theorem natOfDigits_eq (cs : List Char) : natOfDigits cs = Nat.ofDigitChars 10 cs 0 := by
  rw [natOfDigits, Nat.ofDigitChars_eq_foldl]
  simp only [Nat.mul_comm]

@[simp] theorem natOfDigits_toDigits (n : Nat) : natOfDigits (Nat.toDigits 10 n) = n := by
  rw [natOfDigits_eq, Nat.ofDigitChars_ten_toDigits]

@[simp] theorem toList_toString (n : Nat) : (toString n).toList = Nat.toDigits 10 n := by
  rw [Nat.toString_eq_repr, Nat.toList_repr]

theorem isDigit_of_mem_toDigits {n : Nat} {c : Char} (h : c ∈ Nat.toDigits 10 n) : c.isDigit = true :=
  Nat.isDigit_of_mem_toDigits (by decide) (by decide) h

theorem all_isDigit_toDigits (n : Nat) : (Nat.toDigits 10 n).all Char.isDigit = true :=
  List.all_eq_true.mpr fun _ => isDigit_of_mem_toDigits

/-- A number has at most as many digits as are read when it is below that power of ten. -/
theorem length_toDigits_le {n k : Nat} (hk : 0 < k) : (Nat.toDigits 10 n).length ≤ k ↔ n < 10 ^ k :=
  Nat.length_toDigits_le_iff (by decide) hk

theorem natOfDigits_lt {cs : List Char} (h : ∀ c ∈ cs, c.isDigit = true) : natOfDigits cs < 10 ^ cs.length := by
  induction cs using List.reverseRecOn with
  | nil => decide
  | append_singleton cs c ih =>
    have hc : c.toNat ≤ 57 := by
      have := h c (by simp)
      simp only [Char.isDigit, Bool.and_eq_true, decide_eq_true_eq] at this
      exact this.2
    have hcs := ih fun d hd => h d (by simp [hd])
    have hlast : natOfDigits (cs ++ [c]) = natOfDigits cs * 10 + (c.toNat - '0'.toNat) := by
      simp [natOfDigits]
    have hzero : '0'.toNat = 48 := by decide
    rw [hlast, List.length_append, List.length_singleton, Nat.pow_succ, hzero]
    omega

theorem not_isBlank_of_isDigit {c : Char} (h : c.isDigit = true) : isBlank c = false := by
  simp only [Char.isDigit, Bool.and_eq_true, decide_eq_true_eq] at h
  have h₁ : 48 ≤ c.toNat := h.1
  have h₂ : c.toNat ≤ 57 := h.2
  simp only [isBlank, Bool.or_eq_false_iff, Bool.and_eq_false_iff, decide_eq_false_iff_not, beq_eq_false_iff_ne]
  omega

end ExprTree.Text
