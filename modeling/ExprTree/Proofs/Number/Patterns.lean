import ExprTree.Number.Integer
import Mathlib.Data.BitVec
import Mathlib.Data.Int.ModEq

/-!
# Two's complement patterns

An unbounded integer has a pattern in every number of bits. The operations on
the bits of unbounded integers are those on their patterns, whatever the number
of bits; only a shift to the right has to know what stands above them.
-/

namespace ExprTree

variable {w m n : Nat}

/-! ## Patterns of unbounded integers -/

/-- Two integers have the same pattern when they are congruent. -/
theorem ofInt_eq_iff {a b : Int} : BitVec.ofInt w a = BitVec.ofInt w b ↔ a ≡ b [ZMOD 2 ^ w] := by
  have htwo : ((2 ^ w : Nat) : Int) = 2 ^ w := by push_cast; rfl
  have hpos : (0 : Int) < 2 ^ w := Int.pow_pos (by decide)
  have ha := Int.emod_nonneg a hpos.ne'
  have hb := Int.emod_nonneg b hpos.ne'
  rw [← BitVec.toNat_inj, BitVec.toNat_ofInt, BitVec.toNat_ofInt, htwo, Int.ModEq]
  omega

namespace Integer

theorem ofNat_without (m n : Nat) : BitVec.ofNat w (without m n) = BitVec.ofNat w m &&& ~~~BitVec.ofNat w n := by
  rw [without, BitVec.ofNat_xor, BitVec.ofNat_and]
  ext i hi
  simp only [BitVec.getElem_xor, BitVec.getElem_and, BitVec.getElem_not]
  cases (BitVec.ofNat w m)[i] <;> simp

theorem ofInt_land (a b : Int) : BitVec.ofInt w (land a b) = BitVec.ofInt w a &&& BitVec.ofInt w b := by
  cases a <;> cases b <;>
    simp only [land, Int.ofNat_eq_natCast, BitVec.ofInt_natCast, BitVec.ofInt_negSucc_eq_not_ofNat, BitVec.ofNat_and,
      BitVec.ofNat_or, BitVec.not_or, ofNat_without]
  exact BitVec.and_comm _ _

theorem ofInt_lor (a b : Int) : BitVec.ofInt w (lor a b) = BitVec.ofInt w a ||| BitVec.ofInt w b := by
  cases a <;> cases b <;>
    simp only [lor, Int.ofNat_eq_natCast, BitVec.ofInt_natCast, BitVec.ofInt_negSucc_eq_not_ofNat, BitVec.ofNat_and,
      BitVec.ofNat_or, BitVec.not_and, BitVec.not_not, ofNat_without]
  exact BitVec.or_comm _ _

theorem ofInt_xor (a b : Int) : BitVec.ofInt w (xor a b) = BitVec.ofInt w a ^^^ BitVec.ofInt w b := by
  cases a <;> cases b <;>
    simp only [xor, Int.ofNat_eq_natCast, BitVec.ofInt_natCast, BitVec.ofInt_negSucc_eq_not_ofNat, BitVec.ofNat_xor,
      ← BitVec.not_xor_left, ← BitVec.not_xor_right, BitVec.not_not]

theorem ofInt_complement (a : Int) : BitVec.ofInt w (complement a) = ~~~BitVec.ofInt w a := by
  rw [complement, Int.sub_eq_add_neg, BitVec.ofInt_add, BitVec.ofInt_neg, BitVec.ofInt_neg, BitVec.not_eq_neg_add,
    BitVec.sub_eq_add_neg, BitVec.ofInt_ofNat]

theorem ofInt_shiftLeft (a : Int) (n : Nat) : BitVec.ofInt w (shiftLeft a n) = BitVec.ofInt w a <<< n := by
  have htwo : BitVec.ofNat w (2 ^ n) = BitVec.twoPow w n := by
    apply BitVec.eq_of_toNat_eq
    rw [BitVec.toNat_ofNat, BitVec.toNat_twoPow]
  rw [shiftLeft, BitVec.ofInt_mul, BitVec.shiftLeft_eq_mul_twoPow, BitVec.ofInt_natCast, htwo]

/-- Within the range of signed numbers the bits above are copies of the sign. -/
theorem ofInt_shiftRight_signed (hw : 0 < w) {a : Int} (hlow : -2 ^ (w - 1) ≤ a) (hhigh : a < 2 ^ (w - 1)) (n : Nat) :
    BitVec.ofInt w (shiftRight a n) = (BitVec.ofInt w a).sshiftRight n := by
  rw [← BitVec.ofInt_toInt (x := (BitVec.ofInt w a).sshiftRight n), BitVec.toInt_sshiftRight,
    BitVec.toInt_ofInt_eq_self hw hlow hhigh, Int.shiftRight_eq_div_pow, shiftRight]

/-- Within the range of unsigned numbers there are none. -/
theorem ofInt_shiftRight_unsigned {a : Int} (hlow : 0 ≤ a) (hhigh : a < 2 ^ w) (n : Nat) :
    BitVec.ofInt w (shiftRight a n) = BitVec.ofInt w a >>> n := by
  obtain ⟨m, rfl⟩ := Int.eq_ofNat_of_zero_le hlow
  have hm : m < 2 ^ w := by exact_mod_cast hhigh
  have hquotient : m / 2 ^ n < 2 ^ w := (Nat.div_le_self _ _).trans_lt hm
  rw [shiftRight, ← Int.natCast_ediv, BitVec.ofInt_natCast, BitVec.ofInt_natCast]
  apply BitVec.eq_of_toNat_eq
  rw [BitVec.toNat_ushiftRight, BitVec.toNat_ofNat, BitVec.toNat_ofNat, Nat.mod_eq_of_lt hm, Nat.mod_eq_of_lt hquotient,
    Nat.shiftRight_eq_div_pow]

end Integer

end ExprTree
