import ExprTree.Number.FloatText
import ExprTree.Proofs.Number.Digits

/-!
# Reading plain numbers

What is written of a number has ASCII digits, no blanks and no underscores, so
the lenience of reading does not matter for it: only its sign, its point and
its exponent are taken apart.
-/

namespace ExprTree

/-- Is the character neither a foreign digit nor blank nor an underscore? -/
def IsPlain (c : Char) : Prop :=
  normalizeDigits [c] = [c] ∧ Text.isBlank c = false ∧ c ≠ '_'

instance (c : Char) : Decidable (IsPlain c) :=
  inferInstanceAs (Decidable (_ ∧ _))

theorem isPlain_of_isDigit {c : Char} (h : c.isDigit = true) : IsPlain c := by
  refine ⟨?_, Text.not_isBlank_of_isDigit h, by rintro rfl; cases h⟩
  simp only [Char.isDigit, Bool.and_eq_true, decide_eq_true_eq] at h
  have h₁ : 48 ≤ c.toNat := h.1
  have h₂ : c.toNat ≤ 57 := h.2
  have hdigit : Text.digitValue? c = some (c.toNat - 48) := by
    obtain ⟨more, hzeros⟩ : ∃ more, Text.zeroDigits = 48 :: more := ⟨_, rfl⟩
    simp only [Text.digitValue?, hzeros]
    rw [List.find?_cons_of_pos (by simp only [Bool.and_eq_true, decide_eq_true_eq]; omega)]
    rfl
  have hchar : Char.ofNat ('0'.toNat + (c.toNat - 48)) = c := by
    rw [show '0'.toNat + (c.toNat - 48) = c.toNat by rw [show '0'.toNat = 48 from rfl]; omega, Char.ofNat_toNat]
  simp only [normalizeDigits, List.map_cons, List.map_nil, hdigit, hchar]

theorem Text.trimWhere_of_forall {p : Char → Bool} {cs : List Char} (h : ∀ c ∈ cs, p c = false) :
    trimWhere p cs = cs := by
  have hdrop (ds : List Char) (hds : ∀ c ∈ ds, c ∈ cs) : ds.dropWhile p = ds := by
    cases ds with
    | nil => rfl
    | cons d ds => rw [List.dropWhile_cons_of_neg (by simp [h d (hds d (by simp))])]
  rw [trimWhere, hdrop cs fun _ => id, hdrop cs.reverse (by simp), List.reverse_reverse]

section

variable {cs : List Char} (h : ∀ c ∈ cs, IsPlain c)

include h

theorem normalizeDigits_plain : normalizeDigits cs = cs := by
  induction cs with
  | nil => rfl
  | cons c cs ih =>
    change normalizeDigits [c] ++ normalizeDigits cs = c :: cs
    rw [(h c (by simp)).1, ih fun d hd => h d (by simp [hd])]
    rfl

theorem trimBlanks_plain : Text.trimBlanks cs = cs :=
  Text.trimWhere_of_forall fun c hc => (h c hc).2.1

theorem dropUnderscores_plain (isDigit : Char → Bool) (afterDigit : Bool) :
    dropUnderscores? isDigit afterDigit cs = some cs := by
  induction cs generalizing afterDigit with
  | nil => rfl
  | cons c cs ih =>
    have hc := (h c (by simp)).2.2
    rw [dropUnderscores?.eq_def]
    split
    · next heq => cases heq
    · next heq => cases heq; exact absurd rfl hc
    · next heq => cases heq; exact absurd rfl hc
    · next heq =>
      cases heq
      rw [ih fun d hd => h d (by simp [hd])]
      rfl

end

/-! ## Signs -/

/-- What is written of a number, with its sign. -/
def withSignChar (negative : Bool) (body : List Char) : List Char :=
  if negative then '-' :: body else body

theorem splitSign_unsigned {c : Char} {cs : List Char} (hminus : c ≠ '-') (hplus : c ≠ '+') :
    splitSign (c :: cs) = (false, c :: cs) := by
  unfold splitSign
  split <;> simp_all

theorem splitSign_withSignChar (negative : Bool) {c : Char} {cs : List Char} (hminus : c ≠ '-') (hplus : c ≠ '+') :
    splitSign (withSignChar negative (c :: cs)) = (negative, c :: cs) := by
  cases negative with
  | true => rfl
  | false => exact splitSign_unsigned hminus hplus

theorem isPlain_withSignChar (negative : Bool) {body : List Char} (h : ∀ c ∈ body, IsPlain c) :
    ∀ c ∈ withSignChar negative body, IsPlain c := by
  unfold withSignChar
  split
  · intro c hc
    rcases List.mem_cons.mp hc with rfl | hc
    · decide
    · exact h c hc
  · exact h

/-! ## Digits -/

namespace Text

theorem natOfDigits_append (cs ds : List Char) :
    natOfDigits (cs ++ ds) = natOfDigits cs * 10 ^ ds.length + natOfDigits ds := by
  rw [natOfDigits_eq, natOfDigits_eq, natOfDigits_eq, Nat.ofDigitChars_append, Nat.ofDigitChars_eq_ofDigitChars_zero,
    Nat.mul_comm]

@[simp] theorem natOfDigits_zeros (n : Nat) : natOfDigits (List.replicate n '0') = 0 := by
  rw [natOfDigits_eq, Nat.ofDigitChars_replicate_zero, Nat.mul_zero]

@[simp] theorem natOfDigits_zero_cons (cs : List Char) : natOfDigits ('0' :: cs) = natOfDigits cs := by
  rw [← List.singleton_append, natOfDigits_append]
  simp [natOfDigits]

@[simp] theorem natOfDigits_after_zeros (n : Nat) (cs : List Char) :
    natOfDigits (List.replicate n '0' ++ cs) = natOfDigits cs := by
  rw [natOfDigits_append, natOfDigits_zeros, Nat.zero_mul, Nat.zero_add]

theorem isDigit_zeros (n : Nat) : ∀ c ∈ List.replicate n '0', c.isDigit = true := by
  intro c hc
  rw [List.eq_of_mem_replicate hc]
  rfl

theorem isDigit_after_zeros (n : Nat) {cs : List Char} (h : ∀ c ∈ cs, c.isDigit = true) :
    ∀ c ∈ List.replicate n '0' ++ cs, c.isDigit = true :=
  List.forall_mem_append.mpr ⟨isDigit_zeros n, h⟩

end Text

theorem takeWhile_digits {ds rest : List Char} (hds : ∀ c ∈ ds, c.isDigit = true)
    (hrest : ∀ c ∈ rest.head?, c.isDigit = false) :
    (ds ++ rest).takeWhile Char.isDigit = ds ∧ (ds ++ rest).dropWhile Char.isDigit = rest := by
  have hstop : rest.takeWhile Char.isDigit = [] ∧ rest.dropWhile Char.isDigit = rest := by
    cases rest with
    | nil => exact ⟨rfl, rfl⟩
    | cons c rest =>
      have hc : ¬ c.isDigit = true := by simp [hrest c rfl]
      exact ⟨List.takeWhile_cons_of_neg hc, List.dropWhile_cons_of_neg hc⟩
  rw [List.takeWhile_append_of_pos hds, List.dropWhile_append_of_pos hds, hstop.1, hstop.2, List.append_nil]
  exact ⟨rfl, rfl⟩

/-- An integral number, with an exponent if there is one. -/
theorem decimalText_whole {ds rest : List Char} (hne : ds ≠ []) (hds : ∀ c ∈ ds, c.isDigit = true)
    (hrest : ∀ c ∈ rest.head?, c.isDigit = false ∧ c ≠ '.') :
    decimalText? (ds ++ rest) = (exponent? rest).map fun e => (ds, e) := by
  obtain ⟨htake, hdrop⟩ := takeWhile_digits hds fun c hc => (hrest c hc).1
  unfold decimalText?
  simp only [htake, hdrop]
  split
  · exact absurd rfl (hrest '.' rfl).2
  · rw [if_neg (by simpa using hne)]
    simp

/-- A number with a point, and an exponent if there is one. -/
theorem decimalText_point {w f r : List Char} (hne : w ≠ []) (hw : ∀ c ∈ w, c.isDigit = true)
    (hf : ∀ c ∈ f, c.isDigit = true) (hr : ∀ c ∈ r.head?, c.isDigit = false) :
    decimalText? (w ++ '.' :: (f ++ r)) = (exponent? r).map fun e => (w ++ f, e - (f.length : Int)) := by
  have hpoint : ∀ c ∈ ('.' :: (f ++ r)).head?, c.isDigit = false := by
    rintro _ ⟨⟩
    decide
  obtain ⟨htake, hdrop⟩ := takeWhile_digits hw hpoint
  obtain ⟨htake', hdrop'⟩ := takeWhile_digits hf hr
  unfold decimalText?
  simp only [htake, hdrop, htake', hdrop']
  rw [if_neg (by simp [hne])]

/-- The point after zero, and zeros before the digits. -/
theorem decimalText_fraction {ds r : List Char} (hds : ∀ c ∈ ds, c.isDigit = true)
    (hr : ∀ c ∈ r.head?, c.isDigit = false) (n : Nat) :
    decimalText? ('0' :: '.' :: (List.replicate n '0' ++ (ds ++ r))) =
      (exponent? r).map fun e => ('0' :: (List.replicate n '0' ++ ds), e - (n + ds.length : Int)) := by
  have hread := decimalText_point (w := ['0']) (by simp) (by simp) (Text.isDigit_after_zeros n hds) hr
  rw [List.append_assoc, List.length_append, List.length_replicate, Int.natCast_add] at hread
  exact hread

/-- The point among the digits. -/
theorem decimalText_divided {ds r : List Char} {k : Nat} (hne : ds ≠ []) (hk : k ≠ 0)
    (hds : ∀ c ∈ ds, c.isDigit = true) (hr : ∀ c ∈ r.head?, c.isDigit = false) :
    decimalText? (ds.take k ++ '.' :: (ds.drop k ++ r)) =
      (exponent? r).map fun e => (ds, e - ((ds.length - k : Nat) : Int)) := by
  have htake : ds.take k ≠ [] := by
    rw [ne_eq, List.take_eq_nil_iff]
    exact not_or.mpr ⟨hk, hne⟩
  have hread := decimalText_point (f := ds.drop k) htake (fun c hc => hds c (List.mem_of_mem_take hc))
    (fun c hc => hds c (List.mem_of_mem_drop hc)) hr
  rw [List.take_append_drop, List.length_drop] at hread
  exact hread

theorem exponent_written {mark : Char} (hmark : mark = 'e' ∨ mark = 'E') (negative : Bool) {ds : List Char} (hne : ds ≠ [])
    (hds : ∀ c ∈ ds, c.isDigit = true) :
    exponent? (mark :: (if negative then '-' else '+') :: ds) =
      some (if negative then -(Text.natOfDigits ds : Int) else Text.natOfDigits ds) := by
  have hsign : splitSign ((if negative then '-' else '+') :: ds) = (negative, ds) := by
    cases negative <;> rfl
  have hdigits : (decide (ds ≠ []) && ds.all Char.isDigit) = true := by simpa [hne] using hds
  have hmark : (decide (mark = 'e') || decide (mark = 'E')) = true := by simpa using hmark
  rw [exponent?, if_pos hmark]
  simp only [hsign]
  rw [if_pos hdigits]

end ExprTree
