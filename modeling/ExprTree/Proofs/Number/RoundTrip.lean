import ExprTree.Number.DecimalText
import ExprTree.Proofs.Number.Plain
import ExprTree.Proofs.Number.Shortest

/-!
# Reading written numbers

Integers, decimals and floats are written so that they read back: an integer
unless it has too many digits, a decimal with its own coefficient and
exponent, and a float from the shortest digits near it.
-/

namespace ExprTree

/-- The first digit of a number. -/
theorem toDigits_cons (n : Nat) : ∃ c cs, Nat.toDigits 10 n = c :: cs ∧ c.isDigit = true := by
  obtain ⟨c, cs, h⟩ := List.exists_cons_of_ne_nil (Nat.toDigits_ne_nil (n := n) (b := 10))
  exact ⟨c, cs, h, Text.isDigit_of_mem_toDigits (h ▸ List.mem_cons_self)⟩

theorem isPlain_of_digits {cs : List Char} (h : ∀ c ∈ cs, c.isDigit = true) : ∀ c ∈ cs, IsPlain c :=
  fun c hc => isPlain_of_isDigit (h c hc)

theorem not_sign_of_isDigit {c : Char} (h : c.isDigit = true) : c ≠ '-' ∧ c ≠ '+' := by
  constructor
  · rintro rfl
    cases h
  · rintro rfl
    cases h

theorem toLower_of_isDigit {c : Char} (h : c.isDigit = true) : c.toLower = c := by
  simp only [Char.isDigit, Bool.and_eq_true, decide_eq_true_eq] at h
  have h₂ : c.val ≤ 57 := h.2
  unfold Char.toLower
  rw [dif_neg fun hc => ?_]
  exact absurd (UInt32.le_trans hc.1 h₂) (by decide)

/-! ## Integers -/

theorem toList_toString_int (n : Int) :
    (toString n).toList = withSignChar (decide (n < 0)) (Nat.toDigits 10 n.natAbs) := by
  rw [Int.toString_eq_repr, Int.repr_eq_if]
  by_cases h : 0 ≤ n
  · rw [if_pos h, withSignChar, if_neg (by simpa using h), Nat.toList_repr]
    congr 1
    omega
  · rw [if_neg h, withSignChar, if_pos (by simpa using h), String.toList_append, Nat.toList_repr]
    change '-' :: Nat.toDigits 10 (-n).toNat = _
    congr 2
    omega

theorem readInteger_toString {n : Int} (h : digitCount n.natAbs ≤ integerDigitLimit) :
    readInteger? (toString n) = some n := by
  obtain ⟨c, cs, hdigits, hc⟩ := toDigits_cons n.natAbs
  have hplain := isPlain_withSignChar (decide (n < 0))
    (isPlain_of_digits fun c hc => Text.isDigit_of_mem_toDigits (n := n.natAbs) hc)
  have hbody := isPlain_of_digits fun c hc => Text.isDigit_of_mem_toDigits (n := n.natAbs) hc
  unfold readInteger?
  rw [toList_toString_int, normalizeDigits_plain hplain, trimBlanks_plain hplain]
  have hsplit : splitSign (withSignChar (decide (n < 0)) (Nat.toDigits 10 n.natAbs)) =
      (decide (n < 0), Nat.toDigits 10 n.natAbs) := by
    rw [hdigits]
    exact splitSign_withSignChar _ (not_sign_of_isDigit hc).1 (not_sign_of_isDigit hc).2
  simp only [hsplit, dropUnderscores_plain hbody, Option.bind_eq_bind, Option.bind_some]
  have hok : (decide (Nat.toDigits 10 n.natAbs ≠ []) && (Nat.toDigits 10 n.natAbs).all Char.isDigit &&
      decide ((Nat.toDigits 10 n.natAbs).length ≤ integerDigitLimit)) = true := by
    simp only [Bool.and_eq_true, decide_eq_true_eq]
    exact ⟨⟨Nat.toDigits_ne_nil, Text.all_isDigit_toDigits _⟩, h⟩
  rw [if_pos hok, Text.natOfDigits_toDigits]
  unfold withSign
  split
  · next hneg =>
    rw [decide_eq_true_eq] at hneg
    congr 1
    omega
  · next hneg =>
    rw [decide_eq_true_eq] at hneg
    congr 1
    omega

/-! ## Digits, zeros and a point -/

section

variable {digits : List Char} {n : Nat}

theorem isPlain_padded (hplain : ∀ c ∈ digits, IsPlain c) : ∀ c ∈ digits ++ List.replicate n '0', IsPlain c := by
  refine List.forall_mem_append.mpr ⟨hplain, fun c hc => ?_⟩
  rw [List.eq_of_mem_replicate hc]
  decide

theorem isPlain_fraction (hplain : ∀ c ∈ digits, IsPlain c) :
    ∀ c ∈ '0' :: '.' :: List.replicate n '0' ++ digits, IsPlain c := by
  intro c hc
  simp only [List.cons_append, List.mem_cons, List.mem_append] at hc
  rcases hc with rfl | rfl | hc | hc
  · decide
  · decide
  · rw [List.eq_of_mem_replicate hc]
    decide
  · exact hplain c hc

theorem isPlain_divided (hplain : ∀ c ∈ digits, IsPlain c) :
    ∀ c ∈ digits.take n ++ '.' :: digits.drop n, IsPlain c := by
  intro c hc
  simp only [List.mem_append, List.mem_cons] at hc
  rcases hc with hc | rfl | hc
  · exact hplain c (List.mem_of_mem_take hc)
  · decide
  · exact hplain c (List.mem_of_mem_drop hc)

end

/-! ## Decimals -/

namespace Decimal

/-- Where the point is written: after so many digits, or before zeros if negative. -/
def pointOf (count : Nat) (e : Int) : Int :=
  if e ≤ 0 && e + count > -6 then e + count else 1

/-- The digits with their point. -/
def positional (digits : List Char) (point : Int) : List Char :=
  if point ≤ 0 then '0' :: '.' :: List.replicate (-point).toNat '0' ++ digits
  else if point ≥ digits.length then digits ++ List.replicate (point - digits.length).toNat '0'
  else digits.take point.toNat ++ '.' :: digits.drop point.toNat

/-- The power that is left over, if there is one. -/
def powerText (power : Int) : List Char :=
  if power = 0 then [] else 'E' :: (if power < 0 then '-' else '+') :: Nat.toDigits 10 power.natAbs

theorem render_finite (s : Bool) (c : Nat) (e : Int) :
    (render (.finite s c e)).toList = withSignChar s
      (positional (Nat.toDigits 10 c) (pointOf (Nat.toDigits 10 c).length e) ++
        powerText (e + (Nat.toDigits 10 c).length - pointOf (Nat.toDigits 10 c).length e)) := by
  have hpower (a b : Int) : (a - b = 0) ↔ (a = b) := by omega
  unfold render positional powerText pointOf withSignChar
  simp only [String.toList_ofList, hpower]
  cases s <;> simp

theorem exponent_powerText (power : Int) : exponent? (powerText power) = some power := by
  unfold powerText
  split
  · next h => rw [h]; rfl
  · have hwritten := exponent_written (.inr rfl) (decide (power < 0)) (Nat.toDigits_ne_nil (n := power.natAbs) (b := 10))
      fun c hc => Text.isDigit_of_mem_toDigits hc
    simp only [decide_eq_true_eq, Text.natOfDigits_toDigits] at hwritten
    rw [hwritten]
    split <;> congr 1 <;> omega

theorem powerText_head (power : Int) : ∀ c ∈ (powerText power).head?, c.isDigit = false ∧ c ≠ '.' := by
  unfold powerText
  split
  · simp
  · rintro _ ⟨⟩
    decide

theorem pointOf_le {n : Nat} (hn : 0 < n) (e : Int) : pointOf n e ≤ n := by
  unfold pointOf
  split
  · next h =>
    simp only [Bool.and_eq_true, decide_eq_true_eq] at h
    omega
  · omega

/-- Wherever the point is, the digits and the exponent are what was written. -/
theorem decimalText_positional {digits : List Char} (hne : digits ≠ []) (hdigits : ∀ c ∈ digits, c.isDigit = true)
    {point : Int} (hpoint : point ≤ digits.length) (power : Int) :
    ∃ ds, decimalText? (positional digits point ++ powerText power) = some (ds, power - (digits.length - point)) ∧
      Text.natOfDigits ds = Text.natOfDigits digits := by
  have hhead : ∀ c ∈ (powerText power).head?, c.isDigit = false := fun c hc => (powerText_head power c hc).1
  unfold positional
  split
  · next h =>
    refine ⟨'0' :: (List.replicate (-point).toNat '0' ++ digits), ?_, by simp⟩
    have hread := decimalText_fraction hdigits hhead (-point).toNat
    rw [exponent_powerText, Option.map_some] at hread
    simp only [List.cons_append, List.append_assoc, hread]
    congr 2
    omega
  · split
    · next h =>
      obtain rfl : point = digits.length := le_antisymm hpoint h
      refine ⟨digits, ?_, rfl⟩
      rw [sub_self, Int.toNat_zero, List.replicate_zero, List.append_nil,
        decimalText_whole hne hdigits (powerText_head power), exponent_powerText, Option.map_some, sub_zero]
    · next hpos h =>
      refine ⟨digits, ?_, rfl⟩
      have hread := decimalText_divided hne (k := point.toNat) (by omega) hdigits hhead
      rw [exponent_powerText, Option.map_some] at hread
      rw [List.append_assoc, List.cons_append, hread]
      congr 2
      omega

theorem positional_cons {digits : List Char} (hne : digits ≠ []) (hdigits : ∀ c ∈ digits, c.isDigit = true) (point : Int) :
    ∃ c cs, positional digits point = c :: cs ∧ c.isDigit = true := by
  obtain ⟨c, cs, rfl⟩ := List.exists_cons_of_ne_nil hne
  unfold positional
  split
  · exact ⟨_, _, rfl, rfl⟩
  · split
    · exact ⟨_, _, rfl, hdigits c List.mem_cons_self⟩
    · next h _ =>
      obtain ⟨n, hn⟩ : ∃ n, point.toNat = n + 1 := ⟨point.toNat - 1, by omega⟩
      rw [hn]
      exact ⟨_, _, rfl, hdigits c List.mem_cons_self⟩

theorem isPlain_positional {digits : List Char} (hdigits : ∀ c ∈ digits, c.isDigit = true) (point : Int) :
    ∀ c ∈ positional digits point, IsPlain c := by
  have hplain := isPlain_of_digits hdigits
  unfold positional
  split
  · exact isPlain_fraction hplain
  · split
    · exact isPlain_padded hplain
    · exact isPlain_divided hplain

theorem isPlain_powerText (power : Int) : ∀ c ∈ powerText power, IsPlain c := by
  intro c hc
  unfold powerText at hc
  split at hc
  · cases hc
  · simp only [List.mem_cons] at hc
    rcases hc with rfl | rfl | hc
    · decide
    · split <;> decide
    · exact isPlain_of_isDigit (Text.isDigit_of_mem_toDigits hc)

theorem read_signed {text : String} {s : Bool} {body : List Char} (htext : text.toList = withSignChar s body)
    (hplain : ∀ c ∈ body, IsPlain c) :
    Text.trimBlanks (normalizeDigits text.toList) = withSignChar s body := by
  rw [htext, normalizeDigits_plain (isPlain_withSignChar s hplain), trimBlanks_plain (isPlain_withSignChar s hplain)]

theorem read_finite (s : Bool) (c : Nat) (e : Int) (h : (finite s c e).isRepresentable = true) :
    read? (render (.finite s c e)) = some (.finite s c e) := by
  have hdigits : ∀ d ∈ Nat.toDigits 10 c, d.isDigit = true := fun _ => Text.isDigit_of_mem_toDigits
  have htext := render_finite s c e
  have hpoint := pointOf_le (n := (Nat.toDigits 10 c).length) Nat.length_toDigits_pos e
  generalize pointOf (Nat.toDigits 10 c).length e = point at htext hpoint
  obtain ⟨ds, hread, hvalue⟩ := decimalText_positional Nat.toDigits_ne_nil hdigits hpoint
    (e + (Nat.toDigits 10 c).length - point)
  have hplain := isPlain_positional hdigits point
  obtain ⟨d, cs, hcons, hd⟩ := positional_cons Nat.toDigits_ne_nil hdigits point
  have hplain_all : ∀ x ∈ positional (Nat.toDigits 10 c) point ++ powerText (e + (Nat.toDigits 10 c).length - point),
      IsPlain x := by
    intro x hx
    rcases List.mem_append.mp hx with hx | hx
    · exact hplain x hx
    · exact isPlain_powerText _ x hx
  have hplain_text := isPlain_withSignChar s hplain_all
  unfold read?
  rw [read_signed htext hplain_all, List.filter_eq_self.mpr fun x hx => by simpa using (hplain_text x hx).2.2]
  rw [hcons, List.cons_append] at hread ⊢
  have hword {w : Char} (hw : w.isDigit = false) : d ≠ w := by
    rintro rfl
    rw [hw] at hd
    cases hd
  simp only [splitSign_withSignChar s (not_sign_of_isDigit hd).1 (not_sign_of_isDigit hd).2, List.map_cons,
    toLower_of_isDigit hd, List.take_succ_cons]
  rw [if_neg (by simp [hword]), if_neg (by simp [hword]), if_neg (by simp [hword]), hread]
  simp only [Option.bind_eq_bind, Option.bind_some, hvalue, Text.natOfDigits_toDigits]
  rw [show e + (Nat.toDigits 10 c).length - point - ((Nat.toDigits 10 c).length - point) = e by omega, if_pos h]

/-- The digits after the word for what is not a number. -/
def payloadText (p : Nat) : List Char :=
  if p = 0 then [] else Nat.toDigits 10 p

theorem isDigit_payloadText {p : Nat} : ∀ c ∈ payloadText p, c.isDigit = true := by
  intro c hc
  unfold payloadText at hc
  split at hc
  · cases hc
  · exact Text.isDigit_of_mem_toDigits hc

theorem payload_payloadText (p : Nat) : payload? (payloadText p) = some p := by
  unfold payload?
  rw [if_pos (List.all_eq_true.mpr isDigit_payloadText)]
  unfold payloadText
  split
  · next hp => rw [hp]; rfl
  · rw [Text.natOfDigits_toDigits]

theorem render_nan (s q : Bool) (p : Nat) :
    (render (.nan s q p)).toList = withSignChar s ((if q then ['s', 'N', 'a', 'N'] else ['N', 'a', 'N']) ++ payloadText p) := by
  unfold render payloadText withSignChar
  cases s <;> cases q <;> by_cases hp : p = 0 <;> simp [hp]

theorem read_nan (s q : Bool) (p : Nat) : read? (render (.nan s q p)) = some (.nan s q p) := by
  have hplain : ∀ c ∈ (if q then ['s', 'N', 'a', 'N'] else ['N', 'a', 'N']) ++ payloadText p, IsPlain c := by
    intro c hc
    rcases List.mem_append.mp hc with hc | hc
    · have hletters : c = 's' ∨ c = 'N' ∨ c = 'a' := by
        cases q <;> simp at hc <;> tauto
      rcases hletters with rfl | rfl | rfl <;> decide
    · exact isPlain_of_isDigit (isDigit_payloadText c hc)
  have hlower : (payloadText p).map Char.toLower = payloadText p := by
    rw [List.map_congr_left fun c hc => toLower_of_isDigit (isDigit_payloadText c hc), List.map_id']
  have htext := render_nan s q p
  unfold read?
  rw [read_signed htext hplain,
    List.filter_eq_self.mpr fun x hx => by simpa using (isPlain_withSignChar s hplain x hx).2.2]
  cases q with
  | false =>
    have hsplit : splitSign (withSignChar s (['N', 'a', 'N'] ++ payloadText p)) = (s, ['N', 'a', 'N'] ++ payloadText p) :=
      splitSign_withSignChar s (by decide) (by decide)
    have hword : (['N', 'a', 'N'] ++ payloadText p).map Char.toLower = 'n' :: 'a' :: 'n' :: payloadText p := by
      rw [List.map_append, hlower]
      rfl
    simp only [Bool.false_eq_true, if_false, hsplit, hword, List.take_succ_cons, List.take_zero, List.drop_succ_cons,
      List.drop_zero, payload_payloadText]
    rw [if_neg (by simp), if_pos (by decide)]
    rfl
  | true =>
    have hsplit : splitSign (withSignChar s (['s', 'N', 'a', 'N'] ++ payloadText p)) =
        (s, ['s', 'N', 'a', 'N'] ++ payloadText p) :=
      splitSign_withSignChar s (by decide) (by decide)
    have hword : (['s', 'N', 'a', 'N'] ++ payloadText p).map Char.toLower = 's' :: 'n' :: 'a' :: 'n' :: payloadText p := by
      rw [List.map_append, hlower]
      rfl
    simp only [if_true, hsplit, hword, List.take_succ_cons, List.take_zero, List.drop_succ_cons, List.drop_zero,
      payload_payloadText]
    rw [if_neg (by simp), if_neg (by decide), if_pos (by decide)]
    rfl

theorem read_render {d : Decimal} (h : d.isRepresentable = true) : read? d.render = some d := by
  cases d with
  | finite s c e => exact read_finite s c e h
  | infinite s => cases s <;> decide
  | nan s q p => exact read_nan s q p

end Decimal

/-! ## Floats -/

namespace FloatStyle

/-- The text of a number whose digits are laid out has those digits, up to zeros at either end. -/
def Shows (body digits : List Char) (k : Int) : Prop :=
  ∃ ds j, decimalText? body = some (ds, j) ∧ (Text.natOfDigits ds * 10 ^ j : ℚ) = Text.natOfDigits digits * 10 ^ k

variable {digits : List Char} {k : Int}

theorem withPoint_shows (hne : digits ≠ []) (hdigits : ∀ c ∈ digits, c.isDigit = true) : Shows (withPoint digits k) digits k := by
  have hnone : exponent? [] = some 0 := rfl
  unfold withPoint
  split
  · next h =>
    refine ⟨digits ++ List.replicate k.toNat '0' ++ ['0'], -1, ?_, ?_⟩
    · have hwhole : ∀ c ∈ digits ++ List.replicate k.toNat '0', c.isDigit = true :=
        List.forall_mem_append.mpr ⟨hdigits, Text.isDigit_zeros _⟩
      have hread := decimalText_point (f := ['0']) (r := []) (by simp [hne]) hwhole (by simp) (by simp)
      rw [hnone, Option.map_some] at hread
      exact hread
    · have hk : (10 : ℚ) ^ k = 10 ^ k.toNat := by rw [← zpow_natCast, Int.toNat_of_nonneg h]
      rw [Text.natOfDigits_append, Text.natOfDigits_append, Text.natOfDigits_zeros, hk]
      simp [Text.natOfDigits]
  · next h =>
    dsimp only
    split
    · next hlong =>
      refine ⟨digits, k, ?_, rfl⟩
      have hread := decimalText_divided (r := []) hne (k := digits.length - (-k).toNat) (by omega) hdigits (by simp)
      rw [List.append_nil, hnone, Option.map_some] at hread
      rw [hread]
      congr 2
      omega
    · next hshort =>
      refine ⟨'0' :: (List.replicate ((-k).toNat - digits.length) '0' ++ digits), k, ?_, by simp⟩
      have hread := decimalText_fraction (r := []) hdigits (by simp) ((-k).toNat - digits.length)
      rw [List.append_nil, hnone, Option.map_some] at hread
      simp only [List.cons_append, hread]
      congr 2
      omega

/-- The exponent as it is written, with at least two digits. -/
def exponentText (exponent : Int) : List Char :=
  'e' :: (if exponent < 0 then '-' else '+') ::
    (List.replicate (2 - (Nat.toDigits 10 exponent.natAbs).length) '0' ++ Nat.toDigits 10 exponent.natAbs)

theorem exponent_exponentText (exponent : Int) : exponent? (exponentText exponent) = some exponent := by
  have hdigits := Text.isDigit_after_zeros (2 - (Nat.toDigits 10 exponent.natAbs).length)
    fun c hc => Text.isDigit_of_mem_toDigits (n := exponent.natAbs) hc
  have hwritten := exponent_written (.inl rfl) (decide (exponent < 0)) (by simp [Nat.toDigits_ne_nil]) hdigits
  rw [Text.natOfDigits_after_zeros, Text.natOfDigits_toDigits] at hwritten
  simp only [decide_eq_true_eq] at hwritten
  unfold exponentText
  rw [hwritten]
  split <;> congr 1 <;> omega

theorem exponentText_head (exponent : Int) : ∀ c ∈ (exponentText exponent).head?, c.isDigit = false ∧ c ≠ '.' := by
  rintro _ ⟨⟩
  decide

theorem withExponent_shows (hne : digits ≠ []) (hdigits : ∀ c ∈ digits, c.isDigit = true) :
    Shows (withExponent digits k) digits k := by
  refine ⟨digits, k, ?_, rfl⟩
  obtain ⟨d, rest, rfl⟩ := List.exists_cons_of_ne_nil hne
  have hd : ∀ c ∈ [d], c.isDigit = true := by simpa using hdigits d List.mem_cons_self
  have hhead := exponentText_head (k + (d :: rest).length - 1)
  cases rest with
  | nil =>
    have hread := decimalText_whole (List.cons_ne_nil d []) hd hhead
    rw [exponent_exponentText, Option.map_some] at hread
    rw [show withExponent [d] k = [d] ++ exponentText (k + [d].length - 1) by simp [withExponent, exponentText], hread]
    simp
  | cons c cs =>
    have hread := decimalText_point (f := c :: cs) (List.cons_ne_nil d []) hd
      (fun x hx => hdigits x (List.mem_cons_of_mem d hx)) fun x hx => (hhead x hx).1
    rw [exponent_exponentText, Option.map_some] at hread
    rw [show withExponent (d :: c :: cs) k = [d] ++ '.' :: (c :: cs ++ exponentText (k + (d :: c :: cs).length - 1)) by
      simp [withExponent, exponentText], hread]
    congr 2
    simp only [List.length_cons]
    omega

/-- Plain characters, the first of which is a digit. -/
structure IsNumeral (cs : List Char) : Prop where
  plain : ∀ c ∈ cs, IsPlain c
  head : ∃ c rest, cs = c :: rest ∧ c.isDigit = true

theorem isNumeral_withPoint (hne : digits ≠ []) (hdigits : ∀ c ∈ digits, c.isDigit = true) :
    IsNumeral (withPoint digits k) := by
  have hplain := isPlain_of_digits hdigits
  obtain ⟨d, rest, hcons⟩ := List.exists_cons_of_ne_nil hne
  have hd : d.isDigit = true := hdigits d (hcons ▸ List.mem_cons_self)
  unfold withPoint
  split
  · have hend : ∀ c ∈ ['.', '0'], IsPlain c :=
      List.forall_mem_cons.mpr ⟨by decide, List.forall_mem_singleton.mpr (by decide)⟩
    exact ⟨List.forall_mem_append.mpr ⟨isPlain_padded hplain, hend⟩, d, _, by rw [hcons]; rfl, hd⟩
  · dsimp only
    split
    · next hlong =>
      obtain ⟨n, hn⟩ : ∃ n, digits.length - (-k).toNat = n + 1 := ⟨digits.length - (-k).toNat - 1, by omega⟩
      exact ⟨isPlain_divided hplain, d, _, by rw [hn, hcons]; rfl, hd⟩
    · exact ⟨isPlain_fraction hplain, '0', _, rfl, by decide⟩

theorem isPlain_exponentText (exponent : Int) : ∀ c ∈ exponentText exponent, IsPlain c := by
  intro c hc
  unfold exponentText at hc
  simp only [List.mem_cons, List.mem_append] at hc
  rcases hc with rfl | rfl | hc | hc
  · decide
  · split <;> decide
  · rw [List.eq_of_mem_replicate hc]
    decide
  · exact isPlain_of_isDigit (Text.isDigit_of_mem_toDigits hc)

theorem isNumeral_withExponent (hne : digits ≠ []) (hdigits : ∀ c ∈ digits, c.isDigit = true) :
    IsNumeral (withExponent digits k) := by
  have hplain := isPlain_of_digits hdigits
  have hpoint : IsPlain '.' := by decide
  obtain ⟨d, rest, rfl⟩ := List.exists_cons_of_ne_nil hne
  have hd := hdigits d List.mem_cons_self
  have htail := isPlain_exponentText (k + (d :: rest).length - 1)
  cases rest with
  | nil =>
    rw [show withExponent [d] k = d :: exponentText (k + [d].length - 1) by simp [withExponent, exponentText]]
    refine ⟨fun c hc => ?_, d, _, rfl, hd⟩
    rcases List.mem_cons.mp hc with rfl | hc
    · exact hplain c List.mem_cons_self
    · exact htail c hc
  | cons x xs =>
    rw [show withExponent (d :: x :: xs) k = d :: '.' :: (x :: xs ++ exponentText (k + (d :: x :: xs).length - 1)) by
      simp [withExponent, exponentText]]
    refine ⟨fun c hc => ?_, d, _, rfl, hd⟩
    rcases List.mem_cons.mp hc with rfl | hc
    · exact hplain c List.mem_cons_self
    · rcases List.mem_cons.mp hc with rfl | hc
      · exact hpoint
      · rcases List.mem_append.mp hc with hc | hc
        · exact hplain c (List.mem_cons_of_mem d hc)
        · exact htail c hc

end FloatStyle

namespace Format

theorem ofDecimal_eq {f : Format} {negative : Bool} {ds : List Char} {k : Int} (hd : Text.natOfDigits ds ≠ 0)
    (hlow : -400 ≤ k + digitCount (Text.natOfDigits ds)) (hhigh : k + digitCount (Text.natOfDigits ds) ≤ 400) :
    f.ofDecimal negative ds k =
      f.round negative (decimalQuotient (Text.natOfDigits ds) k).1 (decimalQuotient (Text.natOfDigits ds) k).2 := by
  unfold ofDecimal decimalQuotient
  dsimp only
  rw [if_neg hd, if_neg (by omega), if_neg (by omega)]
  split <;> rfl

/-- The first digit of a decimal is at one place less than the number of its digits. -/
theorem decimal_bounds {d : Nat} (hd : d ≠ 0) (k : Int) :
    (10 : ℚ) ^ (k + digitCount d - 1) ≤ d * 10 ^ k ∧ (d * 10 ^ k : ℚ) < 10 ^ (k + digitCount d) := by
  have hten : (0 : ℚ) < 10 ^ k := by positivity
  have hcount : 0 < digitCount d := Nat.length_toDigits_pos
  constructor
  · rw [show k + digitCount d - 1 = ((digitCount d - 1 : Nat) : Int) + k by omega, zpow_add₀ (by norm_num), zpow_natCast]
    refine mul_le_mul_of_nonneg_right ?_ hten.le
    exact_mod_cast pow_digitCount_le (Nat.pos_of_ne_zero hd)
  · rw [add_comm, zpow_add₀ (by norm_num), zpow_natCast]
    refine mul_lt_mul_of_pos_right ?_ hten
    exact_mod_cast lt_pow_digitCount d

theorem cast_two_pow_lt {a b c : Nat} (h : 2 ^ a * 2 ^ b < 10 ^ c) : (2 ^ a * 2 ^ b : ℚ) < 10 ^ c := by
  exact_mod_cast h

/-- A decimal of half the smallest unit of the double format is not read as zero. -/
theorem decimal_not_tiny {d : Nat} {e k : Int} (hd : d ≠ 0) (he : -1074 ≤ e) (hleast : 2 ^ e / 2 ≤ (d * 10 ^ k : ℚ)) :
    -400 ≤ k + digitCount d := by
  obtain ⟨-, hhigh⟩ := decimal_bounds hd k
  by_contra hsmall
  have hexponent : (2 : ℚ) ^ (-1074 : Int) ≤ 2 ^ e := zpow_le_zpow_right₀ (by norm_num) he
  have hmagnitude : (10 : ℚ) ^ (k + digitCount d) ≤ 10 ^ (-401 : Int) := zpow_le_zpow_right₀ (by norm_num) (by omega)
  have hgap : (10 : ℚ) ^ (-401 : Int) < 2 ^ (-1074 : Int) / 2 := by
    have : (2 ^ 1074 * 2 ^ 1 : ℚ) < 10 ^ 401 := cast_two_pow_lt (by decide +kernel)
    rw [pow_one] at this
    rw [zpow_neg, zpow_neg, div_eq_mul_inv, ← mul_inv, zpow_ofNat, zpow_ofNat]
    exact inv_strictAnti₀ (by positivity) this
  linarith

/-- A decimal that is no more than the double format can round is not read as infinite. -/
theorem decimal_not_huge {m d : Nat} {e k : Int} (hd : d ≠ 0) (hm : m < 2 ^ 53) (he : e ≤ 971)
    (hmost : (d * 10 ^ k : ℚ) ≤ (m + 1 / 2) * 2 ^ e) : k + digitCount d ≤ 400 := by
  obtain ⟨hlow, -⟩ := decimal_bounds hd k
  by_contra hlarge
  have hmagnitude : (10 : ℚ) ^ (400 : Int) ≤ 10 ^ (k + digitCount d - 1) :=
    zpow_le_zpow_right₀ (by norm_num) (by omega)
  have hmantissa : (m + 1 / 2 : ℚ) ≤ 2 ^ 54 := by
    have : (m : ℚ) ≤ 2 ^ 53 := by exact_mod_cast hm.le
    linarith
  have hexponent : (2 : ℚ) ^ e ≤ 2 ^ (971 : Int) := zpow_le_zpow_right₀ (by norm_num) he
  have hgap : (2 : ℚ) ^ 54 * 2 ^ (971 : Int) < 10 ^ (400 : Int) := by
    rw [zpow_ofNat, zpow_ofNat]
    exact cast_two_pow_lt (by decide +kernel)
  have hbound : (m + 1 / 2 : ℚ) * 2 ^ e ≤ 2 ^ 54 * 2 ^ (971 : Int) :=
    mul_le_mul hmantissa hexponent (by positivity) (by norm_num)
  exact absurd ((hmagnitude.trans hlow).trans (hmost.trans hbound)) (not_le.mpr hgap)

/-- A decimal near a number of the double format is read as that number. -/
theorem ofDecimal_near {negative : Bool} {m : Nat} {e k : Int} {ds : List Char} (hm : 0 < m)
    (h : double.Holds (.finite negative m e)) (hnear : double.IsNear m e (Text.natOfDigits ds * 10 ^ k)) :
    double.ofDecimal negative ds k = .finite negative m e := by
  have hvalue := decimalQuotient_value (Text.natOfDigits ds) k
  have hpos := decimalQuotient_pos (Text.natOfDigits ds) k
  have htwo : (0 : ℚ) < 2 ^ e := by positivity
  have hm' : (1 : ℚ) ≤ m := by exact_mod_cast hm
  have hleast : 2 ^ e / 2 ≤ (Text.natOfDigits ds * 10 ^ k : ℚ) := by
    refine le_trans ?_ hnear.low
    nlinarith
  have hd : Text.natOfDigits ds ≠ 0 := by
    intro hzero
    rw [hzero, Nat.cast_zero, zero_mul] at hleast
    linarith
  have hnum : 0 < (decimalQuotient (Text.natOfDigits ds) k).1 := by
    by_contra hzero
    rw [Nat.eq_zero_of_not_pos hzero, Nat.cast_zero, zero_div] at hvalue
    rw [← hvalue] at hleast
    linarith
  have ⟨hmost, hmin, hmax, _⟩ := h
  rw [ofDecimal_eq hd (decimal_not_tiny hd hmin hleast) (decimal_not_huge hd hmost hmax hnear.high)]
  exact round_of_near (by decide) h hnum hpos (hvalue ▸ hnear)

end Format

namespace FloatStyle

/-- The digits of a positive number of the double format, laid out. -/
def bodyText (m : Nat) (e : Int) : List Char :=
  if m = 0 then ['0', '.', '0']
  else if double.positional (scaled m 1 e).1 (scaled m 1 e).2 then
    withPoint (Nat.toDigits 10 (Format.double.shortest m e).1) (Format.double.shortest m e).2
  else withExponent (Nat.toDigits 10 (Format.double.shortest m e).1) (Format.double.shortest m e).2

theorem toList_render {negative : Bool} {m : Nat} {e : Int} (h : Format.double.Holds (.finite negative m e)) :
    (double.render (.finite negative m e)).toList = withSignChar negative (bodyText m e) := by
  unfold render
  rw [show double.format.convert (.finite negative m e) = .finite negative m e from
    Format.convert_of_holds (by decide) h]
  simp only [String.toList_ofList]
  rfl

theorem isNumeral_bodyText (m : Nat) (e : Int) : IsNumeral (bodyText m e) := by
  have hdigits : ∀ c ∈ Nat.toDigits 10 (Format.double.shortest m e).1, c.isDigit = true :=
    fun _ => Text.isDigit_of_mem_toDigits
  unfold bodyText
  split
  · exact ⟨Text.forall_of_all (by decide), '0', _, rfl, by decide⟩
  · split
    · exact isNumeral_withPoint Nat.toDigits_ne_nil hdigits
    · exact isNumeral_withExponent Nat.toDigits_ne_nil hdigits

/-- The text of a number is read as the number. -/
theorem ofDecimal_bodyText {negative : Bool} {m : Nat} {e : Int} (h : Format.double.Holds (.finite negative m e)) :
    ∃ ds k, decimalText? (bodyText m e) = some (ds, k) ∧ Format.double.ofDecimal negative ds k = .finite negative m e := by
  have hdigits : ∀ c ∈ Nat.toDigits 10 (Format.double.shortest m e).1, c.isDigit = true :=
    fun _ => Text.isDigit_of_mem_toDigits
  rcases Nat.eq_zero_or_pos m with rfl | hm
  · refine ⟨['0', '0'], -1, rfl, ?_⟩
    rw [Format.exponent_of_zero h]
    rfl
  · have hshows : Shows (bodyText m e) (Nat.toDigits 10 (Format.double.shortest m e).1) (Format.double.shortest m e).2 := by
      unfold bodyText
      rw [if_neg hm.ne']
      split
      · exact withPoint_shows Nat.toDigits_ne_nil hdigits
      · exact withExponent_shows Nat.toDigits_ne_nil hdigits
    obtain ⟨ds, k, hread, hvalue⟩ := hshows
    rw [Text.natOfDigits_toDigits] at hvalue
    refine ⟨ds, k, hread, Format.ofDecimal_near hm h ?_⟩
    rw [hvalue]
    exact Format.shortest_near hm h.1

end FloatStyle

namespace Binary

theorem read_render {x : Binary} (h : Format.double.Holds x) : read? .double (FloatStyle.double.render x) = some x := by
  cases x with
  | nan => decide
  | infinite s => cases s <;> decide
  | finite s m e =>
    obtain ⟨ds, k, hread, hvalue⟩ := FloatStyle.ofDecimal_bodyText h
    obtain ⟨hplain, c, rest, hcons, hc⟩ := FloatStyle.isNumeral_bodyText m e
    have hsigned := isPlain_withSignChar s hplain
    unfold read?
    rw [FloatStyle.toList_render h, normalizeDigits_plain hsigned, trimBlanks_plain hsigned]
    simp only [dropUnderscores_plain hsigned, Option.bind_eq_bind, Option.bind_some]
    rw [hcons] at hread ⊢
    have hword {w : String} (hw : w.toList.head?.any Char.isDigit = false) :
        String.ofList ((c :: rest).map Char.toLower) ≠ w := by
      rintro rfl
      rw [String.toList_ofList, List.map_cons, toLower_of_isDigit hc, List.head?_cons, Option.any_some, hc] at hw
      cases hw
    simp only [splitSign_withSignChar s (not_sign_of_isDigit hc).1 (not_sign_of_isDigit hc).2]
    have hinfinite : (decide (String.ofList ((c :: rest).map Char.toLower) = "inf") ||
        decide (String.ofList ((c :: rest).map Char.toLower) = "infinity")) = false := by
      rw [decide_eq_false (hword (by decide)), decide_eq_false (hword (by decide))]
      rfl
    rw [if_neg (by rw [hinfinite]; decide), if_neg (hword (by decide)), hread]
    simp only [Option.bind_some, hvalue]

end Binary

end ExprTree
