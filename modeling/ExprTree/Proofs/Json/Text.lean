import ExprTree.Json.Parser
import ExprTree.Json.Printer
import ExprTree.Proofs.Action
import ExprTree.Proofs.Document.Guid

/-!
# Texts in JSON

A text that is written between quotes is read back, whatever characters it has:
each of them is one code point again, also where it was written by two units.
-/

namespace ExprTree

namespace Data

theorem char?_toNat (c : Char) : char? c.toNat = some c := by
  have hvalid : c.toNat.isValidChar := c.valid
  unfold char?
  rw [dif_pos hvalid]
  rfl

theorem ofCodes_toNat (cs : List Char) : ofCodes (cs.map Char.toNat) = .text (String.ofList cs) := by
  have hchars : (cs.map Char.toNat).mapM char? = some cs := by
    induction cs with
    | nil => rfl
    | cons c cs ih => simp [char?_toNat, ih]
  rw [ofCodes, hchars]

end Data

namespace Json.Reader

variable {cs rest : List Char} {found : List Nat} {fuel : Nat}

/-! ## Units -/

theorem unit?_hexDigits {n : Nat} (hn : n < 0x10000) (cs : List Char) :
    unit? (Text.hexDigits 4 n ++ cs) = some (n, cs) := by
  have hlength : (Text.hexDigits 4 n).length = 4 := Text.length_hexDigits (by decide) hn
  have htake : (Text.hexDigits 4 n ++ cs).take 4 = Text.hexDigits 4 n := List.take_left' hlength
  have hdrop : (Text.hexDigits 4 n ++ cs).drop 4 = cs := List.drop_left' hlength
  unfold unit?
  simp [htake, hdrop, hlength, Text.natIn_hexDigits]

/-- A unit that is no high surrogate stands for itself. -/
theorem codes_unit {n : Nat} (hn : n < 0x10000) (hhigh : isHighSurrogate n = false)
    (h : codes fuel cs = .ok (found, rest)) : codes (fuel + 1) (escapedUnit n ++ cs) = .ok (n :: found, rest) := by
  simp only [escapedUnit, List.cons_append, codes, unit?_hexDigits hn cs, h, ok_bind]
  cases found with
  | nil => rfl
  | cons m ms => simp [hhigh]

/-- Two surrogates join. -/
theorem codes_pair {n : Nat} (hn : n < 0x100000) (h : codes fuel cs = .ok (found, rest)) :
    codes (fuel + 2) (escapedUnit (0xD800 + n / 0x400) ++ (escapedUnit (0xDC00 + n % 0x400) ++ cs)) =
      .ok ((0x10000 + n) :: found, rest) := by
  have hlow : codes (fuel + 1) (escapedUnit (0xDC00 + n % 0x400) ++ cs) = .ok ((0xDC00 + n % 0x400) :: found, rest) :=
    codes_unit (by omega) (by simp [isHighSurrogate]) h
  have hjoins : (isHighSurrogate (0xD800 + n / 0x400) && isLowSurrogate (0xDC00 + n % 0x400)) = true := by
    simp [isHighSurrogate, isLowSurrogate]
    omega
  have hsum : 0x10000 + (0xD800 + n / 0x400 - 0xD800) * 0x400 + (0xDC00 + n % 0x400 - 0xDC00) = 0x10000 + n := by
    omega
  generalize escapedUnit (0xDC00 + n % 0x400) ++ cs = tail at hlow
  have hunit := unit?_hexDigits (n := 0xD800 + n / 0x400) (by omega) tail
  simp only [escapedUnit, List.cons_append, codes, hunit, hlow, ok_bind, if_pos hjoins, hsum, pure_eq_ok]

/-! ## Characters -/

theorem isHighSurrogate_toNat (c : Char) : isHighSurrogate c.toNat = false := by
  have hvalid : c.toNat < 0xD800 ∨ 0xDFFF < c.toNat ∧ c.toNat < 0x110000 := c.valid
  simp [isHighSurrogate]
  omega

theorem codes_letter {letter c : Char} (hletter : letter ≠ 'u') (hc : escape? letter = some c)
    (h : codes fuel cs = .ok (found, rest)) :
    codes (fuel + 1) ('\\' :: letter :: cs) = .ok (c.toNat :: found, rest) := by
  simp only [codes, hc, h, ok_bind, pure_eq_ok]

theorem codes_plain {c : Char} (hquote : c ≠ '"') (hslash : c ≠ '\\') (hspace : ' ' ≤ c)
    (h : codes fuel cs = .ok (found, rest)) : codes (fuel + 1) (c :: cs) = .ok (c.toNat :: found, rest) := by
  have hcontrol : ¬c < ' ' := Char.not_lt.mpr hspace
  rw [codes.eq_def]
  split <;> simp_all

theorem codes_astral {c : Char} (hc : ¬c.toNat < 0x10000) (h : codes fuel cs = .ok (found, rest)) :
    codes (fuel + 2) (escapedUnit (0xD800 + (c.toNat - 0x10000) / 0x400) ++
      (escapedUnit (0xDC00 + (c.toNat - 0x10000) % 0x400) ++ cs)) = .ok (c.toNat :: found, rest) := by
  have hvalid : c.toNat < 0xD800 ∨ 0xDFFF < c.toNat ∧ c.toNat < 0x110000 := c.valid
  have hsum : 0x10000 + (c.toNat - 0x10000) = c.toNat := by omega
  have hpair := codes_pair (n := c.toNat - 0x10000) (by omega) h
  rw [hsum] at hpair
  exact hpair

/-- The ways to write a character: by a letter, as it is, by one unit or by two. -/
inductive IsWritten (c : Char) : List Char → Prop where
  | letter {letter : Char} (hletter : letter ≠ 'u') (hc : escape? letter = some c) : IsWritten c ['\\', letter]
  | plain (hquote : c ≠ '"') (hslash : c ≠ '\\') (hspace : ' ' ≤ c) : IsWritten c [c]
  | unit (hc : c.toNat < 0x10000) : IsWritten c (escapedUnit c.toNat)
  | pair (hc : ¬c.toNat < 0x10000) : IsWritten c (escapedUnit (0xD800 + (c.toNat - 0x10000) / 0x400) ++
      escapedUnit (0xDC00 + (c.toNat - 0x10000) % 0x400))

theorem IsWritten.ite_letter {c d letter : Char} {cs : List Char} (hletter : letter ≠ 'u') (hd : escape? letter = some d)
    (hother : c ≠ d → IsWritten c cs) : IsWritten c (if c = d then ['\\', letter] else cs) := by
  split
  · next h => exact .letter hletter (h ▸ hd)
  · next h => exact hother h

theorem isWritten_escaped (c : Char) : IsWritten c (escaped c) := by
  unfold escaped
  refine .ite_letter (by decide) rfl fun hquote => .ite_letter (by decide) rfl fun hslash => ?_
  refine .ite_letter (by decide) rfl fun _ => .ite_letter (by decide) rfl fun _ => .ite_letter (by decide) rfl fun _ => ?_
  refine .ite_letter (by decide) rfl fun _ => .ite_letter (by decide) rfl fun _ => ?_
  by_cases hplain : (' ' ≤ c && c ≤ '~') = true
  · rw [if_pos hplain]
    exact .plain hquote hslash (by simpa using (Bool.and_eq_true_iff.mp hplain).1)
  rw [if_neg hplain]
  by_cases hunit : c.toNat < 0x10000
  · rw [if_pos hunit]
    exact .unit hunit
  · rw [if_neg hunit]
    exact .pair hunit

theorem two_le_length_escapedUnit (n : Nat) : 2 ≤ (escapedUnit n).length := by
  simp [escapedUnit]

/-- One character, as it is written, is read as its code point. -/
theorem codes_written_append {c : Char} {written : List Char} (hc : IsWritten c written)
    (h : ∀ n, fuel ≤ n → codes n cs = .ok (found, rest)) :
    ∀ n, fuel + written.length ≤ n → codes n (written ++ cs) = .ok (c.toNat :: found, rest) := by
  intro n hn
  cases hc with
  | letter hletter hc =>
    rw [List.length_cons] at hn
    obtain ⟨m, rfl⟩ : ∃ m, n = m + 1 := ⟨n - 1, by omega⟩
    exact codes_letter hletter hc (h m (by omega))
  | plain hquote hslash hspace =>
    rw [List.length_singleton] at hn
    obtain ⟨m, rfl⟩ : ∃ m, n = m + 1 := ⟨n - 1, by omega⟩
    exact codes_plain hquote hslash hspace (h m (by omega))
  | unit hc =>
    have hlength := two_le_length_escapedUnit c.toNat
    obtain ⟨m, rfl⟩ : ∃ m, n = m + 1 := ⟨n - 1, by omega⟩
    exact codes_unit hc (isHighSurrogate_toNat c) (h m (by omega))
  | pair hc =>
    rw [List.length_append] at hn
    have hlength := two_le_length_escapedUnit (0xD800 + (c.toNat - 0x10000) / 0x400)
    obtain ⟨m, rfl⟩ : ∃ m, n = m + 2 := ⟨n - 2, by omega⟩
    rw [List.append_assoc]
    exact codes_astral hc (h m (by omega))

/-! ## Texts -/

theorem codes_escaped (cs rest : List Char) : ∀ n, (cs.flatMap escaped).length < n →
    codes n (cs.flatMap escaped ++ '"' :: rest) = .ok (cs.map Char.toNat, rest) := by
  induction cs with
  | nil =>
    intro n hn
    obtain ⟨m, rfl⟩ : ∃ m, n = m + 1 := ⟨n - 1, by omega⟩
    rfl
  | cons c cs ih =>
    intro n hn
    simp only [List.flatMap_cons, List.append_assoc, List.length_append] at hn ⊢
    exact codes_written_append (isWritten_escaped c) (fun m hm => ih m hm) n (by omega)

/-- A text is read back, whatever follows its closing quote. -/
theorem text_quoted (s : String) (rest : List Char) : text ((quoted s).tail ++ rest) = .ok (.text s, rest) := by
  have hcodes := codes_escaped s.toList rest ((s.toList.flatMap escaped ++ '"' :: rest).length + 1)
    (by rw [List.length_append]; omega)
  unfold text
  simp only [quoted, List.tail_cons, List.append_assoc, List.cons_append, List.nil_append]
  rw [hcodes, ok_bind, pure_eq_ok, Data.ofCodes_toNat, String.ofList_toList]

end Json.Reader

end ExprTree
