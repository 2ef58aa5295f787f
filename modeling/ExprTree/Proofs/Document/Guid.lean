import ExprTree.Document.Guid
import ExprTree.Proofs.Number.Plain
import Mathlib.Data.List.Induction

/-!
# Identifiers that are handed out

As long as the count of identifiers has at most twelve hexadecimal digits,
each of them is read as one and no two are the same.
-/

namespace ExprTree

/-! ## Hexadecimal digits -/

namespace Text

theorem digitIn_digitChar : ∀ d < 16, digitIn? 16 d.digitChar = some d := by decide

theorem natIn_append (b : Nat) (cs ds : List Char) :
    natIn? b (cs ++ ds) = (natIn? b cs).bind fun n => ds.foldlM (fun n c => (digitIn? b c).map (n * b + ·)) n := by
  rw [natIn?, List.foldlM_append]
  rfl

theorem exists_natIn {b : Nat} {cs : List Char} (h : ∀ c ∈ cs, (digitIn? b c).isSome = true) :
    ∃ n, natIn? b cs = some n := by
  induction cs using List.reverseRec with
  | nil => exact ⟨0, rfl⟩
  | append_singleton cs c ih =>
    obtain ⟨n, hn⟩ := ih fun d hd => h d (by simp [hd])
    obtain ⟨v, hv⟩ := Option.isSome_iff_exists.mp (h c (by simp))
    exact ⟨n * b + v, by simp [natIn_append, hn, hv]⟩

theorem natIn_toDigits (n : Nat) : natIn? 16 (Nat.toDigits 16 n) = some n := by
  induction n using Nat.strongRecOn with
  | _ n ih =>
    by_cases h : n < 16
    · rw [Nat.toDigits_of_lt_base h, natIn?]
      simp [digitIn_digitChar n h]
    · rw [Nat.toDigits_of_base_le (by decide) (by omega), natIn_append, ih (n / 16) (by omega)]
      simp [digitIn_digitChar (n % 16) (by omega)]
      omega

theorem natIn_hexDigits (w n : Nat) : natIn? 16 (hexDigits w n) = some n := by
  unfold hexDigits
  dsimp only
  generalize w - (Nat.toDigits 16 n).length = k
  have hzeros : natIn? 16 (List.replicate k '0') = some 0 := by
    induction k with
    | zero => rfl
    | succ k ih =>
      rw [List.replicate_succ, natIn?, List.foldlM_cons, show digitIn? 16 '0' = some 0 by decide]
      exact ih
  rw [natIn_append, hzeros, Option.bind_some]
  exact natIn_toDigits n

theorem length_hexDigits {w n : Nat} (hw : 0 < w) (hn : n < 16 ^ w) : (hexDigits w n).length = w := by
  have hle := (Nat.length_toDigits_le_iff (by decide) hw).mpr hn
  unfold hexDigits
  simp only [List.length_append, List.length_replicate]
  omega

theorem mem_toDigits_hex {n : Nat} {c : Char} (h : c ∈ Nat.toDigits 16 n) : ∃ d < 16, c = d.digitChar := by
  induction n using Nat.strongRecOn with
  | _ n ih =>
    by_cases hn : n < 16
    · rw [Nat.toDigits_of_lt_base hn, List.mem_singleton] at h
      exact ⟨n, hn, h⟩
    · rw [Nat.toDigits_of_base_le (by decide) (by omega), List.mem_append, List.mem_singleton] at h
      rcases h with h | h
      · exact ih (n / 16) (by omega) h
      · exact ⟨n % 16, by omega, h⟩

/-- What holds of all sixteen digits holds of those that are written. -/
theorem forall_hexDigits {P : Char → Prop} (w n : Nat) (h : ∀ d < 16, P d.digitChar) : ∀ c ∈ hexDigits w n, P c := by
  intro c hc
  unfold hexDigits at hc
  rcases List.mem_append.mp hc with hc | hc
  · rw [List.eq_of_mem_replicate hc]
    exact h 0 (by decide)
  · obtain ⟨d, hd, rfl⟩ := mem_toDigits_hex hc
    exact h d hd

end Text

/-! ## Identifiers -/

namespace Guid

/-- The characters of an identifier up to its last group. -/
def fixedPart : List Char := "00000000-0000-4000-8000-".toList

theorem toList_nth (n : Nat) : (nth n).toList = fixedPart ++ Text.hexDigits 12 n := by
  unfold nth fixedPart
  rw [String.toList_append, String.toList_ofList, String.toList_ofList]

theorem nth_injective {m n : Nat} (h : nth m = nth n) : m = n := by
  have hlists := congrArg String.toList h
  rw [toList_nth, toList_nth, List.append_cancel_left_eq] at hlists
  have hnumbers := congrArg (Text.natIn? 16) hlists
  rw [Text.natIn_hexDigits, Text.natIn_hexDigits] at hnumbers
  exact Option.some.inj hnumbers

theorem removeWord_absent {c : Char} {word : List Char} (fuel : Nat) {cs : List Char} (h : c ∉ cs) :
    removeWord (c :: word) fuel cs = cs := by
  induction fuel generalizing cs with
  | zero => rw [removeWord]
  | succ fuel ih =>
    cases cs with
    | nil => rw [removeWord]; simp
    | cons d ds =>
      have hd : d ≠ c := by
        rintro rfl
        simp at h
      rw [removeWord, if_neg (by simp [hd.symm]), ih fun hc => h (List.mem_cons_of_mem d hc)]

/-- The digits of an identifier, without its hyphens. -/
def digits (n : Nat) : List Char :=
  "00000000000040008000".toList ++ Text.hexDigits 12 n

theorem filter_nth (n : Nat) : (fixedPart ++ Text.hexDigits 12 n).filter (· ≠ '-') = digits n := by
  have hfixed : fixedPart.filter (· ≠ '-') = "00000000000040008000".toList := by decide
  have hhex : (Text.hexDigits 12 n).filter (· ≠ '-') = Text.hexDigits 12 n :=
    List.filter_eq_self.mpr (Text.forall_hexDigits 12 n (by decide))
  rw [List.filter_append, hfixed, hhex]
  rfl

theorem readInBase_digits (n : Nat) : (readInBase? 16 'x' (digits n)).isSome = true := by
  have hplain : ∀ c ∈ digits n, IsPlain c :=
    List.forall_mem_append.mpr ⟨Text.forall_of_all (by decide), Text.forall_hexDigits 12 n (by decide)⟩
  have hdigits : ∀ c ∈ digits n, (Text.digitIn? 16 c).isSome = true :=
    List.forall_mem_append.mpr ⟨Text.forall_of_all (by decide), Text.forall_hexDigits 12 n (by decide)⟩
  obtain ⟨k, hk⟩ := Text.exists_natIn hdigits
  obtain ⟨rest, hrest⟩ : ∃ rest, digits n = '0' :: '0' :: rest := ⟨_, rfl⟩
  have hsign : splitSign (digits n) = (false, digits n) := by
    rw [hrest]
    rfl
  have hmarker : splitMarker 'x' (digits n) = (false, digits n) := by
    rw [hrest]
    rfl
  have hne : digits n ≠ [] := by simp [hrest]
  unfold readInBase?
  rw [normalizeDigits_plain hplain, trimBlanks_plain hplain]
  simp [hsign, hmarker, dropUnderscores_plain hplain, hk, hne]

/-- What is handed out is an identifier. -/
theorem isValid_nth {n : Nat} (h : n < 16 ^ 12) : isValid (nth n) = true := by
  have hplain : ∀ c ∈ fixedPart ++ Text.hexDigits 12 n, c ≠ 'u' ∧ (c = '\x7b' || c = '\x7d') = false :=
    List.forall_mem_append.mpr ⟨Text.forall_of_all (by decide), Text.forall_hexDigits 12 n (by decide)⟩
  have habsent : 'u' ∉ fixedPart ++ Text.hexDigits 12 n := fun hu => (hplain 'u' hu).1 rfl
  have hlength : (digits n).length = 32 := by
    unfold digits
    rw [List.length_append, Text.length_hexDigits (by decide) h]
    decide
  have hurn : "urn:".toList = 'u' :: "rn:".toList := by decide
  have huuid : "uuid:".toList = 'u' :: "uid:".toList := by decide
  unfold isValid
  simp only [toList_nth, hurn, huuid, removeWord_absent _ habsent,
    Text.trimWhere_of_forall fun c hc => (hplain c hc).2, filter_nth, hlength, readInBase_digits]
  rfl

end Guid

end ExprTree
