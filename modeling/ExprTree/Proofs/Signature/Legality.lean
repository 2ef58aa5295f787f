import ExprTree.Proofs.Number.Digits
import ExprTree.Proofs.Signature.RoundTrip
import Mathlib.Data.List.DropRight

/-!
# What is read is legal

Whatever text a reader accepts, the names it takes are words and the numbers
are short. So a signature is legal exactly if its own text is read back as it,
and reading ends in signatures that can be written and read again.
-/

namespace ExprTree

namespace Text

theorem head?_of_front {α : Type} {as bs : List α} (h : as <+: bs) (hne : as ≠ []) : as.head? = bs.head? := by
  obtain ⟨rest, rfl⟩ := h
  rw [List.head?_append_of_ne_nil _ hne]

section

variable {p : Char → Bool} {cs : List Char}

theorem trimWhere_front (p : Char → Bool) (cs : List Char) : trimWhere p cs <+: cs.dropWhile p :=
  List.rdropWhile_prefix p _

theorem mem_of_mem_trimWhere {c : Char} (h : c ∈ trimWhere p cs) : c ∈ cs :=
  (List.dropWhile_suffix p).subset ((trimWhere_front p cs).subset h)

theorem dropWhile_of_head (h : ∀ c, cs.head? = some c → p c = false) : cs.dropWhile p = cs := by
  cases cs with
  | nil => rfl
  | cons c cs => exact List.dropWhile_cons_of_neg (by simp [h c rfl])

theorem head?_dropWhile {c : Char} (h : (cs.dropWhile p).head? = some c) : p c = false := by
  obtain ⟨rest, hrest⟩ := List.head?_eq_some_iff.mp h
  have := List.head_dropWhile_not p (l := cs) (by simp [hrest])
  simpa [hrest] using this

theorem trimWhere_trimWhere (p : Char → Bool) (cs : List Char) : trimWhere p (trimWhere p cs) = trimWhere p cs := by
  have hfirst : (trimWhere p cs).dropWhile p = trimWhere p cs := by
    refine dropWhile_of_head fun c hc => ?_
    have hne : trimWhere p cs ≠ [] := by
      intro hnil
      simp [hnil] at hc
    exact head?_dropWhile ((head?_of_front (trimWhere_front p cs) hne).symm.trans hc)
  have hlast : (trimWhere p cs).rdropWhile p = trimWhere p cs := List.rdropWhile_idempotent p (cs.dropWhile p)
  calc trimWhere p (trimWhere p cs) = ((trimWhere p cs).dropWhile p).rdropWhile p := rfl
    _ = trimWhere p cs := by rw [hfirst, hlast]

end

end Text

namespace Signature

namespace Reader

variable {cs rest : List Char}

/-- The name that is read is a word, and starts where the blanks end. -/
theorem name_eq_ok {what : Expectation} {s : String} (h : name what cs = .ok (s, rest)) :
    IsWord s ∧ s.toList.head? = (skipBlanks cs).head? := by
  unfold name at h
  dsimp only at h
  split at h
  · cases h
  · next hne =>
    simp only [Except.ok.injEq, Prod.mk.injEq] at h
    obtain ⟨rfl, -⟩ := h
    simp only [List.isEmpty_iff] at hne
    rw [IsWord, String.toList_ofList]
    refine ⟨⟨hne, List.all_eq_true.mpr fun c hc => ?_, Text.trimWhere_trimWhere _ _⟩, ?_⟩
    · exact List.mem_takeWhile_imp (p := (!isStop ·)) (Text.mem_of_mem_trimWhere hc)
    · have htaken : (skipBlanks cs).takeWhile (!isStop ·) ≠ [] := by
        intro hnil
        simp [hnil, Text.trimBlanks, Text.trimWhere] at hne
      have hhead := Text.head?_of_front (List.takeWhile_prefix (!isStop ·)) htaken
      have hkept : ((skipBlanks cs).takeWhile (!isStop ·)).dropWhile Text.isBlank =
          (skipBlanks cs).takeWhile (!isStop ·) :=
        Text.dropWhile_of_head fun c hc => Text.head?_dropWhile (hhead.symm.trans hc)
      rw [Text.trimBlanks, Text.head?_of_front (Text.trimWhere_front _ _) hne, hkept, hhead]

theorem integer_short {n : Nat} (h : integer cs = .ok (n, rest)) : n < 10 ^ integerDigitLimit := by
  unfold integer at h
  dsimp only at h
  split at h
  · cases h
  · split at h
    · cases h
    · next hlen =>
      simp only [Except.ok.injEq, Prod.mk.injEq] at h
      obtain ⟨rfl, -⟩ := h
      have hdigits := Text.natOfDigits_lt fun c (hc : c ∈ (skipBlanks cs).takeWhile Char.isDigit) =>
        List.mem_takeWhile_imp hc
      exact Nat.lt_of_lt_of_le hdigits (Nat.pow_le_pow_right (by decide) (Nat.not_lt.mp hlen))

/-- What closes a named type leaves its name and arguments and adds a word at most. -/
theorem closeNamed_eq_ok {name : String} {arguments : List TypeSig} {s : TypeSig}
    (h : closeNamed name arguments cs = .ok (s, rest)) :
    ∃ hint, s = .named name arguments hint ∧ ∀ w, hint = some w → IsWord w := by
  unfold closeNamed at h
  split at h
  · obtain ⟨⟨word, more⟩, hname, h⟩ := bind_eq_ok.mp h
    obtain ⟨more', -, h⟩ := bind_eq_ok.mp h
    cases h
    exact ⟨some word, rfl, by rintro _ ⟨⟩; exact (name_eq_ok hname).1⟩
  · obtain ⟨more, -, h⟩ := bind_eq_ok.mp h
    cases h
    exact ⟨none, rfl, by simp⟩

/-- No type name that is read looks like an open parameter. -/
theorem isTypeWord_of_name {s : String} (h : name .typeName cs = .ok (s, rest)) (hbang : token? '!' cs = none) :
    IsTypeWord s := by
  obtain ⟨hword, hhead⟩ := name_eq_ok h
  refine ⟨hword, fun hs => ?_⟩
  obtain ⟨more, hmore⟩ := List.head?_eq_some_iff.mp (hhead.symm.trans hs)
  simp [token?, hmore] at hbang

mutual

theorem isLegal_of_type : ∀ {fuel : Nat} {cs rest : List Char} {s : TypeSig},
    type fuel cs = .ok (s, rest) → s.IsLegal
  | 0, _, _, _, h => by cases h
  | fuel + 1, cs, rest, s, h => by
    obtain ⟨cs, -, h⟩ := bind_eq_ok.mp h
    split at h
    · -- an open parameter
      next cs _ =>
      obtain ⟨cs, -, h⟩ := bind_eq_ok.mp h
      obtain ⟨⟨position, cs⟩, hinteger, h⟩ := bind_eq_ok.mp h
      obtain ⟨cs, -, h⟩ := bind_eq_ok.mp h
      cases h
      exact integer_short hinteger
    · -- a name, with or without arguments
      next hbang =>
      obtain ⟨⟨name, cs⟩, hname, h⟩ := bind_eq_ok.mp h
      have hword := isTypeWord_of_name hname hbang
      dsimp only at h
      split at h
      · next cs _ =>
        obtain ⟨⟨first, cs⟩, hfirst, h⟩ := bind_eq_ok.mp h
        obtain ⟨⟨more, cs⟩, hmore, h⟩ := bind_eq_ok.mp h
        obtain ⟨cs, -, h⟩ := bind_eq_ok.mp h
        obtain ⟨hint, rfl, hhint⟩ := closeNamed_eq_ok h
        exact ⟨hword, hhint, isLegal_of_type hfirst, areLegal_of_moreTypes hmore⟩
      · obtain ⟨hint, rfl, hhint⟩ := closeNamed_eq_ok h
        exact ⟨hword, hhint, trivial⟩

theorem areLegal_of_moreTypes : ∀ {fuel : Nat} {cs rest : List Char} {ss : List TypeSig},
    moreTypes fuel cs = .ok (ss, rest) → TypeSig.AreLegal ss
  | 0, _, _, _, h => by cases h
  | fuel + 1, cs, rest, ss, h => by
    unfold moreTypes at h
    split at h
    · obtain ⟨⟨first, cs⟩, hfirst, h⟩ := bind_eq_ok.mp h
      obtain ⟨⟨more, cs⟩, hmore, h⟩ := bind_eq_ok.mp h
      cases h
      exact ⟨isLegal_of_type hfirst, areLegal_of_moreTypes hmore⟩
    · cases h
      trivial

end

theorem areLegal_of_parameters {fuel : Nat} {ss : List TypeSig} (h : parameters fuel cs = .ok (ss, rest)) :
    TypeSig.AreLegal ss := by
  unfold parameters at h
  split at h
  · cases h
    trivial
  · obtain ⟨⟨first, cs⟩, hfirst, h⟩ := bind_eq_ok.mp h
    obtain ⟨⟨more, cs⟩, hmore, h⟩ := bind_eq_ok.mp h
    obtain ⟨cs, -, h⟩ := bind_eq_ok.mp h
    cases h
    exact ⟨isLegal_of_type hfirst, areLegal_of_moreTypes hmore⟩

theorem arity_short {n : Nat} (h : arity cs = .ok (n, rest)) : n < 10 ^ integerDigitLimit := by
  unfold arity at h
  split at h
  · obtain ⟨⟨m, cs⟩, hinteger, h⟩ := bind_eq_ok.mp h
    obtain ⟨cs, -, h⟩ := bind_eq_ok.mp h
    cases h
    exact integer_short hinteger
  · cases h
    exact Nat.pow_pos (by decide)

theorem isLegal_of_member {fuel : Nat} {s : MemberSig} (h : member fuel cs = .ok (s, rest)) : s.IsLegal := by
  obtain ⟨⟨name, cs⟩, hname, h⟩ := bind_eq_ok.mp h
  obtain ⟨⟨n, cs⟩, harity, h⟩ := bind_eq_ok.mp h
  obtain ⟨cs, -, h⟩ := bind_eq_ok.mp h
  obtain ⟨⟨declaring, cs⟩, hdeclaring, h⟩ := bind_eq_ok.mp h
  dsimp only at h
  split at h
  · cases h
  · next hnamed =>
    obtain ⟨cs, -, h⟩ := bind_eq_ok.mp h
    obtain ⟨⟨ps, cs⟩, hparameters, h⟩ := bind_eq_ok.mp h
    cases h
    exact ⟨(name_eq_ok hname).1, arity_short harity, by simpa using hnamed, isLegal_of_type hdeclaring,
      areLegal_of_parameters hparameters⟩

theorem step_of_run {α : Type} {step : Nat → Step α} {text : String} {a : α} (h : run step text = .ok a) :
    ∃ rest, step (text.toList.length + 1) text.toList = .ok (a, rest) := by
  obtain ⟨⟨result, rest⟩, hstep, h⟩ := bind_eq_ok.mp h
  dsimp only at h
  split at h
  · cases h
    exact ⟨rest, hstep⟩
  · cases h

end Reader

theorem TypeSig.isLegal_of_parse {text : String} {s : TypeSig} (h : TypeSig.parse text = .ok s) : s.IsLegal := by
  obtain ⟨rest, hstep⟩ := Reader.step_of_run h
  exact Reader.isLegal_of_type hstep

theorem MemberSig.isLegal_of_parse {text : String} {s : MemberSig} (h : MemberSig.parse text = .ok s) : s.IsLegal := by
  obtain ⟨rest, hstep⟩ := Reader.step_of_run h
  exact Reader.isLegal_of_member hstep

/-- The legal signatures of types are those whose text is read back as them. -/
theorem TypeSig.isLegal_iff {s : TypeSig} : s.IsLegal ↔ TypeSig.parse s.render = .ok s :=
  ⟨TypeSig.parse_render, TypeSig.isLegal_of_parse⟩

/-- The legal signatures of methods are those whose text is read back as them. -/
theorem MemberSig.isLegal_iff {s : MemberSig} : s.IsLegal ↔ MemberSig.parse s.render = .ok s :=
  ⟨MemberSig.parse_render, MemberSig.isLegal_of_parse⟩

end Signature

end ExprTree
