import ExprTree.Json.Parser
import ExprTree.Proofs.Action
import ExprTree.Proofs.Signature.Grammar

/-!
# What the JSON reader refuses for its length

The reader refuses a text for the length of a number only if the text has a run
of digits that is too long. Each reader goes on from an end of what it was
given, so that such a run is one of the whole text.
-/

namespace ExprTree.Json

open Signature (HasShortNumbers)

/-- Does a reader go on from an end of the text, and refuse a number only for a run of digits that is too long? -/
def Keeps {α : Type} (cs : List Char) (r : Except Fault (α × List Char)) : Prop :=
  Gives (fun p => p.2 <:+ cs) (fun f => f = .tooManyDigits → ¬ HasShortNumbers cs) r

namespace Keeps

variable {α β : Type} {cs cs' : List Char} {r : Except Fault (α × List Char)}

theorem ok {a : α} {rest : List Char} (h : rest <:+ cs) : Keeps cs (.ok (a, rest)) := Gives.ok h

theorem malformed : Keeps (α := α) cs (.error .malformed) := Gives.error nofun

theorem of_suffix (h : Keeps cs' r) (hs : cs' <:+ cs) : Keeps cs r :=
  Gives.imp h (fun _ h => h.trans hs) fun _ h hf hshort => h hf (hshort.mono hs.isInfix)

theorem bind {f : α × List Char → Except Fault (β × List Char)} (h : Keeps cs r)
    (hf : ∀ a rest, Keeps rest (f (a, rest))) : Keeps cs (r >>= f) :=
  Gives.bind h fun p hp => (hf p.1 p.2).of_suffix hp

end Keeps

namespace Reader

theorem skipBlanks_suffix (cs : List Char) : skipBlanks cs <:+ cs := List.dropWhile_suffix _

theorem token_keeps {α : Type} {c : Char} {cs : List Char} {f : List Char → Except Fault (α × List Char)}
    (hf : ∀ rest, Keeps rest (f rest)) : Keeps cs (token c cs >>= f) := by
  cases cs with
  | nil => exact .malformed
  | cons d cs =>
    rw [token]
    split
    · exact (hf cs).of_suffix (List.suffix_cons d cs)
    · exact .malformed

/-! ## Texts -/

theorem unit_suffix {n : Nat} {cs rest : List Char} (h : unit? cs = some (n, rest)) : rest <:+ cs := by
  unfold unit? at h
  dsimp only at h
  split at h
  · cases h
  · obtain ⟨n', -, h⟩ := Option.map_eq_some_iff.mp h
    cases h
    exact List.drop_suffix _ _

theorem codes_keeps (fuel : Nat) (cs : List Char) : Keeps cs (codes fuel cs) := by
  induction fuel generalizing cs with
  | zero => exact .malformed
  | succ fuel ih =>
    unfold codes
    split
    · exact .malformed
    · exact .malformed
    · exact .ok (List.suffix_cons _ _)
    · next cs hfuel =>
      cases hfuel
      split
      · exact .malformed
      · next n rest hunit =>
        refine ((ih rest).bind fun more rest => ?_).of_suffix ((unit_suffix hunit).trans ?_)
        · dsimp only
          split
          · split <;> exact .ok List.suffix_rfl
          · exact .ok List.suffix_rfl
        · exact (List.suffix_cons _ _).trans (List.suffix_cons _ _)
    · next c cs _ hfuel =>
      cases hfuel
      split
      · exact .malformed
      · refine ((ih cs).bind fun more rest => ?_).of_suffix ((List.suffix_cons _ _).trans (List.suffix_cons _ _))
        exact .ok List.suffix_rfl
    · next c cs _ _ _ hfuel =>
      cases hfuel
      split
      · exact .malformed
      · refine ((ih cs).bind fun more rest => ?_).of_suffix (List.suffix_cons _ _)
        exact .ok List.suffix_rfl

theorem text_keeps (cs : List Char) : Keeps cs (text cs) :=
  (codes_keeps _ cs).bind fun _ _ => .ok List.suffix_rfl

/-! ## Numbers -/

theorem wholePart_suffix (cs : List Char) : (wholePart cs).2 <:+ cs := by
  unfold wholePart
  split
  · exact List.suffix_cons _ _
  · exact List.dropWhile_suffix _

theorem fraction_suffix {cs digits rest : List Char} (h : fraction? cs = some (digits, rest)) : rest <:+ cs := by
  unfold fraction? at h
  split at h
  · dsimp only at h
    split at h
    · cases h
    · cases h
      exact (List.dropWhile_suffix _).trans (List.suffix_cons _ _)
  · cases h

theorem exponentPart_suffix {cs rest : List Char} {power : Int} (h : exponentPart? cs = some (power, rest)) :
    rest <:+ cs := by
  unfold exponentPart? at h
  split at h
  · next c cs =>
    split at h
    · dsimp only at h
      split at h
      · cases h
      · cases h
        have hsign : (splitSign cs).2 <:+ cs := by
          unfold splitSign
          split <;> first | exact List.suffix_cons _ _ | exact List.suffix_rfl
        exact (List.dropWhile_suffix _).trans (hsign.trans (List.suffix_cons _ _))
    · cases h
  · cases h

/-- The digits of a number are a run of digits of the text. -/
theorem not_short_of_wholePart {cs : List Char} (h : integerDigitLimit < (wholePart cs).1.length) : ¬ HasShortNumbers cs := by
  intro hshort
  unfold wholePart at h
  split at h
  · exact absurd h (by simp [integerDigitLimit])
  · refine absurd (hshort _ (List.takeWhile_prefix _).isInfix fun c hc => ?_) (not_le.mpr h)
    exact List.mem_takeWhile_imp hc

theorem number_keeps (cs : List Char) : Keeps cs (number cs) := by
  unfold number
  split
  next negative body hbody =>
  have hsign : body <:+ cs := by
    split at hbody <;> cases hbody
    · exact List.suffix_cons _ _
    · exact List.suffix_rfl
  refine Keeps.of_suffix ?_ hsign
  rcases hwhole : wholePart body with ⟨digits, rest⟩
  have hrest : rest <:+ body := by simpa [hwhole] using wholePart_suffix body
  dsimp only
  split
  · exact .malformed
  · have hfraction : ((fraction? rest).map (·.2)).getD rest <:+ rest := by
      cases h : fraction? rest with
      | none => exact List.suffix_rfl
      | some found => exact fraction_suffix h
    generalize ((fraction? rest).map (·.2)).getD rest = after at hfraction
    have hexponent : ((exponentPart? after).map (·.2)).getD after <:+ after := by
      cases h : exponentPart? after with
      | none => exact List.suffix_rfl
      | some found => exact exponentPart_suffix h
    have hend := hexponent.trans (hfraction.trans hrest)
    split
    · split
      · next hlong => exact Gives.error fun _ => not_short_of_wholePart (by simpa [hwhole] using hlong)
      · exact .ok hend
    · exact .ok hend

/-! ## Values -/

theorem word_suffix {cs rest : List Char} {d : Data} (h : word? cs = some (d, rest)) : rest <:+ cs := by
  obtain ⟨w, -, hw⟩ := List.exists_of_findSome?_eq_some h
  obtain ⟨rest', hrest, h⟩ := Option.map_eq_some_iff.mp hw
  cases h
  obtain ⟨-, rfl⟩ := List.isPrefixOf?_eq_some_iff_append_eq.mp hrest
  exact List.suffix_append _ _

mutual

theorem value_keeps : ∀ (fuel : Nat) (cs : List Char), Keeps cs (value fuel cs)
  | 0, cs => .malformed
  | fuel + 1, cs => by
    unfold value
    split
    · exact .malformed
    · exact (text_keeps _).of_suffix (List.suffix_cons _ _)
    · next cs hfuel =>
      cases hfuel
      refine Keeps.of_suffix ?_ ((skipBlanks_suffix cs).trans (List.suffix_cons _ _))
      split
      · next h => exact .ok (h ▸ List.suffix_cons _ _)
      · exact (items_keeps fuel _).bind fun _ _ => .ok List.suffix_rfl
    · next cs hfuel =>
      cases hfuel
      refine Keeps.of_suffix ?_ ((skipBlanks_suffix cs).trans (List.suffix_cons _ _))
      split
      · next h => exact .ok (h ▸ List.suffix_cons _ _)
      · exact (entries_keeps fuel _).bind fun _ _ => .ok List.suffix_rfl
    · split
      · next h => exact .ok (word_suffix h)
      · exact number_keeps _
termination_by structural fuel => fuel

theorem items_keeps : ∀ (fuel : Nat) (cs : List Char), Keeps cs (items fuel cs)
  | 0, cs => .malformed
  | fuel + 1, cs => by
    unfold items
    refine (value_keeps fuel cs).bind fun first rest => Keeps.of_suffix ?_ (skipBlanks_suffix rest)
    dsimp only
    split
    · next h =>
      refine Keeps.of_suffix ?_ ((skipBlanks_suffix _).trans (h ▸ List.suffix_cons _ _))
      exact (items_keeps fuel _).bind fun _ _ => .ok List.suffix_rfl
    · next h => exact .ok (h ▸ List.suffix_cons _ _)
    · exact .malformed
termination_by structural fuel => fuel

theorem entries_keeps : ∀ (fuel : Nat) (cs : List Char), Keeps cs (entries fuel cs)
  | 0, cs => .malformed
  | fuel + 1, cs => by
    unfold entries
    refine token_keeps fun rest => (text_keeps rest).bind fun key rest => ?_
    refine Keeps.of_suffix (token_keeps fun rest => ?_) (skipBlanks_suffix rest)
    refine Keeps.of_suffix ((value_keeps fuel _).bind fun first rest => ?_) (skipBlanks_suffix rest)
    refine Keeps.of_suffix ?_ (skipBlanks_suffix rest)
    dsimp only
    split
    · next h =>
      refine Keeps.of_suffix ?_ ((skipBlanks_suffix _).trans (h ▸ List.suffix_cons _ _))
      exact (entries_keeps fuel _).bind fun _ _ => .ok List.suffix_rfl
    · next h => exact .ok (h ▸ List.suffix_cons _ _)
    · exact .malformed
termination_by structural fuel => fuel

end

end Reader

/-- A text that is refused for the length of a number has a run of digits that is too long. -/
theorem not_short_of_read {s : String} (h : Json.read s = .error .tooManyDigits) : ¬ HasShortNumbers s.toList := by
  intro hshort
  rw [Json.read, bind_eq_error] at h
  obtain hvalue | ⟨⟨found, rest⟩, -, h⟩ := h
  · have hkeeps := Reader.value_keeps ((Reader.skipBlanks s.toList).length + 1) (Reader.skipBlanks s.toList)
    rw [hvalue] at hkeeps
    cases hkeeps with
    | error hlong => exact hlong rfl (hshort.mono (Reader.skipBlanks_suffix _).isInfix)
  · dsimp only at h
    split at h <;> cases h

end ExprTree.Json
