import ExprTree.Proofs.Action
import ExprTree.Proofs.Number.Digits
import ExprTree.Signature.Parser

/-!
# Reading written signatures

A signature whose names are words of the grammar is read back from its text:
`parse_render` for types and for members. A reader takes exactly the text that
was written and leaves what follows it.
-/

namespace ExprTree.Signature

/-! ## Words -/

/-- Is the name read as it is written? No blank stands at its ends, and nothing in it ends a name. -/
def IsWord (s : String) : Prop :=
  s.toList ≠ [] ∧ s.toList.all (!Reader.isStop ·) = true ∧ Text.trimBlanks s.toList = s.toList

instance (s : String) : Decidable (IsWord s) :=
  inferInstanceAs (Decidable (_ ∧ _ ∧ _))

/-- Is it a word that does not look like an open parameter? -/
def IsTypeWord (s : String) : Prop :=
  IsWord s ∧ s.toList.head? ≠ some '!'

instance (s : String) : Decidable (IsTypeWord s) :=
  inferInstanceAs (Decidable (_ ∧ _))

theorem dropWhile_of_trimWhere {p : Char → Bool} {cs : List Char} (h : Text.trimWhere p cs = cs) :
    cs.dropWhile p = cs := by
  have hlen := congrArg List.length h
  simp only [Text.trimWhere, List.length_reverse] at hlen
  have h₁ := List.dropWhile_suffix (l := (cs.dropWhile p).reverse) p
  have h₂ := List.dropWhile_suffix (l := cs) p
  have hle := h₁.length_le
  have hle' := h₂.length_le
  simp only [List.length_reverse] at hle
  exact h₂.eq_of_length (by omega)

theorem IsWord.skipBlanks {s : String} (h : IsWord s) (rest : List Char) :
    Reader.skipBlanks (s.toList ++ rest) = s.toList ++ rest := by
  obtain ⟨hne, -, htrim⟩ := h
  have hdrop := dropWhile_of_trimWhere htrim
  unfold Reader.skipBlanks
  match hs : s.toList with
  | [] => exact absurd hs hne
  | c :: cs =>
    rw [hs, List.dropWhile_cons] at hdrop
    split at hdrop
    · next hc =>
      have := congrArg List.length hdrop
      have hle := (List.dropWhile_suffix (l := cs) Text.isBlank).length_le
      simp at this
      omega
    · next hc => simp [hc]

theorem lt_digitBound {n : Nat} (h : n ≤ 1) : n < 10 ^ integerDigitLimit :=
  Nat.lt_of_le_of_lt h (Nat.one_lt_pow (by decide) (by decide))

namespace Reader

theorem skipBlanks_cons {c : Char} (h : Text.isBlank c = false) (rest : List Char) :
    skipBlanks (c :: rest) = c :: rest := by
  simp [skipBlanks, h]

theorem token_cons {c : Char} (h : Text.isBlank c = false) (rest : List Char) :
    token c (c :: rest) = .ok rest := by
  simp [token, skipBlanks_cons h]

theorem token?_cons {d : Char} (h : Text.isBlank d = false) (c : Char) (rest : List Char) :
    token? c (d :: rest) = if d = c then some rest else none := by
  simp [token?, skipBlanks_cons h]

/-- A name ends where the next token starts. -/
theorem name_append {s : String} (hs : IsWord s) {c : Char} (hc : isStop c = true) (what : Expectation)
    (rest : List Char) : name what (s.toList ++ c :: rest) = .ok (s, c :: rest) := by
  obtain ⟨hne, hstop, htrim⟩ := hs
  have hall : ∀ x ∈ s.toList, (!isStop x) = true := List.all_eq_true.mp hstop
  have htake : (s.toList ++ c :: rest).takeWhile (!isStop ·) = s.toList := by
    rw [List.takeWhile_append_of_pos hall]
    simp [hc]
  have hdrop : (s.toList ++ c :: rest).dropWhile (!isStop ·) = c :: rest := by
    rw [List.dropWhile_append_of_pos hall]
    simp [hc]
  unfold name
  rw [IsWord.skipBlanks ⟨hne, hstop, htrim⟩]
  simp only [htake, hdrop, htrim, String.ofList_toList]
  simp [hne]

theorem integer_append {n : Nat} (hn : n < 10 ^ integerDigitLimit) {c : Char} (hc : c.isDigit = false)
    (rest : List Char) : integer (Nat.toDigits 10 n ++ c :: rest) = .ok (n, c :: rest) := by
  have hall : ∀ x ∈ Nat.toDigits 10 n, x.isDigit = true := fun _ => Text.isDigit_of_mem_toDigits
  have hskip : skipBlanks (Nat.toDigits 10 n ++ c :: rest) = Nat.toDigits 10 n ++ c :: rest := by
    match hd : Nat.toDigits 10 n with
    | [] => exact absurd hd Nat.toDigits_ne_nil
    | d :: ds =>
      exact skipBlanks_cons (Text.not_isBlank_of_isDigit (hall d (by simp [hd]))) _
  have htake : (Nat.toDigits 10 n ++ c :: rest).takeWhile Char.isDigit = Nat.toDigits 10 n := by
    rw [List.takeWhile_append_of_pos hall]
    simp [hc]
  have hdrop : (Nat.toDigits 10 n ++ c :: rest).dropWhile Char.isDigit = c :: rest := by
    rw [List.dropWhile_append_of_pos hall]
    simp [hc]
  have hlen : (Nat.toDigits 10 n).length ≤ integerDigitLimit := (Text.length_toDigits_le (by decide)).mpr hn
  unfold integer
  simp only [hskip, htake, hdrop, Text.natOfDigits_toDigits]
  simp [Nat.toDigits_ne_nil, Nat.not_lt.mpr hlen]

end Reader

/-! ## Written signatures -/

/-- Texts with commas between them: the first, and each of the others after its comma. -/
theorem toList_intercalate (first : String) (more : List String) :
    (",".intercalate (first :: more)).toList = first.toList ++ more.flatMap fun s => ',' :: s.toList := by
  induction more generalizing first with
  | nil => simp
  | cons s more ih =>
    rw [String.intercalate_cons_cons, String.toList_append, ih s]
    simp

namespace TypeSig

mutual

/-- Are all names words, and all positions short enough to be read? -/
def IsLegal : TypeSig → Prop
  | .named name arguments hint => IsTypeWord name ∧ (∀ h, hint = some h → IsWord h) ∧ AreLegal arguments
  | .parameter position => position < 10 ^ integerDigitLimit

def AreLegal : List TypeSig → Prop
  | [] => True
  | s :: ss => s.IsLegal ∧ AreLegal ss

end

theorem renderAll_eq (ss : List TypeSig) : renderAll ss = ss.map render := by
  induction ss with
  | nil => rfl
  | cons s ss ih => simp [renderAll, ih]

/-- Signatures, each after a comma. -/
def afterCommas (ss : List TypeSig) : List Char :=
  ss.flatMap fun s => ',' :: s.render.toList

theorem toList_commas (first : TypeSig) (more : List TypeSig) :
    (",".intercalate ((first :: more).map render)).toList = first.render.toList ++ afterCommas more := by
  rw [List.map_cons, toList_intercalate, List.flatMap_map, afterCommas]

/-- The arguments in their brackets. -/
def bracketed : List TypeSig → List Char
  | [] => []
  | first :: more => '<' :: first.render.toList ++ afterCommas more ++ ['>']

/-- The hint after its comma. -/
def hinted : Option String → List Char
  | some h => ',' :: h.toList
  | none => []

theorem toList_render_named (name : String) (arguments : List TypeSig) (hint : Option String) :
    (render (.named name arguments hint)).toList =
      '\x7b' :: name.toList ++ bracketed arguments ++ hinted hint ++ ['\x7d'] := by
  cases arguments with
  | nil => cases hint <;> simp [render, bracketed, hinted]
  | cons first more =>
    have h := toList_commas first more
    rw [← renderAll_eq] at h
    cases hint <;> simp [render, bracketed, hinted, h]

theorem toList_render_parameter (position : Nat) :
    (render (.parameter position)).toList = '\x7b' :: '!' :: '!' :: Nat.toDigits 10 position ++ ['\x7d'] := by
  simp [render]

theorem render_starts (s : TypeSig) : ∃ cs, s.render.toList = '\x7b' :: cs := by
  cases s with
  | named name arguments hint => exact ⟨_, by rw [toList_render_named]; rfl⟩
  | parameter position => exact ⟨_, by rw [toList_render_parameter]; rfl⟩

end TypeSig

/-! ## Reading them -/

namespace Reader

open TypeSig (afterCommas bracketed hinted)

theorem closeNamed_append {hint : Option String} (h : ∀ s, hint = some s → IsWord s) (name : String)
    (arguments : List TypeSig) (rest : List Char) :
    closeNamed name arguments (hinted hint ++ '\x7d' :: rest) = .ok (.named name arguments hint, rest) := by
  unfold closeNamed
  cases hint with
  | none =>
    simp only [hinted, List.nil_append, token?_cons (show Text.isBlank '\x7d' = false by decide)]
    simp only [token_cons (show Text.isBlank '\x7d' = false by decide), ok_bind]
    rfl
  | some s =>
    simp only [hinted, List.cons_append, token?_cons (show Text.isBlank ',' = false by decide), if_true,
      name_append (h s rfl) (show isStop '\x7d' = true by decide), ok_bind,
      token_cons (show Text.isBlank '\x7d' = false by decide)]
    rfl

/-- What follows a type's name is no name, so that the name ends there. -/
theorem bracketed_starts (arguments : List TypeSig) (hint : Option String) (rest : List Char) :
    ∃ c more, isStop c = true ∧ bracketed arguments ++ (hinted hint ++ '\x7d' :: rest) = c :: more := by
  cases arguments with
  | cons first more => exact ⟨'<', _, by decide, rfl⟩
  | nil =>
    cases hint with
    | none => exact ⟨'\x7d', _, by decide, rfl⟩
    | some h => exact ⟨',', _, by decide, rfl⟩

mutual

/-- The reader of types takes a written type, with fuel for its length. -/
theorem type_render : ∀ (s : TypeSig) (_ : s.IsLegal) (fuel : Nat) (rest : List Char)
    (_ : s.render.toList.length ≤ fuel), type fuel (s.render.toList ++ rest) = .ok (s, rest)
  | .parameter position, h, fuel, rest, hfuel => by
    rw [TypeSig.toList_render_parameter] at hfuel ⊢
    obtain ⟨fuel, rfl⟩ : ∃ k, fuel = k + 1 := ⟨fuel - 1, by simp at hfuel; omega⟩
    have hbang : Text.isBlank '!' = false := by decide
    simp only [type, List.cons_append, List.append_assoc, List.nil_append,
      token_cons (show Text.isBlank '\x7b' = false by decide), ok_bind, token?_cons hbang, if_true, openParameter,
      token_cons hbang, integer_append h (show Char.isDigit '\x7d' = false by decide),
      token_cons (show Text.isBlank '\x7d' = false by decide)]
    rfl
  | .named name arguments hint, h, fuel, rest, hfuel => by
    obtain ⟨⟨hword, hbang⟩, hhint, hlegal⟩ := h
    rw [TypeSig.toList_render_named] at hfuel ⊢
    obtain ⟨fuel, rfl⟩ : ∃ k, fuel = k + 1 := ⟨fuel - 1, by simp at hfuel; omega⟩
    obtain ⟨c, more, hstop, hc⟩ := bracketed_starts arguments hint rest
    have hnobang : token? '!' (name.toList ++ c :: more) = none := by
      unfold token?
      rw [hword.skipBlanks]
      match hn : name.toList with
      | [] => exact absurd hn hword.1
      | d :: ds =>
        have : d ≠ '!' := by
          rintro rfl
          simp [hn] at hbang
        simp [this]
    simp only [type, List.cons_append, List.append_assoc, List.nil_append,
      token_cons (show Text.isBlank '\x7b' = false by decide), ok_bind, hc, hnobang, name_append hword hstop]
    rw [← hc]
    cases arguments with
    | nil =>
      have hnone : token? '<' (bracketed [] ++ (hinted hint ++ '\x7d' :: rest)) = none := by
        cases hint with
        | none => exact token?_cons (by decide) _ _
        | some h => exact token?_cons (by decide) _ _
      simp only [hnone]
      exact closeNamed_append hhint name [] rest
    | cons first others =>
      have hsplit : bracketed (first :: others) ++ (hinted hint ++ '\x7d' :: rest) =
          '<' :: (first.render.toList ++ (afterCommas others ++ ('>' :: (hinted hint ++ '\x7d' :: rest)))) := by
        simp [bracketed]
      have hlen : (bracketed (first :: others)).length =
          2 + first.render.toList.length + (afterCommas others).length := by
        simp [bracketed]
        omega
      simp only [List.length_append, List.length_cons, hlen] at hfuel
      have hcomma : token? ',' ('>' :: (hinted hint ++ '\x7d' :: rest)) = none := token?_cons (by decide) _ _
      rw [hsplit]
      simp only [token?_cons (show Text.isBlank '<' = false by decide), if_true,
        type_render first hlegal.1 fuel _ (by omega), ok_bind,
        moreTypes_render others hlegal.2 fuel _ hcomma (by omega),
        token_cons (show Text.isBlank '>' = false by decide)]
      exact closeNamed_append hhint name (first :: others) rest

theorem moreTypes_render : ∀ (ss : List TypeSig) (_ : TypeSig.AreLegal ss) (fuel : Nat) (rest : List Char)
    (_ : token? ',' rest = none) (_ : (afterCommas ss).length + 1 ≤ fuel),
    moreTypes fuel (afterCommas ss ++ rest) = .ok (ss, rest)
  | [], _, fuel, rest, hrest, hfuel => by
    obtain ⟨fuel, rfl⟩ : ∃ k, fuel = k + 1 := ⟨fuel - 1, by omega⟩
    simp only [afterCommas, List.flatMap_nil, List.nil_append, moreTypes, hrest]
  | s :: ss, h, fuel, rest, hrest, hfuel => by
    obtain ⟨fuel, rfl⟩ : ∃ k, fuel = k + 1 := ⟨fuel - 1, by omega⟩
    have hsplit : afterCommas (s :: ss) ++ rest = ',' :: (s.render.toList ++ (afterCommas ss ++ rest)) := by
      simp [afterCommas]
    have hlen : (afterCommas (s :: ss)).length = 1 + s.render.toList.length + (afterCommas ss).length := by
      simp [afterCommas]
      omega
    rw [hsplit, moreTypes]
    simp only [token?_cons (show Text.isBlank ',' = false by decide), if_true,
      type_render s h.1 fuel _ (by omega), moreTypes_render ss h.2 fuel rest hrest (by omega), ok_bind]
    rfl

end

/-- The reader of a whole text accepts what a step takes to its end. -/
theorem run_of_step {α : Type} {step : Nat → Step α} {text : String} {a : α}
    (h : step (text.toList.length + 1) text.toList = .ok (a, [])) : run step text = .ok a := by
  unfold run
  simp only [h, ok_bind]
  rfl

end Reader

theorem TypeSig.parse_render {s : TypeSig} (h : s.IsLegal) : TypeSig.parse s.render = .ok s := by
  have := Reader.type_render s h (s.render.toList.length + 1) [] (by omega)
  rw [List.append_nil] at this
  exact Reader.run_of_step this

/-! ## Members -/

namespace MemberSig

structure IsLegal (s : MemberSig) : Prop where
  name : IsWord s.name
  arity : s.arity < 10 ^ integerDigitLimit
  named : s.declaring.isNamed = true
  declaring : s.declaring.IsLegal
  parameters : TypeSig.AreLegal s.parameters

/-- The arity in its brackets, unless it is zero. -/
def arityText (n : Nat) : List Char :=
  if n = 0 then [] else '<' :: Nat.toDigits 10 n ++ ['>']

/-- The parameters between their parentheses. -/
def parameterText : List TypeSig → List Char
  | [] => []
  | first :: more => first.render.toList ++ TypeSig.afterCommas more

theorem toList_render (s : MemberSig) :
    s.render.toList = s.name.toList ++ arityText s.arity ++ '@' :: s.declaring.render.toList ++
      '(' :: parameterText s.parameters ++ [')'] := by
  have hparameters : (",".intercalate (s.parameters.map TypeSig.render)).toList = parameterText s.parameters := by
    cases s.parameters with
    | nil => rfl
    | cons first more => exact TypeSig.toList_commas first more
  unfold render arityText
  split <;> simp [hparameters]

end MemberSig

namespace Reader

theorem arity_append {n : Nat} (hn : n < 10 ^ integerDigitLimit) (rest : List Char) :
    arity (MemberSig.arityText n ++ '@' :: rest) = .ok (n, '@' :: rest) := by
  unfold arity MemberSig.arityText
  by_cases h : n = 0
  · simp [h, token?_cons (show Text.isBlank '@' = false by decide)]
  · simp only [if_neg h, List.cons_append, List.append_assoc, List.nil_append,
      token?_cons (show Text.isBlank '<' = false by decide), if_true,
      integer_append hn (show Char.isDigit '>' = false by decide), ok_bind,
      token_cons (show Text.isBlank '>' = false by decide)]
    rfl

theorem arityText_starts (n : Nat) (rest : List Char) :
    ∃ c more, isStop c = true ∧ MemberSig.arityText n ++ '@' :: rest = c :: more := by
  unfold MemberSig.arityText
  split
  · exact ⟨'@', _, by decide, rfl⟩
  · exact ⟨'<', _, by decide, rfl⟩

theorem parameters_append {ss : List TypeSig} (h : TypeSig.AreLegal ss) {fuel : Nat}
    (hfuel : (MemberSig.parameterText ss).length + 1 ≤ fuel) (rest : List Char) :
    parameters fuel (MemberSig.parameterText ss ++ ')' :: rest) = .ok (ss, rest) := by
  cases ss with
  | nil => simp [parameters, MemberSig.parameterText, token?_cons (show Text.isBlank ')' = false by decide)]
  | cons first more =>
    have hnone : token? ')' (MemberSig.parameterText (first :: more) ++ ')' :: rest) = none := by
      obtain ⟨cs, hcs⟩ := first.render_starts
      simp [MemberSig.parameterText, hcs, token?_cons (show Text.isBlank '\x7b' = false by decide)]
    have hcomma : token? ',' (')' :: rest) = none := token?_cons (by decide) _ _
    simp only [MemberSig.parameterText, List.length_append] at hfuel
    unfold parameters
    simp only [hnone]
    simp only [MemberSig.parameterText, List.append_assoc, type_render first h.1 fuel _ (by omega), ok_bind,
      moreTypes_render more h.2 fuel _ hcomma (by omega), token_cons (show Text.isBlank ')' = false by decide)]
    rfl

end Reader

theorem MemberSig.parse_render {s : MemberSig} (h : s.IsLegal) : MemberSig.parse s.render = .ok s := by
  refine Reader.run_of_step ?_
  have htext : s.render.toList = s.name.toList ++ (arityText s.arity ++ '@' :: (s.declaring.render.toList ++
      '(' :: (parameterText s.parameters ++ ')' :: []))) := by
    simp [toList_render]
  have hlen := congrArg List.length htext
  simp only [List.length_append, List.length_cons, List.length_nil] at hlen
  generalize s.render.toList.length = length at hlen
  obtain ⟨c, more, hstop, hc⟩ := Reader.arityText_starts s.arity (s.declaring.render.toList ++
    '(' :: (parameterText s.parameters ++ ')' :: []))
  rw [htext, Reader.member, hc, Reader.name_append h.name hstop, ok_bind]
  simp only [← hc, Reader.arity_append h.arity, ok_bind,
    Reader.token_cons (show Text.isBlank '@' = false by decide), Reader.type_render _ h.declaring (length + 1) _ (by omega),
    h.named, Reader.token_cons (show Text.isBlank '(' = false by decide),
    Reader.parameters_append h.parameters (show _ ≤ length + 1 by omega)]
  rfl

end ExprTree.Signature
