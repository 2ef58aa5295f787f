import ExprTree.Proofs.Signature.Legality
import ExprTree.Proofs.Signature.Resolution

/-!
# What resolution does to the names

A resolution does nothing to the names but look some of them up, whatever comes
of it. So what one look-up preserves holds after any resolution, and what is
resolved is made of what the look-ups found.
-/

namespace ExprTree.Signature

open Action (Stays)

variable {l : Library} {loads : Bool} {Good : Names → Prop} {Found P : Ty → Prop}

/-- Is a type one of the sort when it is closed over such types from a form that was found? -/
structure IsMadeOf (Found P : Ty → Prop) : Prop where
  position : ∀ n : Nat, n < 10 ^ integerDigitLimit → P (.parameter n "")
  close : ∀ o as, Found o → (∀ a ∈ as, P a) → P (o.close as)

/-- Does each look-up keep the names good, and find such forms? -/
def LooksUp (l : Library) (loads : Bool) (Good : Names → Prop) (Found : Ty → Prop) : Prop :=
  ∀ names, Good names → ∀ name hint, Good (l.resolveName name hint loads names).2 ∧
    ∀ t, (l.resolveName name hint loads names).1 = some t → Found t

theorem resolveName_stays (hlook : LooksUp l loads Good Found) (name : String) (hint : Option String) :
    Stays Good (resolveName l loads name hint) Found := by
  intro names r names' hnames hrun
  rw [resolveName_run] at hrun
  obtain ⟨hgood, hfound⟩ := hlook names hnames name hint
  cases hrun
  exact ⟨hgood, fun t ht => hfound t (answer_eq_ok.mp ht).1⟩

mutual

theorem TypeSig.resolve_stays (hlook : LooksUp l loads Good Found) (hmade : IsMadeOf Found P) :
    ∀ s : TypeSig, s.IsLegal → Stays Good (s.resolve l loads) P
  | .parameter position, hs => .pure (hmade.position position hs)
  | .named name arguments hint, hs => by
    unfold TypeSig.resolve
    refine (resolveName_stays hlook name hint).bind fun origin horigin => ?_
    refine (TypeSig.resolveAll_stays hlook hmade arguments hs.2.2).bind fun as has => ?_
    exact .pure (hmade.close origin as horigin has)

theorem TypeSig.resolveAll_stays (hlook : LooksUp l loads Good Found) (hmade : IsMadeOf Found P) :
    ∀ ss : List TypeSig, TypeSig.AreLegal ss → Stays Good (TypeSig.resolveAll l loads ss) fun ts => ∀ t ∈ ts, P t
  | [], _ => .pure (by simp)
  | s :: ss, hs => by
    unfold TypeSig.resolveAll
    refine (TypeSig.resolve_stays hlook hmade s hs.1).bind fun t ht => ?_
    refine (TypeSig.resolveAll_stays hlook hmade ss hs.2).bind fun ts hts => ?_
    exact .pure (List.forall_mem_cons.mpr ⟨ht, hts⟩)

end

section

variable (hlook : LooksUp l loads Good Found) (hmade : IsMadeOf Found P)

include hlook hmade

theorem decodeType_stays (text : String) : Stays Good (decodeType l loads text) P := by
  unfold decodeType
  split
  · next s hparse => exact TypeSig.resolve_stays hlook hmade s (TypeSig.isLegal_of_parse hparse)
  · exact .throw _

/-- The method is the only one of its class that the signature in the text describes. -/
def IsSingledOut (l : Library) (P : Ty → Prop) (text : String) (m : Method) : Prop :=
  ∃ s types declaring c, MemberSig.parse text = .ok s ∧ (∀ t ∈ types, P t) ∧ P declaring ∧
    declaring.runtimeForm.className? = some c ∧ (l.methodsNamed c s.name).filter (isCandidate s.arity types) = [m]

theorem decodeMember_stays (text : String) : Stays Good (decodeMember l loads text) (IsSingledOut l P text) := by
  unfold decodeMember
  split
  · next s hparse =>
    have hs := MemberSig.isLegal_of_parse hparse
    unfold MemberSig.resolve
    refine (TypeSig.resolve_stays hlook hmade _ hs.declaring).bind fun declaring hdeclaring => ?_
    refine (TypeSig.resolveAll_stays hlook hmade _ hs.parameters).bind fun types htypes => ?_
    split
    · exact .throw _
    · next c hc =>
      split
      · next m hm => exact .pure ⟨s, types, declaring, c, hparse, htypes, hdeclaring, hc, hm⟩
      · exact .throw _
      · exact .throw _
  · exact .throw _

end

/-! ## Reaching -/

/-- Every look-up reaches further names, and what it finds is some type. -/
theorem looksUp_reaches (start : Names) : LooksUp l loads (start.Reaches l loads) fun _ => True :=
  fun _ hr name hint => ⟨.lookUp name hint hr, fun _ _ => trivial⟩

theorem isMadeOf_any : IsMadeOf (fun _ => True) fun _ => True :=
  ⟨fun _ _ => trivial, fun _ _ _ _ => trivial⟩

theorem decodeType_reaches (text : String) {names names' : Names} {r : Except Fault Ty}
    (h : (decodeType l loads text).run names = (r, names')) : names.Reaches l loads names' :=
  (decodeType_stays (looksUp_reaches names) isMadeOf_any text names r names' .refl h).1

theorem decodeMember_reaches (text : String) {names names' : Names} {r : Except Fault Method}
    (h : (decodeMember l loads text).run names = (r, names')) : names.Reaches l loads names' :=
  (decodeMember_stays (looksUp_reaches names) isMadeOf_any text names r names' .refl h).1

end ExprTree.Signature
