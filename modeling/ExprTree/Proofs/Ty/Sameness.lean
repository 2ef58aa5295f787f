import ExprTree.Ty.Relation
import Mathlib.Data.List.Forall2

/-!
# Sameness and equivalence of types

Both comparisons of types are equivalence relations, and equivalence is the
finer one: it compares the members of a union in order where sameness takes
them as a set. The induction behind all of this looks at a type as a leaf, a
union in either spelling, or an application of another form.
-/

namespace ExprTree

section
variable {α β γ : Type} {R : α → β → Prop} {as : List α} {bs : List β} {cs : List γ}

theorem forall₂_imp_of_mem {S : α → β → Prop} (h : List.Forall₂ R as bs)
    (hRS : ∀ a ∈ as, ∀ b ∈ bs, R a b → S a b) : List.Forall₂ S as bs := by
  induction h with
  | nil => exact .nil
  | cons hab _ ih =>
    exact .cons (hRS _ (by simp) _ (by simp) hab) (ih fun a ha b hb => hRS a (by simp [ha]) b (by simp [hb]))

theorem forall₂_trans_of_mem {S : β → γ → Prop} {T : α → γ → Prop} (h₁ : List.Forall₂ R as bs)
    (h₂ : List.Forall₂ S bs cs) (hRS : ∀ b ∈ bs, ∀ a c, R a b → S b c → T a c) : List.Forall₂ T as cs := by
  induction h₁ generalizing cs with
  | nil => cases h₂; exact .nil
  | cons hab _ ih =>
    cases h₂ with
    | cons hbc h₂ => exact .cons (hRS _ (by simp) _ _ hab hbc) (ih h₂ fun b hb => hRS b (by simp [hb]))

theorem forall₂_mem (h : List.Forall₂ R as bs) {a : α} (ha : a ∈ as) : ∃ b ∈ bs, R a b := by
  induction h with
  | nil => cases ha
  | cons hab _ ih =>
    cases ha with
    | head => exact ⟨_, by simp, hab⟩
    | tail _ ha =>
      obtain ⟨b, hb, h⟩ := ih ha
      exact ⟨b, by simp [hb], h⟩

theorem forall₂_concat {a : α} {b : β} : List.Forall₂ R (as ++ [a]) (bs ++ [b]) ↔ List.Forall₂ R as bs ∧ R a b := by
  rw [← List.forall₂_reverse_iff]
  simp [and_comm]

theorem mem_of_lookup [BEq α] [LawfulBEq α] {es : List (α × β)} {k : α} {v : β}
    (h : es.lookup k = some v) : (k, v) ∈ es := by
  induction es with
  | nil => cases h
  | cons e es ih =>
    obtain ⟨k', v'⟩ := e
    rw [List.lookup_cons] at h
    split at h
    · next hk =>
      cases h
      simp [eq_of_beq hk]
    · exact List.mem_cons_of_mem _ (ih h)

end

namespace Ty

/-! ## Shapes of a type -/

/-- The members of a union in either spelling. -/
def members? : Ty → Option (List Ty)
  | .generic .union as => some as
  | .bar ms => some ms
  | _ => none

theorem induct_shape {motive : Ty → Prop} (leaf : ∀ t, t.origin? = none → motive t)
    (union : ∀ t ms, t.members? = some ms → (∀ m ∈ ms, motive m) → motive t)
    (generic : ∀ o as, o ≠ .union → motive o → (∀ a ∈ as, motive a) → motive (.generic o as))
    (t : Ty) : motive t := by
  refine @Ty.rec motive (fun ts => ∀ t ∈ ts, motive t)
    (fun c => leaf _ rfl) (leaf _ rfl) (fun p n => leaf _ rfl) (fun n => leaf _ rfl) (fun l => leaf _ rfl)
    (fun o as ho has => ?_) (fun ms hms => union _ ms rfl hms) (fun _ h => nomatch h) ?_ t
  · by_cases h : o = .union
    · subst h; exact union _ as rfl has
    · exact generic o as h ho has
  · intro a as ha has t ht
    cases ht with
    | head => exact ha
    | tail _ ht => exact has t ht

theorem members?_eq_some {t : Ty} {ms : List Ty} :
    t.members? = some ms ↔ t = .generic .union ms ∨ t = .bar ms := by
  unfold members?
  split <;> simp_all

theorem members?_origin {t : Ty} {ms : List Ty} (h : t.members? = some ms) :
    t.origin? = some .union ∧ t.arguments = ms := by
  unfold members? at h
  split at h <;> simp_all [origin?, arguments]

theorem members?_of_origin {t : Ty} (h : t.origin? = some .union) : t.members? = some t.arguments := by
  cases t <;> simp_all [origin?, members?, arguments]

theorem eq_generic_of_origin {t o : Ty} (h : t.origin? = some o) (ho : o ≠ .union) :
    t = .generic o t.arguments := by
  cases t <;> simp_all [origin?, arguments]

theorem isUnionForm_iff {t : Ty} : t.isUnionForm = true ↔ t = .union := by
  cases t <;> simp [isUnionForm]

theorem isParameter_of_origin {t o : Ty} (h : t.origin? = some o) : t.isParameter = false := by
  cases t <;> simp_all [origin?, isParameter]

/-! ## Sameness -/

theorem subsetOf_iff {as bs : List Ty} :
    subsetOf as bs = true ↔ ∀ a ∈ as, ∃ b ∈ bs, same a b = true := by
  induction as with
  | nil => simp [subsetOf]
  | cons a as ih => simp [subsetOf, ih]

theorem memberOf_iff {as : List Ty} {b : Ty} : memberOf as b = true ↔ ∃ a ∈ as, same a b = true := by
  induction as with
  | nil => simp [memberOf]
  | cons a as ih => simp [memberOf, ih]

theorem sameAll_iff {as bs : List Ty} :
    sameAll as bs = true ↔ List.Forall₂ (fun a b => same a b = true) as bs := by
  induction as generalizing bs with
  | nil => cases bs <;> simp [sameAll]
  | cons a as ih => cases bs <;> simp [sameAll, ih]

theorem same_unions {a b : Ty} {as bs : List Ty} (ha : a.members? = some as) (hb : b.members? = some bs) :
    same a b = true ↔
      (∀ x ∈ as, ∃ y ∈ bs, same x y = true) ∧ (∀ y ∈ bs, ∃ x ∈ as, same x y = true) := by
  unfold members? at ha hb
  split at ha <;> split at hb <;> simp_all [same, subsetOf_iff, memberOf_iff]

example : same (.generic .union [.int, .nothing]) (.bar [.nothing, .int]) = true := by
  cbv

theorem same_generic {o p : Ty} {as bs : List Ty} (h : o ≠ .union) :
    same (.generic o as) (.generic p bs) = (same o p && sameAll as bs) := by
  cases o <;> cases p <;> simp_all [same]

theorem ne_union_of_same {o p : Ty} (h : same o p = true) (ho : o ≠ .union) : p ≠ .union := by
  rintro rfl
  exact ho (by cases o <;> simp_all [same])

/-- Only a union is the same as a union. -/
theorem members?_isSome_of_same {a b : Ty} (h : same a b = true) : a.members?.isSome = b.members?.isSome := by
  cases a with
  | generic o as =>
    cases b with
    | generic p bs => cases o <;> cases p <;> simp_all [same, members?]
    | _ => cases o <;> simp_all [same, members?]
  | bar as =>
    cases b with
    | generic p bs => cases p <;> simp_all [same, members?]
    | _ => simp_all [same, members?]
  | _ => cases b <;> simp_all [same, members?]

theorem same_union_left {a b : Ty} {as : List Ty} (ha : a.members? = some as) (h : same a b = true) :
    ∃ bs, b.members? = some bs ∧ (∀ x ∈ as, ∃ y ∈ bs, same x y = true) ∧
      ∀ y ∈ bs, ∃ x ∈ as, same x y = true := by
  have hs := members?_isSome_of_same h
  rw [ha] at hs
  obtain ⟨bs, hb⟩ := Option.isSome_iff_exists.mp hs.symm
  exact ⟨bs, hb, (same_unions ha hb).mp h⟩

/-- What is the same as an application of a form other than the union's is an application too. -/
theorem same_generic_left {o t : Ty} {as : List Ty} (ho : o ≠ .union) (h : same (.generic o as) t = true) :
    ∃ p bs, t = .generic p bs ∧ p ≠ .union ∧ same o p = true ∧
      List.Forall₂ (fun a b => same a b = true) as bs := by
  have hm := members?_isSome_of_same h
  cases t with
  | generic p bs =>
    rw [same_generic ho, Bool.and_eq_true, sameAll_iff] at h
    refine ⟨p, bs, rfl, ?_, h.1, h.2⟩
    rintro rfl
    cases o <;> simp_all [members?]
  | _ => cases o <;> simp_all [same]

/-- A leaf is the same as nothing but itself, up to the name of an open parameter. -/
theorem same_leaf_left {a b : Ty} (ha : a.origin? = none) (h : same a b = true) :
    a = b ∨ ∃ p n m, a = .parameter p n ∧ b = .parameter p m := by
  cases a <;> cases b <;> simp_all [same, origin?]

theorem same_parameters (p : Nat) (n m : String) : same (.parameter p n) (.parameter p m) = true := by
  simp [same]

@[simp] theorem same_refl (t : Ty) : same t t = true := by
  induction t using induct_shape with
  | leaf t ht => cases t <;> simp_all [same, origin?]
  | union t ms hms ih =>
    exact (same_unions hms hms).mpr ⟨fun x hx => ⟨x, hx, ih x hx⟩, fun x hx => ⟨x, hx, ih x hx⟩⟩
  | generic o as ho iho ih =>
    rw [same_generic ho, iho, Bool.true_and, sameAll_iff]
    exact List.forall₂_same.mpr ih

theorem same_symm {a b : Ty} (h : same a b = true) : same b a = true := by
  induction a using induct_shape generalizing b with
  | leaf a ha =>
    obtain rfl | ⟨p, n, m, rfl, rfl⟩ := same_leaf_left ha h
    · exact h
    · exact same_parameters p m n
  | union a as ha ih =>
    obtain ⟨bs, hb, h₁, h₂⟩ := same_union_left ha h
    refine (same_unions hb ha).mpr ⟨fun y hy => ?_, fun x hx => ?_⟩
    · obtain ⟨x, hx, hxy⟩ := h₂ y hy
      exact ⟨x, hx, ih x hx hxy⟩
    · obtain ⟨y, hy, hxy⟩ := h₁ x hx
      exact ⟨y, hy, ih x hx hxy⟩
  | generic o as ho iho ih =>
    obtain ⟨p, bs, rfl, hp, hop, hs⟩ := same_generic_left ho h
    rw [same_generic hp, iho hop, Bool.true_and, sameAll_iff]
    exact (forall₂_imp_of_mem hs fun a ha _ _ hab => ih a ha hab).flip

theorem same_trans {a b c : Ty} (h₁ : same a b = true) (h₂ : same b c = true) : same a c = true := by
  induction b using induct_shape generalizing a c with
  | leaf b hb =>
    obtain rfl | ⟨p, n, m, rfl, rfl⟩ := same_leaf_left hb h₂
    · exact h₁
    · obtain rfl | ⟨q, k, j, e, rfl⟩ := same_leaf_left rfl (same_symm h₁)
      · exact same_parameters p n m
      · cases e; exact same_parameters p j m
  | union b bs hb ih =>
    obtain ⟨cs, hc, h₃, h₄⟩ := same_union_left hb h₂
    obtain ⟨as, ha, h₅, h₆⟩ := same_union_left hb (same_symm h₁)
    refine (same_unions ha hc).mpr ⟨fun x hx => ?_, fun z hz => ?_⟩
    · obtain ⟨y, hy, hyx⟩ := h₆ x hx
      obtain ⟨z, hz, hyz⟩ := h₃ y hy
      exact ⟨z, hz, ih y hy (same_symm hyx) hyz⟩
    · obtain ⟨y, hy, hyz⟩ := h₄ z hz
      obtain ⟨x, hx, hyx⟩ := h₅ y hy
      exact ⟨x, hx, ih y hy (same_symm hyx) hyz⟩
  | generic o bs ho iho ih =>
    obtain ⟨p, cs, rfl, hp, hop, hs⟩ := same_generic_left ho h₂
    obtain ⟨q, as, rfl, hq, hoq, ht⟩ := same_generic_left ho (same_symm h₁)
    rw [same_generic hq, iho (same_symm hoq) hop, Bool.true_and, sameAll_iff]
    exact forall₂_trans_of_mem ht.flip hs fun b hb a c hab hbc => ih b hb (same_symm hab) hbc

/-! ## Equivalence -/

theorem equivalentAll_iff {as bs : List Ty} :
    equivalentAll as bs = true ↔ List.Forall₂ (fun a b => equivalent a b = true) as bs := by
  induction as generalizing bs with
  | nil => cases bs <;> simp [equivalentAll]
  | cons a as ih => cases bs <;> simp [equivalentAll, ih]

theorem equivalent_leaf {a : Ty} (ha : a.origin? = none) (b : Ty) : equivalent a b = same a b := by
  cases a with
  | generic | bar => simp [origin?] at ha
  | _ => cases b <;> simp [equivalent, same, isParameter, origin?]

theorem equivalent_applied {a o : Ty} (ha : a.origin? = some o) (b : Ty) :
    equivalent a b = true ↔ ∃ p, b.origin? = some p ∧ same o p = true ∧
      List.Forall₂ (fun x y => equivalent x y = true) a.arguments b.arguments := by
  have hunion (p : Ty) : isUnionForm p = same .union p := by cases p <;> simp [isUnionForm, same]
  cases hb : b.origin? with
  | none => cases a <;> simp_all [origin?, equivalent]
  | some p =>
    have hp := isParameter_of_origin hb
    cases a <;> simp_all [origin?, equivalent, equivalentAll_iff, arguments]

theorem origin?_of_equivalent {a b o : Ty} (h : equivalent a b = true) (ha : a.origin? = some o) :
    ∃ p, b.origin? = some p ∧ same o p = true ∧
      List.Forall₂ (fun x y => equivalent x y = true) a.arguments b.arguments :=
  (equivalent_applied ha b).mp h

@[simp] theorem equivalent_refl (t : Ty) : equivalent t t = true := by
  induction t using induct_shape with
  | leaf t ht => rw [equivalent_leaf ht, same_refl]
  | union t ms hms ih =>
    obtain ⟨ho, rfl⟩ := members?_origin hms
    exact (equivalent_applied ho t).mpr ⟨_, ho, same_refl _, List.forall₂_same.mpr ih⟩
  | generic o as ho iho ih =>
    exact (equivalent_applied rfl _).mpr ⟨o, rfl, same_refl o, List.forall₂_same.mpr ih⟩

/-- Induction over types by their arguments alone. -/
theorem induct_arguments {motive : Ty → Prop}
    (step : ∀ t, (∀ a ∈ t.arguments, motive a) → motive t) (t : Ty) : motive t := by
  induction t using induct_shape with
  | leaf t ht => exact step t fun a ha => by cases t <;> simp_all [origin?, arguments]
  | union t ms hms ih => exact step t ((members?_origin hms).2 ▸ ih)
  | generic o as _ _ ih => exact step _ ih

theorem origin?_eq_none_of_equivalent {a b : Ty} (h : equivalent a b = true) (ha : a.origin? = none) :
    b.origin? = none := by
  rw [equivalent_leaf ha] at h
  obtain rfl | ⟨p, n, m, rfl, rfl⟩ := same_leaf_left ha h
  · exact ha
  · rfl

theorem equivalent_symm {a b : Ty} (h : equivalent a b = true) : equivalent b a = true := by
  induction a using induct_arguments generalizing b with
  | step a ih =>
    cases ha : a.origin? with
    | none =>
      rw [equivalent_leaf (origin?_eq_none_of_equivalent h ha)]
      rw [equivalent_leaf ha] at h
      exact same_symm h
    | some o =>
      obtain ⟨p, hb, hop, hs⟩ := origin?_of_equivalent h ha
      exact (equivalent_applied hb a).mpr ⟨o, ha, same_symm hop,
        (forall₂_imp_of_mem hs fun x hx _ _ hxy => ih x hx hxy).flip⟩

theorem equivalent_trans {a b c : Ty} (h₁ : equivalent a b = true) (h₂ : equivalent b c = true) :
    equivalent a c = true := by
  induction b using induct_arguments generalizing a c with
  | step b ih =>
    cases ha : a.origin? with
    | none =>
      have hb := origin?_eq_none_of_equivalent h₁ ha
      rw [equivalent_leaf ha] at h₁ ⊢
      rw [equivalent_leaf hb] at h₂
      exact same_trans h₁ h₂
    | some o =>
      obtain ⟨p, hb, hop, hs⟩ := origin?_of_equivalent h₁ ha
      obtain ⟨q, hc, hpq, ht⟩ := origin?_of_equivalent h₂ hb
      exact (equivalent_applied ha c).mpr ⟨q, hc, same_trans hop hpq,
        forall₂_trans_of_mem hs ht fun y hy x z hxy hyz => ih y hy hxy hyz⟩

/-- Equivalence is the finer comparison. -/
theorem same_of_equivalent {a b : Ty} (h : equivalent a b = true) : same a b = true := by
  induction a using induct_shape generalizing b with
  | leaf a ha => rwa [equivalent_leaf ha] at h
  | union a as ha ih =>
    obtain ⟨ho, rfl⟩ := members?_origin ha
    obtain ⟨p, hb, hop, hs⟩ := origin?_of_equivalent h ho
    obtain rfl : p = .union := by cases p <;> simp_all [same]
    refine (same_unions ha (members?_of_origin hb)).mpr ⟨fun x hx => ?_, fun y hy => ?_⟩
    · obtain ⟨y, hy, hxy⟩ := forall₂_mem hs hx
      exact ⟨y, hy, ih x hx hxy⟩
    · obtain ⟨x, hx, hxy⟩ := forall₂_mem hs.flip hy
      exact ⟨x, hx, ih x hx hxy⟩
  | generic o as ho iho ih =>
    obtain ⟨p, hb, hop, hs⟩ := origin?_of_equivalent h rfl
    rw [eq_generic_of_origin hb (ne_union_of_same hop ho), same_generic ho, hop, Bool.true_and, sameAll_iff]
    exact forall₂_imp_of_mem hs fun a ha _ _ hab => ih a ha hab

end Ty

end ExprTree
