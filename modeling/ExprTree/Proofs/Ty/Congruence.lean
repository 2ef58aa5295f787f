import ExprTree.Node.Build
import ExprTree.Proofs.Ty.Sameness

/-!
# Equivalence is a congruence

Nothing that the typing rules ask of a type tells equivalent types apart:
which class its values have, which of the numeric types it is, what it is
optional over, and what it accepts.
-/

namespace ExprTree.Ty

variable {s s' t t' : Ty}

theorem equivalent_congr (hs : equivalent s s' = true) (ht : equivalent t t' = true) :
    equivalent s t = equivalent s' t' := by
  rw [Bool.eq_iff_iff]
  exact ⟨fun h => equivalent_trans (equivalent_symm hs) (equivalent_trans h ht),
    fun h => equivalent_trans hs (equivalent_trans h (equivalent_symm ht))⟩

/-! ## Leaves -/

theorem eq_cls_of_equivalent {c : ClassName} (h : equivalent (.cls c) t = true) : t = .cls c := by
  rw [equivalent_leaf rfl] at h
  cases t <;> simp_all [same]

theorem isClass_congr (c : ClassName) (h : equivalent t t' = true) : t.isClass c = t'.isClass c := by
  have hiff {s : Ty} : s.isClass c = true ↔ s = .cls c := by
    cases s <;> simp [isClass, eq_comm]
  rw [Bool.eq_iff_iff, hiff, hiff]
  constructor
  · rintro rfl; exact eq_cls_of_equivalent h
  · rintro rfl; exact eq_cls_of_equivalent (equivalent_symm h)

theorem isParameter_congr (h : equivalent t t' = true) : t.isParameter = t'.isParameter := by
  cases ht : t.origin? with
  | none =>
    rw [equivalent_leaf ht] at h
    obtain rfl | ⟨p, n, m, rfl, rfl⟩ := same_leaf_left ht h <;> rfl
  | some o =>
    obtain ⟨p, hp, -⟩ := origin?_of_equivalent h ht
    rw [isParameter_of_origin ht, isParameter_of_origin hp]

theorem isNothing_congr (h : equivalent t t' = true) : t.isNothing = t'.isNothing := isClass_congr _ h
theorem isBool_congr (h : equivalent t t' = true) : t.isBool = t'.isBool := isClass_congr _ h
theorem isStr_congr (h : equivalent t t' = true) : t.isStr = t'.isStr := isClass_congr _ h
theorem isChar_congr (h : equivalent t t' = true) : t.isChar = t'.isChar := isClass_congr _ h

theorem isInt_congr (h : equivalent t t' = true) : t.isInt = t'.isInt := isClass_congr _ h
theorem isDecimal_congr (h : equivalent t t' = true) : t.isDecimal = t'.isDecimal := isClass_congr _ h
theorem isObject_congr (h : equivalent t t' = true) : t.isObject = t'.isObject := isClass_congr _ h

theorem fixed?_congr (h : equivalent t t' = true) : t.fixed? = t'.fixed? := by
  simp only [fixed?, isClass_congr _ h]

theorem floatKind?_congr (h : equivalent t t' = true) : t.floatKind? = t'.floatKind? := by
  simp only [floatKind?, isClass_congr _ h]

theorem fixedFloat?_congr (h : equivalent t t' = true) : t.fixedFloat? = t'.fixedFloat? := by
  simp only [fixedFloat?, isClass_congr _ h]

theorem isInteger_congr (h : equivalent t t' = true) : t.isInteger = t'.isInteger := by
  simp only [isInteger, isFixed, isInt_congr h, fixed?_congr h]

theorem isNumeric_congr (h : equivalent t t' = true) : t.isNumeric = t'.isNumeric := by
  simp only [isNumeric, isFloat, isInteger_congr h, floatKind?_congr h, isDecimal_congr h]

/-! ## Classes and optional types -/

/-- Equivalent types have the same class of values. -/
theorem runtimeClass_congr (h : equivalent t t' = true) :
    t.runtimeForm.className? = t'.runtimeForm.className? := by
  have hsame {o p : Ty} (h : same o p = true) : o.className? = p.className? := by
    cases o <;> cases p <;> simp_all [same, className?]
  cases ht : t.origin? with
  | none =>
    rw [equivalent_leaf ht] at h
    obtain rfl | ⟨p, n, m, rfl, rfl⟩ := same_leaf_left ht h <;> rfl
  | some o =>
    obtain ⟨p, hp, hop, -⟩ := origin?_of_equivalent h ht
    simp [runtimeForm, ht, hp, hsame hop]

theorem isUnion_congr (h : equivalent t t' = true) : t.origin? = some .union ↔ t'.origin? = some .union := by
  have hsame {o : Ty} (h : same .union o = true) : o = .union := by cases o <;> simp_all [same]
  constructor
  · intro ht
    obtain ⟨p, hp, hop, -⟩ := origin?_of_equivalent h ht
    rw [hp, hsame hop]
  · intro ht
    obtain ⟨p, hp, hop, -⟩ := origin?_of_equivalent (equivalent_symm h) ht
    rw [hp, hsame hop]

theorem arguments_congr (h : equivalent t t' = true) :
    List.Forall₂ (fun x y => equivalent x y = true) t.arguments t'.arguments := by
  cases ht : t.origin? with
  | none =>
    rw [equivalent_leaf ht] at h
    obtain rfl | ⟨p, n, m, rfl, rfl⟩ := same_leaf_left ht h
    · exact List.forall₂_same.mpr fun x _ => equivalent_refl x
    · exact .nil
  | some o =>
    obtain ⟨_, _, _, hs⟩ := origin?_of_equivalent h ht
    exact hs

theorem filter_congr {ms ms' : List Ty} (h : List.Forall₂ (fun x y => equivalent x y = true) ms ms') :
    List.Forall₂ (fun x y => equivalent x y = true) (ms.filter (!isNothing ·)) (ms'.filter (!isNothing ·)) := by
  induction h with
  | nil => exact .nil
  | @cons x y _ _ hxy _ ih =>
    rw [List.filter_cons, List.filter_cons, isNothing_congr hxy]
    split
    · exact .cons hxy ih
    · exact ih

/-- What equivalent types are optional over is equivalent. -/
theorem optionalInner?_congr (h : equivalent t t' = true) :
    Option.Rel (fun x y => equivalent x y = true) t.optionalInner? t'.optionalInner? := by
  by_cases ht : t.origin? = some .union
  · have ht' := (isUnion_congr h).mp ht
    have hs := arguments_congr h
    have hf := filter_congr hs
    simp only [optionalInner?, ht, ht', ← hs.length_eq]
    generalize t.arguments.filter (!isNothing ·) = ms at hf
    generalize t'.arguments.filter (!isNothing ·) = ms' at hf
    match ms, ms', hf with
    | [], [], _ => exact .none
    | [m], [m'], .cons hm _ =>
      by_cases hl : t.arguments.length = 1
      · simp only [hl, if_true]; exact .none
      · simp only [hl, if_false]; exact .some hm
    | _ :: _ :: _, _ :: _ :: _, _ => exact .none
  · have ht' := fun h' => ht ((isUnion_congr h).mpr h')
    have hnone {s : Ty} (hs : s.origin? ≠ some .union) : s.optionalInner? = none := by
      unfold optionalInner?
      split <;> simp_all
    rw [hnone ht, hnone ht']
    exact .none

theorem isSome_optionalInner?_congr (h : equivalent t t' = true) :
    t.optionalInner?.isSome = t'.optionalInner?.isSome := by
  have hinner := optionalInner?_congr h
  generalize t.optionalInner? = i, t'.optionalInner? = j at hinner
  cases hinner <;> rfl

theorem className?_congr (h : equivalent t t' = true) : t.className? = t'.className? := by
  have hcls {t t' : Ty} {c : ClassName} (h : equivalent t t' = true) (hc : t.className? = some c) :
      t'.className? = some c := by
    obtain rfl : t = .cls c := by cases t <;> cases hc; rfl
    rw [eq_cls_of_equivalent h, className?]
  exact Option.ext fun c => ⟨hcls h, hcls (equivalent_symm h)⟩

/-- Equivalent types hold the same constants. -/
theorem constantClass?_congr (h : equivalent t t' = true) : Node.constantClass? t = Node.constantClass? t' := by
  have hinner := optionalInner?_congr h
  unfold Node.constantClass?
  generalize t.optionalInner? = i, t'.optionalInner? = j at hinner
  cases hinner with
  | none => exact runtimeClass_congr h
  | some hij => exact className?_congr hij

/-! ## Assignability -/

variable (below : ClassName → ClassName → Bool)

theorem classBelow_congr (form : Ty) (h : equivalent s s' = true) :
    classBelow below s form = classBelow below s' form := by
  simp only [classBelow, runtimeClass_congr h]

theorem acceptsAny_eq (ts : List Ty) (s : Ty) : acceptsAny below ts s = ts.any (accepts below · s) := by
  induction ts with
  | nil => rfl
  | cons t ts ih => simp [acceptsAny, ih]

theorem accepts_union {ms : List Ty} (ht : t.members? = some ms) (s : Ty) :
    accepts below t s = (equivalent t s ||
      if s.isNothing then t.optionalInner?.isSome else ms.any (accepts below · s)) := by
  unfold members? at ht
  split at ht <;> simp_all [accepts, acceptsAny_eq, isUnionForm]

theorem accepts_generic {o : Ty} {as : List Ty} (ho : o ≠ .union) (s : Ty) :
    accepts below (.generic o as) s = (equivalent (.generic o as) s ||
      if s.isNothing then (Ty.generic o as).optionalInner?.isSome
      else !s.isParameter && classBelow below s o &&
        (as.length ≠ s.arguments.length || acceptsAll below as s.arguments)) := by
  have : o.isUnionForm = false := by rw [← Bool.not_eq_true, isUnionForm_iff]; exact ho
  simp [accepts, this]

/-- A leaf that is no class accepts what is equivalent to it. -/
theorem accepts_leaf (ht : t.origin? = none) (hc : t.className? = none) (s : Ty) :
    accepts below t s = equivalent t s := by
  cases t <;> simp_all [accepts, origin?, className?]

theorem accepts_of_equivalent {t s : Ty} (h : equivalent t s = true) : accepts below t s = true := by
  cases t <;> simp [accepts, h]

theorem acceptsAll_congr {ts ts' ss ss' : List Ty}
    (ht : List.Forall₂ (fun x y => equivalent x y = true) ts ts')
    (hs : List.Forall₂ (fun x y => equivalent x y = true) ss ss')
    (h : ∀ t ∈ ts, ∀ {t' s s' : Ty}, equivalent t t' = true → equivalent s s' = true →
      accepts below t s = accepts below t' s') :
    acceptsAll below ts ss = acceptsAll below ts' ss' := by
  induction ht generalizing ss ss' with
  | nil => simp [acceptsAll]
  | cons hxy _ ih =>
    cases hs with
    | nil => simp [acceptsAll]
    | cons huv hs =>
      simp only [acceptsAll]
      rw [h _ (by simp) hxy huv, ih hs fun t ht => h t (by simp [ht])]

theorem any_congr {ts ts' : List Ty} {p q : Ty → Bool}
    (ht : List.Forall₂ (fun x y => equivalent x y = true) ts ts')
    (h : ∀ t ∈ ts, ∀ t', equivalent t t' = true → p t = q t') : ts.any p = ts'.any q := by
  induction ht with
  | nil => rfl
  | cons hxy _ ih =>
    rw [List.any_cons, List.any_cons, h _ (by simp) _ hxy, ih fun t ht => h t (by simp [ht])]

/-- Equivalent types accept equivalent sources alike. -/
theorem accepts_congr (ht : equivalent t t' = true) (hs : equivalent s s' = true) :
    accepts below t s = accepts below t' s' := by
  induction t using induct_shape generalizing t' s s' with
  | leaf t hleaf =>
    by_cases hc : t.className? = none
    · have hleaf' := origin?_eq_none_of_equivalent ht hleaf
      have hc' : t'.className? = none := by
        have := runtimeClass_congr ht
        simp only [runtimeForm, hleaf, hleaf', Option.getD_none] at this
        rw [← this, hc]
      rw [accepts_leaf below hleaf hc, accepts_leaf below hleaf' hc', equivalent_congr ht hs]
    · obtain ⟨c, rfl⟩ : ∃ c, t = .cls c := by cases t <;> simp_all [className?]
      obtain rfl := eq_cls_of_equivalent ht
      simp only [accepts, equivalent_congr (equivalent_refl _) hs, isNothing_congr hs,
        classBelow_congr below _ hs]
  | union t ms hms ih =>
    obtain ⟨ho, rfl⟩ := members?_origin hms
    have hms' := members?_of_origin ((isUnion_congr ht).mp ho)
    rw [accepts_union below hms, accepts_union below hms', equivalent_congr ht hs, isNothing_congr hs,
      isSome_optionalInner?_congr ht, any_congr (arguments_congr ht) fun t hmem t' h => ih t hmem h hs]
  | generic o as ho iho ih =>
    obtain ⟨p, hp, hop, has⟩ := origin?_of_equivalent ht rfl
    have hne : p ≠ .union := ne_union_of_same hop ho
    have hbelow : classBelow below s o = classBelow below s' p := by
      have : o.className? = p.className? := by cases o <;> cases p <;> simp_all [same, className?]
      simp only [classBelow, runtimeClass_congr hs, this]
    have heq := eq_generic_of_origin hp hne
    change List.Forall₂ _ as _ at has
    generalize t'.arguments = bs at has heq
    subst heq
    have harg := arguments_congr hs
    rw [accepts_generic below ho, accepts_generic below hne, equivalent_congr ht hs, isNothing_congr hs,
      isSome_optionalInner?_congr ht, isParameter_congr hs, hbelow]
    have hlen : as.length = bs.length := has.length_eq
    rw [acceptsAll_congr below has harg fun t hmem => ih t hmem, hlen, harg.length_eq]

end ExprTree.Ty
