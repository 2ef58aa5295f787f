import ExprTree.Proofs.Ty.Congruence

/-!
# Types that are built

The types that generic forms and open parameters give rise to, and what all of
them have in common: a union lists at least two different members, none of
which is a union itself, unless it was kept whole because the bare union form
is among its members. Building a type again from equivalent parts gives an
equivalent type.
-/

namespace ExprTree.Ty

/-- Are the types equivalent one by one? -/
abbrev EquivalentAll (as bs : List Ty) : Prop := List.Forall₂ (fun a b => equivalent a b = true) as bs

/-- A class or the union form, which arguments can be given to. -/
def IsForm (o : Ty) : Prop := o = .union ∨ ∃ c, o = .cls c

theorem isForm_iff {o : Ty} : o.isForm = true ↔ IsForm o := by
  cases o <;> simp [isForm, IsForm]

/-- Classes and open parameters, and what forms make of them. -/
inductive Built : Ty → Prop where
  | cls (c : ClassName) : Built (.cls c)
  | union : Built .union
  | parameter (p : Nat) (n : String) : Built (.parameter p n)
  | close {o : Ty} {as : List Ty} (ho : IsForm o) (has : ∀ a ∈ as, Built a) : Built (close o as)
  | bar {a b : Ty} (ha : Built a) (hb : Built b) (hna : a ≠ .union) (hnb : b ≠ .union) : Built (barOf a b)

/-- What the members of a union look like: several, all different, none a union to be opened. -/
structure Flat (ms : List Ty) : Prop where
  several : 2 ≤ ms.length
  noForm : ms.any isUnionForm = false
  single : ∀ m ∈ ms, unionMembers m = [m]
  distinct : ms.Pairwise fun a b => same b a = false

/-- The normal form of built types. -/
inductive Formed : Ty → Prop where
  | cls (c : ClassName) : Formed (.cls c)
  | union : Formed .union
  | parameter (p : Nat) (n : String) : Formed (.parameter p n)
  | generic {c : ClassName} {as : List Ty} (hne : as ≠ []) (has : ∀ a ∈ as, Formed a) :
      Formed (.generic (.cls c) as)
  | kept {ms : List Ty} (hu : ms.any isUnionForm = true) (hms : ∀ m ∈ ms, Formed m) :
      Formed (.generic .union ms)
  | members {t : Ty} {ms : List Ty} (ht : t.members? = some ms) (hf : Flat ms) (hms : ∀ m ∈ ms, Formed m) :
      Formed t

/-! ## Removing duplicates -/

theorem foldl_dedup_eq {ts : List Ty} (kept : List Ty) (h : (kept ++ ts).Pairwise fun a b => same b a = false) :
    ts.foldl (fun kept t => if kept.any (same t) then kept else kept ++ [t]) kept = kept ++ ts := by
  induction ts generalizing kept with
  | nil => simp
  | cons t ts ih =>
    have hnew : kept.any (same t) = false := by
      rw [List.any_eq_false]
      intro k hk
      simp [(List.pairwise_append.mp h).2.2 k hk t (by simp)]
    rw [List.foldl_cons, hnew]
    simpa using ih (kept ++ [t]) (by simpa using h)

theorem dedup_of_distinct {ts : List Ty} (h : ts.Pairwise fun a b => same b a = false) : dedup ts = ts :=
  foldl_dedup_eq [] h

/-- Removing duplicates keeps only what was there, all different, and something if there was. -/
theorem foldl_dedup {P : Ty → Prop} (kept ts : List Ty) (hts : ∀ t ∈ ts, P t) (hk : ∀ t ∈ kept, P t)
    (hd : kept.Pairwise fun a b => same b a = false) :
    (∀ t ∈ ts.foldl (fun kept t => if kept.any (same t) then kept else kept ++ [t]) kept, P t) ∧
      (ts.foldl (fun kept t => if kept.any (same t) then kept else kept ++ [t]) kept).Pairwise
        (fun a b => same b a = false) ∧
      kept <+: ts.foldl (fun kept t => if kept.any (same t) then kept else kept ++ [t]) kept := by
  induction ts generalizing kept with
  | nil => exact ⟨hk, hd, List.prefix_rfl⟩
  | cons t ts ih =>
    have hts' : ∀ t ∈ ts, P t := fun u hu => hts u (by simp [hu])
    rw [List.foldl_cons]
    cases hnew : kept.any (same t) with
    | true => exact ih _ hts' hk hd
    | false =>
      have hk' : ∀ u ∈ kept ++ [t], P u := by
        intro u hu
        obtain hu | hu := List.mem_append.mp hu
        · exact hk u hu
        · obtain rfl := List.mem_singleton.mp hu
          exact hts u (by simp)
      have hd' : (kept ++ [t]).Pairwise fun a b => same b a = false := by
        refine List.pairwise_append.mpr ⟨hd, List.pairwise_singleton .., fun a ha b hb => ?_⟩
        obtain rfl := List.mem_singleton.mp hb
        simpa using List.any_eq_false.mp hnew a ha
      obtain ⟨h₁, h₂, h₃⟩ := ih _ hts' hk' hd'
      exact ⟨h₁, h₂, (List.prefix_append ..).trans h₃⟩

theorem of_mem_dedup {P : Ty → Prop} {ts : List Ty} (hts : ∀ t ∈ ts, P t) : ∀ t ∈ dedup ts, P t :=
  (foldl_dedup [] ts hts (by simp) .nil).1

theorem dedup_distinct (ts : List Ty) : (dedup ts).Pairwise fun a b => same b a = false :=
  (foldl_dedup (P := fun _ => True) [] ts (by simp) (by simp) .nil).2.1

theorem dedup_ne_nil {ts : List Ty} (h : ts ≠ []) : dedup ts ≠ [] := by
  cases ts with
  | nil => exact absurd rfl h
  | cons t ts =>
    have := (foldl_dedup (P := fun _ => True) [t] ts (by simp) (by simp)
      (List.pairwise_singleton ..)).2.2
    intro he
    simp only [dedup, List.foldl_cons, List.any_nil, Bool.false_eq_true, if_false, List.nil_append] at he
    rw [he] at this
    simpa using this.length_le

theorem any_same_foldl_dedup (a : Ty) (kept ts : List Ty) :
    (ts.foldl (fun kept t => if kept.any (same t) then kept else kept ++ [t]) kept).any (same a) =
      (kept ++ ts).any (same a) := by
  induction ts generalizing kept with
  | nil => simp
  | cons t ts ih =>
    rw [List.foldl_cons, ih]
    split
    · next h =>
      -- what is dropped is the same as something that was kept
      obtain ⟨k, hk, hsame⟩ := List.any_eq_true.mp h
      have habsorbed : same a t = true → kept.any (same a) = true := fun ha =>
        List.any_eq_true.mpr ⟨k, hk, same_trans ha hsame⟩
      cases ha : same a t with
      | false => simp [ha]
      | true => simp [habsorbed ha]
    · simp

theorem any_same_dedup (a : Ty) (ts : List Ty) : (dedup ts).any (same a) = ts.any (same a) :=
  any_same_foldl_dedup a [] ts

theorem same_congr {a a' b b' : Ty} (ha : equivalent a a' = true) (hb : equivalent b b' = true) :
    same a b = same a' b' := by
  have ha := same_of_equivalent ha
  have hb := same_of_equivalent hb
  rw [Bool.eq_iff_iff]
  exact ⟨fun h => same_trans (same_symm ha) (same_trans h hb),
    fun h => same_trans ha (same_trans h (same_symm hb))⟩

theorem dedup_congr {ts ts' : List Ty} (h : EquivalentAll ts ts') : EquivalentAll (dedup ts) (dedup ts') := by
  have hfold {kept kept' : List Ty} (hk : EquivalentAll kept kept') :
      EquivalentAll (ts.foldl (fun kept t => if kept.any (same t) then kept else kept ++ [t]) kept)
        (ts'.foldl (fun kept t => if kept.any (same t) then kept else kept ++ [t]) kept') := by
    induction h generalizing kept kept' with
    | nil => exact hk
    | @cons t t' _ _ ht _ ih =>
      rw [List.foldl_cons, List.foldl_cons, any_congr hk fun u _ u' hu => same_congr ht hu]
      split
      · exact ih hk
      · exact ih (List.rel_append hk (.cons ht .nil))
  exact hfold .nil

/-! ## The normal form -/

theorem isUnionForm_congr {t t' : Ty} (h : equivalent t t' = true) : t.isUnionForm = t'.isUnionForm := by
  have hunion {t : Ty} : t.isUnionForm = equivalent .union t := by
    rw [equivalent_leaf rfl]
    cases t <;> simp [isUnionForm, same]
  rw [hunion, hunion, equivalent_congr (equivalent_refl _) h]

theorem Flat.ne_nil {ms : List Ty} (h : Flat ms) : ms ≠ [] := by
  have := h.several
  rintro rfl
  simp at this

/-- The arguments of a formed type are formed, and there are some if its origin is a form. -/
theorem Formed.arguments {t : Ty} (h : Formed t) : ∀ a ∈ t.arguments, Formed a := by
  cases h with
  | generic _ has => exact has
  | kept _ hms => exact hms
  | members ht _ hms => rw [(members?_origin ht).2]; exact hms
  | _ => simp [Ty.arguments]

theorem Formed.isForm {t o : Ty} (h : Formed t) (ho : t.origin? = some o) :
    IsForm o ∧ t.arguments ≠ [] := by
  cases h with
  | generic hne _ => cases ho; exact ⟨.inr ⟨_, rfl⟩, hne⟩
  | kept hu _ =>
    cases ho
    exact ⟨.inl rfl, by simp only [Ty.arguments]; rintro rfl; simp at hu⟩
  | members ht hf _ =>
    obtain ⟨h₁, h₂⟩ := members?_origin ht
    rw [h₁] at ho
    cases ho
    exact ⟨.inl rfl, h₂ ▸ hf.ne_nil⟩
  | _ => simp [origin?] at ho

/-- Is it a union that a larger one takes apart? It is unless the bare form is a member. -/
def isOpened (t : Ty) : Bool :=
  t.origin?.any isUnionForm && !t.arguments.any isUnionForm

theorem Formed.unionMembers_eq {t : Ty} (h : Formed t) :
    Ty.unionMembers t = if t.isOpened then t.arguments else [t] := by
  cases h with
  | kept hk _ => simp [Ty.unionMembers, isOpened, origin?, Ty.arguments, hk]
  | members ht hf _ =>
    have := hf.noForm
    obtain rfl | rfl := members?_eq_some.mp ht <;>
      simp [Ty.unionMembers, isOpened, origin?, Ty.arguments, this, isUnionForm]
  | _ => simp [Ty.unionMembers, isOpened, origin?, isUnionForm]

theorem isOpened_congr {t t' : Ty} (h : equivalent t t' = true) : t.isOpened = t'.isOpened := by
  have hunion {t : Ty} : t.origin?.any isUnionForm = true ↔ t.origin? = some .union := by
    cases t.origin? <;> simp [isUnionForm_iff]
  rw [isOpened, isOpened,
    any_congr (arguments_congr h) (q := isUnionForm) fun a _ b hab => isUnionForm_congr hab]
  congr 1
  rw [Bool.eq_iff_iff, hunion, hunion, isUnion_congr h]

theorem Formed.unionMembers {t : Ty} (h : Formed t) (hu : t ≠ .union) :
    unionMembers t ≠ [] ∧ ∀ m ∈ unionMembers t, Formed m ∧ m ≠ .union ∧ Ty.unionMembers m = [m] := by
  have hm := h.unionMembers_eq
  split at hm
  · next ho =>
    cases h with
    | kept hk _ => simp [isOpened, Ty.arguments, hk] at ho
    | members ht hf hms =>
      rw [hm, (members?_origin ht).2]
      refine ⟨hf.ne_nil, fun m hmem => ⟨hms m hmem, ?_, hf.single m hmem⟩⟩
      rintro rfl
      simpa [isUnionForm] using List.any_eq_false.mp hf.noForm _ hmem
    | _ => simp [isOpened, origin?, isUnionForm] at ho
  · rw [hm]
    refine ⟨by simp, fun m hmem => ?_⟩
    obtain rfl := List.mem_singleton.mp hmem
    exact ⟨h, hu, hm⟩

theorem flat_or_single {ms : List Ty} (hne : ms ≠ [])
    (h : ∀ m ∈ ms, Formed m ∧ m ≠ .union ∧ unionMembers m = [m]) :
    (∃ t, dedup ms = [t] ∧ Formed t) ∨ (Flat (dedup ms) ∧ ∀ m ∈ dedup ms, Formed m) := by
  have hd := of_mem_dedup h
  have hne := dedup_ne_nil hne
  have hdis := dedup_distinct ms
  match hm : dedup ms with
  | [] => exact absurd hm hne
  | [t] => exact .inl ⟨t, rfl, (hd t (by simp [hm])).1⟩
  | a :: b :: rest =>
    rw [hm] at hd hdis
    refine .inr ⟨⟨by simp, ?_, fun m hm => (hd m hm).2.2, hdis⟩, fun m hm => (hd m hm).1⟩
    rw [List.any_eq_false]
    intro m hm
    rw [isUnionForm_iff]
    exact (hd m hm).2.1

theorem Formed.unionOf {ts : List Ty} (hne : ts ≠ []) (h : ∀ t ∈ ts, Formed t) : Formed (unionOf ts) := by
  unfold Ty.unionOf
  split
  · next hu => exact .kept hu h
  · next hu =>
    have hmem : ∀ t ∈ ts, t ≠ .union := by
      rintro _ ht rfl
      exact hu (List.any_eq_true.mpr ⟨_, ht, rfl⟩)
    have hall : ∀ m ∈ ts.flatMap Ty.unionMembers, Formed m ∧ m ≠ .union ∧ Ty.unionMembers m = [m] := by
      intro m hm
      obtain ⟨t, ht, hm⟩ := List.mem_flatMap.mp hm
      exact ((h t ht).unionMembers (hmem t ht)).2 m hm
    have hsome : ts.flatMap Ty.unionMembers ≠ [] := by
      obtain ⟨t, ht⟩ := List.exists_mem_of_ne_nil _ hne
      obtain ⟨m, hm⟩ := List.exists_mem_of_ne_nil _ ((h t ht).unionMembers (hmem t ht)).1
      exact List.ne_nil_of_mem (List.mem_flatMap.mpr ⟨t, ht, hm⟩)
    obtain ⟨t, he, ht⟩ | ⟨hf, hms⟩ := flat_or_single hsome hall
    · rw [he]; exact ht
    · split
      · next t he => exact hms t (by simp [he])
      · exact .members rfl hf hms

theorem Formed.close {o : Ty} {as : List Ty} (ho : IsForm o) (has : ∀ a ∈ as, Formed a) :
    Formed (close o as) := by
  cases as with
  | nil =>
    obtain rfl | ⟨c, rfl⟩ := ho
    · exact .union
    · exact .cls c
  | cons a as =>
    obtain rfl | ⟨c, rfl⟩ := ho
    · exact .unionOf (by simp) has
    · exact .generic (by simp) has

theorem Formed.barOf {a b : Ty} (ha : Formed a) (hb : Formed b) (hna : a ≠ .union) (hnb : b ≠ .union) :
    Formed (barOf a b) := by
  have hall : ∀ m ∈ Ty.unionMembers a ++ Ty.unionMembers b,
      Formed m ∧ m ≠ .union ∧ Ty.unionMembers m = [m] := by
    intro m hm
    obtain hm | hm := List.mem_append.mp hm
    · exact (ha.unionMembers hna).2 m hm
    · exact (hb.unionMembers hnb).2 m hm
  unfold Ty.barOf
  obtain ⟨t, he, ht⟩ | ⟨hf, hms⟩ := flat_or_single (by simp [(ha.unionMembers hna).1]) hall
  · rw [he]; exact ht
  · split
    · next t he => exact hms t (by simp [he])
    · exact .members rfl hf hms

theorem Built.formed {t : Ty} (h : Built t) : Formed t := by
  induction h with
  | cls c => exact .cls c
  | union => exact .union
  | parameter p n => exact .parameter p n
  | close ho _ ih => exact .close ho ih
  | bar _ _ hna hnb iha ihb => exact .barOf iha ihb hna hnb

/-! ## Tidy types -/

/-- Is the bare union form no member of a union with bars, here or inside? The other spelling keeps such a
union whole, so only without these does a larger union treat both spellings alike. -/
inductive Tidy : Ty → Prop where
  | intro {t : Ty} (bars : ∀ ms, t = .bar ms → ms.any isUnionForm = false) (arguments : ∀ a ∈ t.arguments, Tidy a) :
      Tidy t

namespace Tidy

variable {t : Ty}

theorem bars (h : Tidy t) : ∀ ms, t = .bar ms → ms.any isUnionForm = false := by
  cases h with | intro hbars _ => exact hbars

theorem arguments (h : Tidy t) : ∀ a ∈ t.arguments, Tidy a := by
  cases h with | intro _ harguments => exact harguments

theorem leaf (ht : t.origin? = none) : Tidy t :=
  .intro (by rintro ms rfl; cases ht) (by cases t <;> simp_all [origin?, Ty.arguments])

theorem generic {o : Ty} {as : List Ty} (has : ∀ a ∈ as, Tidy a) : Tidy (.generic o as) :=
  .intro (by rintro ms ⟨⟩) has

theorem unionMembers (h : Tidy t) : ∀ m ∈ unionMembers t, Tidy m := by
  intro m hm
  unfold Ty.unionMembers at hm
  split at hm
  · split at hm
    · obtain rfl := List.mem_singleton.mp hm
      exact h
    · exact h.arguments m hm
  · exact h.arguments m hm
  · obtain rfl := List.mem_singleton.mp hm
    exact .leaf rfl
  · obtain rfl := List.mem_singleton.mp hm
    exact h

/-- A form over tidy arguments makes a tidy type. -/
theorem close {o : Ty} {as : List Ty} (hne : as ≠ []) (has : ∀ a ∈ as, Tidy a) : Tidy (Ty.close o as) := by
  have hmembers : ∀ m ∈ dedup (as.flatMap Ty.unionMembers), Tidy m := by
    refine of_mem_dedup fun m hm => ?_
    obtain ⟨a, ha, hm⟩ := List.mem_flatMap.mp hm
    exact (has a ha).unionMembers m hm
  unfold Ty.close
  split
  · exact absurd rfl hne
  · unfold unionOf
    split
    · exact .generic has
    · split
      · next m hm => exact hmembers m (by simp [hm])
      · exact .generic hmembers
  · exact .generic has

theorem unionMembers_eq {o : Ty} (h : Tidy t) (ho : t.origin? = some o) :
    Ty.unionMembers t = if t.isOpened then t.arguments else [t] := by
  cases t with
  | generic p as =>
    by_cases hu : p = .union
    · subst hu
      cases hk : as.any isUnionForm <;> simp [Ty.unionMembers, isOpened, origin?, Ty.arguments, hk, isUnionForm]
    · have hform : p.isUnionForm = false := by rw [← Bool.not_eq_true, isUnionForm_iff]; exact hu
      simp [Ty.unionMembers, isOpened, origin?, hform, hu]
  | bar ms => simp [Ty.unionMembers, isOpened, origin?, Ty.arguments, h.bars ms rfl, isUnionForm]
  | _ => cases ho

end Tidy

theorem Formed.tidy {t : Ty} (h : Formed t) : Tidy t := by
  induction h with
  | generic _ _ ih => exact .generic ih
  | kept _ _ ih => exact .generic ih
  | members ht hf _ ih =>
    obtain rfl | rfl := members?_eq_some.mp ht
    · exact .generic ih
    · exact .intro (by rintro ms ⟨⟩; exact hf.noForm) ih
  | _ => exact .leaf rfl

/-! ## Building from equivalent parts -/

theorem Tidy.unionMembers_congr {t t' : Ty} (h : Tidy t) (h' : Tidy t') (he : equivalent t t' = true) :
    EquivalentAll (Ty.unionMembers t) (Ty.unionMembers t') := by
  cases ho : t.origin? with
  | none =>
    have hleaf := he
    rw [equivalent_leaf ho] at hleaf
    obtain rfl | ⟨p, n, m, rfl, rfl⟩ := same_leaf_left ho hleaf
    · exact List.forall₂_same.mpr fun m _ => equivalent_refl m
    · exact .cons he .nil
  | some o =>
    obtain ⟨p, ho', -, hargs⟩ := origin?_of_equivalent he ho
    rw [h.unionMembers_eq ho, h'.unionMembers_eq ho', isOpened_congr he]
    split
    · exact hargs
    · exact .cons he .nil

theorem Formed.several {t : Ty} (h : Formed t) (ho : t.isOpened = true) : 2 ≤ t.arguments.length := by
  cases h with
  | kept hk _ => simp [isOpened, Ty.arguments, hk] at ho
  | members ht hf _ => exact (members?_origin ht).2 ▸ hf.several
  | _ => simp [isOpened, origin?, isUnionForm] at ho

theorem distinct_congr {as bs : List Ty} (h : EquivalentAll as bs) (hbs : bs.Pairwise fun a b => same b a = false) :
    as.Pairwise fun a b => same b a = false := by
  induction h with
  | nil => exact .nil
  | @cons a b as bs hab hrest ih =>
    obtain ⟨hb, hbs⟩ := List.pairwise_cons.mp hbs
    refine List.pairwise_cons.mpr ⟨fun a' ha' => ?_, ih hbs⟩
    obtain ⟨b', hb', hab'⟩ := forall₂_mem hrest ha'
    rw [same_congr hab' hab]
    exact hb b' hb'

theorem Flat.congr {ms ms' : List Ty} (h : EquivalentAll ms ms') (hms : ∀ m ∈ ms, Formed m) (hms' : ∀ m ∈ ms', Formed m)
    (hf : Flat ms') : Flat ms := by
  refine ⟨h.length_eq ▸ hf.several, ?_, fun m hm => ?_, distinct_congr h hf.distinct⟩
  · rw [any_congr h (q := isUnionForm) fun a _ b hab => isUnionForm_congr hab]
    exact hf.noForm
  · obtain ⟨m', hm', hmm'⟩ := forall₂_mem h hm
    have hlength := ((hms m hm).tidy.unionMembers_congr (hms' m' hm').tidy hmm').length_eq
    rw [hf.single m' hm'] at hlength
    rw [(hms m hm).unionMembers_eq] at hlength ⊢
    split
    · next ho =>
      have := (hms m hm).several ho
      rw [if_pos ho, List.length_singleton] at hlength
      omega
    · rfl

/-- What is tidy and equivalent to a formed type is formed. -/
theorem Tidy.formed {t t' : Ty} (h : Tidy t) (h' : Formed t') (he : equivalent t t' = true) : Formed t := by
  induction t using induct_arguments generalizing t' with
  | step t ih =>
    cases ho : t.origin? with
    | none =>
      rw [equivalent_leaf ho] at he
      obtain rfl | ⟨p, n, m, rfl, rfl⟩ := same_leaf_left ho he
      · exact h'
      · exact .parameter p n
    | some o =>
      obtain ⟨p, ho', hop, hargs⟩ := origin?_of_equivalent he ho
      obtain ⟨hform, hne⟩ := h'.isForm ho'
      have hall : ∀ a ∈ t.arguments, Formed a := fun a ha =>
        have ⟨b, hb, hab⟩ := forall₂_mem hargs ha
        ih a ha (h.arguments a ha) (h'.arguments b hb) hab
      obtain rfl | ⟨c, rfl⟩ := hform
      · obtain rfl : o = .union := by cases o <;> simp_all [same]
        have hmembers := members?_of_origin ho
        cases hany : t.arguments.any isUnionForm with
        | true =>
          -- a tidy union written with bars has no bare union form among its members
          obtain hgeneric | hbar := members?_eq_some.mp hmembers
          · rw [hgeneric]
            exact .kept hany hall
          · rw [h.bars _ hbar] at hany
            cases hany
        | false =>
          refine .members hmembers ?_ hall
          have hany' := any_congr hargs (q := isUnionForm) fun a _ b hab => isUnionForm_congr hab
          cases h' with
          | kept hu _ => exact absurd (hany.symm.trans (hany'.trans hu)) (by simp)
          | members ht hf hms =>
            obtain ⟨-, rfl⟩ := members?_origin ht
            exact hf.congr hargs hall hms
          | _ => cases ho'
      · obtain rfl : o = .cls c := by cases o <;> simp_all [same]
        rw [eq_generic_of_origin ho (by simp)]
        exact .generic (fun hnil => hne (List.forall₂_nil_left_iff.mp (hnil ▸ hargs))) hall

theorem flatMap_unionMembers_congr {ts ts' : List Ty} (h : EquivalentAll ts ts') (hts : ∀ t ∈ ts, Tidy t)
    (hts' : ∀ t ∈ ts', Tidy t) :
    EquivalentAll (ts.flatMap Ty.unionMembers) (ts'.flatMap Ty.unionMembers) := by
  induction h with
  | nil => exact .nil
  | @cons t t' ts ts' he _ ih =>
    rw [List.flatMap_cons, List.flatMap_cons]
    exact List.rel_append ((hts t (by simp)).unionMembers_congr (hts' t' (by simp)) he)
      (ih (fun u hu => hts u (by simp [hu])) fun u hu => hts' u (by simp [hu]))

/-- Two unions in order member by member. -/
theorem equivalent_unions {t t' : Ty} {ms ms' : List Ty} (ht : t.members? = some ms)
    (ht' : t'.members? = some ms') (h : EquivalentAll ms ms') : equivalent t t' = true := by
  obtain ⟨ho, rfl⟩ := members?_origin ht
  obtain ⟨ho', rfl⟩ := members?_origin ht'
  exact (equivalent_applied ho t').mpr ⟨_, ho', same_refl _, h⟩

theorem unionOf_congr {ts ts' : List Ty} (h : EquivalentAll ts ts') (hts : ∀ t ∈ ts, Tidy t)
    (hts' : ∀ t ∈ ts', Tidy t) : equivalent (unionOf ts) (unionOf ts') = true := by
  unfold Ty.unionOf
  rw [any_congr h (q := isUnionForm) fun a _ b hab => isUnionForm_congr hab]
  split
  · exact equivalent_unions rfl rfl h
  · have hd := dedup_congr (flatMap_unionMembers_congr h hts hts')
    generalize dedup (ts.flatMap Ty.unionMembers) = ms at hd
    generalize dedup (ts'.flatMap Ty.unionMembers) = ms' at hd
    match ms, ms', hd with
    | [], [], _ => exact equivalent_refl _
    | [t], [t'], .cons ht _ => exact ht
    | _ :: _ :: _, _ :: _ :: _, hd => exact equivalent_unions rfl rfl hd

/-- Forms applied to equivalent arguments are equivalent. -/
theorem close_congr {o p : Ty} {as as' : List Ty} (ho : same o p = true) (hne : as ≠ []) (h : EquivalentAll as as')
    (has : ∀ a ∈ as, Tidy a) (has' : ∀ a ∈ as', Tidy a) : equivalent (close o as) (close p as') = true := by
  cases h with
  | nil => exact absurd rfl hne
  | @cons a b as as' hab h =>
    by_cases hu : o = .union
    · subst hu
      obtain rfl : p = .union := by cases p <;> simp_all [same]
      exact unionOf_congr (.cons hab h) has has'
    · have hp : p ≠ .union := by
        rintro rfl
        exact hu (by cases o <;> simp_all [same])
      have hgeneric {q : Ty} (hq : q ≠ .union) (x : Ty) (xs : List Ty) : close q (x :: xs) = .generic q (x :: xs) := by
        cases q <;> first | rfl | exact absurd rfl hq
      rw [hgeneric hu, hgeneric hp]
      exact (equivalent_applied rfl _).mpr ⟨_, rfl, ho, .cons hab h⟩

/-- The members of a flat union are all that applying the union form to them yields. -/
theorem unionOf_flat {ms : List Ty} (h : Flat ms) : unionOf ms = .generic .union ms := by
  have hflat : ms.flatMap Ty.unionMembers = ms := by
    rw [List.flatMap_congr h.single]
    simp
  have := h.several
  unfold Ty.unionOf
  rw [h.noForm, hflat, dedup_of_distinct h.distinct]
  match ms, this with
  | _ :: _ :: _, _ => rfl

/-- Closing the origin of a formed type over its own arguments gives the type back, up to the
spelling of a union. -/
theorem Formed.close_arguments {t o : Ty} (h : Formed t) (ho : t.origin? = some o) :
    equivalent t (Ty.close o t.arguments) = true := by
  cases h with
  | @generic c as hne _ =>
    cases ho
    cases as with
    | nil => exact absurd rfl hne
    | cons => exact equivalent_refl _
  | @kept ms hk _ =>
    cases ho
    cases ms with
    | nil => simp at hk
    | cons => simp [Ty.close, Ty.arguments, Ty.unionOf, hk]
  | @members _ ms ht hf _ =>
    obtain ⟨h₁, rfl⟩ := members?_origin ht
    rw [h₁] at ho
    cases ho
    have hclose : Ty.close .union t.arguments = .generic .union t.arguments := by
      rw [← unionOf_flat hf]
      generalize hm : t.arguments = ms at hf
      cases ms with
      | nil => exact absurd rfl hf.ne_nil
      | cons => rfl
    rw [hclose]
    exact equivalent_unions ht rfl (List.forall₂_same.mpr fun m _ => equivalent_refl m)
  | _ => simp [origin?] at ho

/-- Rebuilding a formed type from equivalent arguments. -/
theorem Formed.rebuild {t o : Ty} {as : List Ty} (h : Formed t) (ho : t.origin? = some o)
    (hs : EquivalentAll t.arguments as) (has : ∀ a ∈ as, Formed a) :
    equivalent t (Ty.close o as) = true ∧ Formed (Ty.close o as) :=
  have ⟨hform, hne⟩ := h.isForm ho
  ⟨equivalent_trans (h.close_arguments ho) (close_congr (same_refl o) hne hs (fun a ha => (h.arguments a ha).tidy)
    fun a ha => (has a ha).tidy), .close hform has⟩

end ExprTree.Ty
