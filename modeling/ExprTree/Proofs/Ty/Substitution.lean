import ExprTree.Proofs.Ty.Building

/-!
# Substitution

Rebuilding a type around replaced parts: which open parameters are left
afterwards, that formed types stay formed and all types become tidy, and that
equivalent arguments in equivalent types give equivalent results.
-/

namespace ExprTree.Ty

/-! ## Rebuilding -/

theorem mapAll_eq (f : Ty → Option Ty) (ts : List Ty) : mapAll f ts = ts.map (map f) := by
  induction ts with
  | nil => rfl
  | cons t ts ih => simp [mapAll, ih]

theorem map_replaced {f : Ty → Option Ty} {t u : Ty} (h : f t = some u) : t.map f = u := by
  cases t <;> simp [map, h]

theorem map_leaf {f : Ty → Option Ty} {t : Ty} (h : f t = none) (ht : t.origin? = none) : t.map f = t := by
  cases t <;> simp_all [map, origin?]

theorem map_applied {f : Ty → Option Ty} {t o : Ty} (h : f t = none) (ht : t.origin? = some o) :
    t.map f = if t.arguments.isEmpty then t else close o (t.arguments.map (map f)) := by
  cases t <;> simp_all [map, origin?, arguments, mapAll_eq]

/-- Rebuilding tidies up what it does not replace. -/
theorem Tidy.map {f : Ty → Option Ty} (hf : ∀ s u, f s = some u → Tidy u) (t : Ty) : Tidy (t.map f) := by
  induction t using induct_arguments with
  | step t ih =>
    cases h : f t with
    | some u =>
      rw [map_replaced h]
      exact hf t u h
    | none =>
      cases ho : t.origin? with
      | none =>
        rw [map_leaf h ho]
        exact .leaf ho
      | some o =>
        rw [map_applied h ho]
        split
        · next hempty =>
          have hnone : t.arguments = [] := List.isEmpty_iff.mp hempty
          exact .intro (by rintro ms rfl; rw [show ms = [] from hnone]; rfl) (by simp [hnone])
        · next hne =>
          refine .close (by simpa using hne) fun a ha => ?_
          obtain ⟨a, hmem, rfl⟩ := List.mem_map.mp ha
          exact ih a hmem

/-! ## Open parameters that are left -/

theorem positionsAll_eq (ts : List Ty) : positionsAll ts = ts.flatMap positions := by
  induction ts with
  | nil => rfl
  | cons t ts ih => simp [positionsAll, ih]

theorem positions_applied {t o : Ty} (ht : t.origin? = some o) :
    t.positions = t.arguments.flatMap positions := by
  cases t <;> simp_all [origin?, positions, arguments, positionsAll_eq]

theorem mem_positions_of_argument {t a : Ty} {p : Nat} (ha : a ∈ t.arguments) (hp : p ∈ a.positions) :
    p ∈ t.positions := by
  cases ho : t.origin? with
  | none => cases t <;> simp_all [origin?, arguments]
  | some o =>
    rw [positions_applied ho]
    exact List.mem_flatMap.mpr ⟨a, ha, hp⟩

theorem mem_positions_of_unionMembers {t m : Ty} {p : Nat} (hm : m ∈ unionMembers t) (hp : p ∈ m.positions) :
    p ∈ t.positions := by
  unfold unionMembers at hm
  split at hm
  · split at hm
    · simp_all
    · exact mem_positions_of_argument hm hp
  · exact mem_positions_of_argument hm hp
  · simp_all [nothing, positions]
  · simp_all

/-- A form applied to arguments has no open parameters but theirs. -/
theorem mem_positions_of_close {o : Ty} {as : List Ty} {p : Nat} (hne : as ≠ [])
    (hp : p ∈ (close o as).positions) : ∃ a ∈ as, p ∈ a.positions := by
  have hall : ∀ m ∈ as.flatMap unionMembers, p ∈ m.positions → ∃ a ∈ as, p ∈ a.positions := by
    intro m hm hp
    obtain ⟨a, ha, hm⟩ := List.mem_flatMap.mp hm
    exact ⟨a, ha, mem_positions_of_unionMembers hm hp⟩
  have hgeneric {o : Ty} {as : List Ty} (hp : p ∈ (Ty.generic o as).positions) : ∃ a ∈ as, p ∈ a.positions := by
    rw [positions_applied rfl] at hp
    exact List.mem_flatMap.mp hp
  unfold close at hp
  split at hp
  · exact absurd rfl hne
  · unfold unionOf at hp
    split at hp
    · exact hgeneric hp
    · have hd := of_mem_dedup hall
      split at hp
      · next t he => exact hd t (by simp [he]) hp
      · obtain ⟨m, hm, hp⟩ := hgeneric hp
        exact hd m hm hp
  · exact hgeneric hp

/-- What is open after rebuilding was put in, or was open before and not replaced. -/
theorem mem_positions_map {f : Ty → Option Ty} {t : Ty} {p : Nat} (hp : p ∈ (t.map f).positions) :
    (∃ s u, f s = some u ∧ p ∈ u.positions) ∨ (p ∈ t.positions ∧ ∃ n, f (.parameter p n) = none) := by
  induction t using induct_arguments with
  | step t ih =>
    cases hf : f t with
    | some u => rw [map_replaced hf] at hp; exact .inl ⟨t, u, hf, hp⟩
    | none =>
      cases ho : t.origin? with
      | none =>
        rw [map_leaf hf ho] at hp
        cases t <;> simp_all [positions, origin?]
        exact .inr ⟨_, hf⟩
      | some o =>
        rw [map_applied hf ho] at hp
        split at hp
        · next he => simp [positions_applied ho, List.isEmpty_iff.mp he] at hp
        · next he =>
          obtain ⟨u, hu, hp⟩ := mem_positions_of_close (by simpa using he) hp
          obtain ⟨a, ha, rfl⟩ := List.mem_map.mp hu
          obtain h | ⟨h, hn⟩ := ih a ha hp
          · exact .inl h
          · exact .inr ⟨mem_positions_of_argument ha h, hn⟩

/-! ## Substitution -/

theorem substitute_parameter (as : List Ty) (p : Nat) (n : String) :
    substitute as (.parameter p n) = (as[p]?.filter (!isNull ·)).getD (.parameter p n) := by
  rw [substitute, map]

theorem substitute_leaf {as : List Ty} {t : Ty} (ht : t.origin? = none) (hp : t.isParameter = false) :
    substitute as t = t :=
  map_leaf (by cases t <;> simp_all [isParameter]) ht

theorem substitute_applied {as : List Ty} {t o : Ty} (ht : t.origin? = some o) (hne : t.arguments ≠ []) :
    substitute as t = close o (t.arguments.map (substitute as)) := by
  rw [substitute, map_applied (by cases t <;> simp_all [origin?]) ht, if_neg (by simpa using hne)]
  rfl

/-- A form without arguments stays as it is. -/
theorem substitute_empty {as : List Ty} {t o : Ty} (ht : t.origin? = some o) (hempty : t.arguments = []) :
    substitute as t = t := by
  rw [substitute, map_applied (by cases t <;> simp_all [origin?]) ht, if_pos (by simp [hempty])]

theorem isNull_congr {t t' : Ty} (h : equivalent t t' = true) : t.isNull = t'.isNull := by
  cases ho : t.origin? with
  | none =>
    rw [equivalent_leaf ho] at h
    obtain rfl | ⟨p, n, m, rfl, rfl⟩ := same_leaf_left ho h
    · rfl
    · rfl
  | some o =>
    obtain ⟨p, ho', -⟩ := origin?_of_equivalent h ho
    cases t <;> cases t' <;> simp_all [origin?, isNull]

/-- What is put for a parameter is an argument, and not the null value. -/
theorem filter_getElem?_eq_some {as : List Ty} {p : Nat} {a : Ty} (h : as[p]?.filter (!isNull ·) = some a) :
    a ∈ as ∧ a.isNull = false := by
  obtain ⟨hmem, hnull⟩ := Option.filter_eq_some_iff.mp h
  exact ⟨List.mem_of_getElem? hmem, by simpa using hnull⟩

theorem isOpen_eq_false_iff {t : Ty} : t.isOpen = false ↔ t.positions = [] := by
  simp [isOpen]

theorem positions_congr {t t' : Ty} (h : equivalent t t' = true) : t.positions = t'.positions := by
  induction t using induct_arguments generalizing t' with
  | step t ih =>
    cases ho : t.origin? with
    | none =>
      rw [equivalent_leaf ho] at h
      obtain rfl | ⟨p, n, m, rfl, rfl⟩ := same_leaf_left ho h
      · rfl
      · rfl
    | some o =>
      obtain ⟨p, ho', -, hargs⟩ := origin?_of_equivalent h ho
      rw [positions_applied ho, positions_applied ho']
      have hall : List.Forall₂ (fun a b => a.positions = b.positions) t.arguments t'.arguments :=
        forall₂_imp_of_mem hargs fun a ha b _ hab => ih a ha hab
      generalize t.arguments = as at hall
      generalize t'.arguments = bs at hall
      induction hall with
      | nil => rfl
      | cons hab _ ih => rw [List.flatMap_cons, List.flatMap_cons, hab, ih]

theorem isOpen_congr {t t' : Ty} (h : equivalent t t' = true) : t.isOpen = t'.isOpen := by
  rw [isOpen, isOpen, positions_congr h]

theorem isNull_iff {t : Ty} : t.isNull = true ↔ t = .literal .none := by
  unfold isNull
  split <;> simp_all

/-- With a closed argument for every open parameter, one that is left had the null value for its argument. -/
theorem null_of_mem_positions_substitute {as : List Ty} {t : Ty} {p : Nat} (ht : ∀ q ∈ t.positions, q < as.length)
    (has : ∀ a ∈ as, a.isOpen = false) (hp : p ∈ (t.substitute as).positions) :
    p ∈ t.positions ∧ as[p]? = some (.literal .none) := by
  obtain ⟨s, u, hs, hu⟩ | ⟨hp, n, hn⟩ := mem_positions_map hp
  · split at hs
    · have hclosed := isOpen_eq_false_iff.mp (has u (filter_getElem?_eq_some hs).1)
      simp [hclosed] at hu
    · cases hs
  · have hlt := ht p hp
    have hnull : as[p].isNull = true := by simpa [hlt] using hn
    exact ⟨hp, (List.getElem?_eq_getElem hlt).trans (congrArg some (isNull_iff.mp hnull))⟩

/-- With a closed argument for every open parameter the result is closed. -/
theorem isOpen_substitute {as : List Ty} {t : Ty} (ht : ∀ p ∈ t.positions, p < as.length)
    (has : ∀ a ∈ as, a.isOpen = false) (hnull : ∀ a ∈ as, a.isNull = false) : (t.substitute as).isOpen = false := by
  rw [isOpen_eq_false_iff, List.eq_nil_iff_forall_not_mem]
  intro p hp
  obtain ⟨-, hp⟩ := null_of_mem_positions_substitute ht has hp
  cases hnull _ (List.mem_of_getElem? hp)

theorem Formed.isNull_eq {t : Ty} (h : Formed t) : t.isNull = false := by
  cases h with
  | members ht => cases t <;> first | rfl | cases ht
  | _ => rfl

theorem Formed.substitute {as : List Ty} {t : Ty} (h : Formed t) (has : ∀ a ∈ as, Formed a) :
    Formed (t.substitute as) := by
  induction t using induct_arguments with
  | step t ih =>
    cases ho : t.origin? with
    | none =>
      cases t with
      | parameter p n =>
        rw [substitute_parameter]
        cases hp : as[p]?.filter (!isNull ·) with
        | none => exact h
        | some a => exact has a (filter_getElem?_eq_some hp).1
      | _ => rw [substitute_leaf ho rfl]; exact h
    | some o =>
      obtain ⟨hform, hne⟩ := h.isForm ho
      rw [substitute_applied ho hne]
      refine .close hform fun a ha => ?_
      obtain ⟨a, hmem, rfl⟩ := List.mem_map.mp ha
      exact ih a hmem (h.arguments a hmem)

theorem Tidy.substitute {as : List Ty} (has : ∀ a ∈ as, Tidy a) (t : Ty) : Tidy (t.substitute as) := by
  refine .map (fun s u hs => ?_) t
  split at hs
  · exact has u (filter_getElem?_eq_some hs).1
  · cases hs

/-- An open parameter is replaced under either name, or under neither. -/
theorem substitute_parameter_congr {as bs : List Ty} (hs : EquivalentAll as bs) {p : Nat} {n m : String}
    (ht : equivalent (.parameter p n) (.parameter p m) = true) :
    equivalent ((Ty.parameter p n).substitute as) ((Ty.parameter p m).substitute bs) = true := by
  rw [substitute_parameter, substitute_parameter]
  have hlen := hs.length_eq
  by_cases hp : p < as.length
  · have hat : equivalent as[p] bs[p] = true := hs.get hp (hlen ▸ hp)
    rw [List.getElem?_eq_getElem hp, List.getElem?_eq_getElem (hlen ▸ hp), Option.filter_some,
      Option.filter_some, isNull_congr hat]
    split
    · exact hat
    · exact ht
  · rw [List.getElem?_eq_none (by omega), List.getElem?_eq_none (by omega)]
    exact ht

/-- Equivalent arguments in equivalent types give equivalent results. -/
theorem substitute_congr {as bs : List Ty} {t t' : Ty} (ht : equivalent t t' = true) (has : ∀ a ∈ as, Tidy a)
    (hbs : ∀ b ∈ bs, Tidy b) (hs : EquivalentAll as bs) : equivalent (t.substitute as) (t'.substitute bs) = true := by
  induction t using induct_arguments generalizing t' with
  | step t ih =>
    cases ho : t.origin? with
    | none =>
      have ho' := origin?_eq_none_of_equivalent ht ho
      have hpar := isParameter_congr ht
      cases hp : t.isParameter with
      | false => rwa [substitute_leaf ho hp, substitute_leaf ho' (hpar ▸ hp)]
      | true =>
        have hleaf := ht
        rw [equivalent_leaf ho] at hleaf
        obtain ⟨p, n, rfl⟩ : ∃ p n, t = .parameter p n := by cases t <;> simp_all [isParameter]
        obtain ⟨m, rfl⟩ : ∃ m, t' = .parameter p m := by cases t' <;> simp_all [same]
        exact substitute_parameter_congr hs ht
    | some o =>
      obtain ⟨p, ho', hop, hargs⟩ := origin?_of_equivalent ht ho
      by_cases hne : t.arguments = []
      · have hne' : t'.arguments = [] := List.forall₂_nil_left_iff.mp (hne ▸ hargs)
        rwa [substitute_empty ho hne, substitute_empty ho' hne']
      · have hne' : t'.arguments ≠ [] := fun hnil => hne (List.forall₂_nil_right_iff.mp (hnil ▸ hargs))
        rw [substitute_applied ho hne, substitute_applied ho' hne']
        refine close_congr hop (by simpa using hne) ?_ ?_ ?_
        · rw [EquivalentAll, List.forall₂_map_left_iff, List.forall₂_map_right_iff]
          exact forall₂_imp_of_mem hargs fun a ha b _ hab => ih a ha hab
        · intro a ha
          obtain ⟨a, -, rfl⟩ := List.mem_map.mp ha
          exact .substitute has a
        · intro a ha
          obtain ⟨a, -, rfl⟩ := List.mem_map.mp ha
          exact .substitute hbs a

end ExprTree.Ty
