import ExprTree.Proofs.Query.Visiting

/-!
# Grouping neither loses nor invents items

Items are put into the group of their key one by one, and every step keeps what
the groups are: one for each key, in order of appearance, with the items of that
key in their order. A dictionary of single items can be made just when no two
items are in one group, and what is left of items that are keys is the first of
each kind.
-/

namespace ExprTree.Query

open Action Run

variable {h k m : Heap} {s : Source} {v w g : Value} {vs ws done : List Value} {key : Value → Value}
  {groups : List (Value × List Value)}

/-! ## Keys -/

/-- Can these values be keys, as long as the heap only grows, and is their equality an equivalence that agrees with
being the same key? -/
structure AreKeys (h : Heap) (ws : List Value) : Prop where
  hashable : ∀ k, h.Extends k → ∀ w ∈ ws, k.isKey w = true
  consistent : ∀ k, h.Extends k → ∀ v ∈ ws, ∀ w ∈ ws, k.equal v w = .ok (v.sameKey w)
  refl : ∀ v ∈ ws, v.sameKey v = true
  symm : ∀ v ∈ ws, ∀ w ∈ ws, v.sameKey w = true → w.sameKey v = true
  trans : ∀ u ∈ ws, ∀ v ∈ ws, ∀ w ∈ ws, u.sameKey v = true → v.sameKey w = true → u.sameKey w = true

namespace AreKeys

theorem mono (hws : AreKeys h ws) (hk : h.Extends k) (hsub : vs ⊆ ws) : AreKeys k vs where
  hashable m hm w hw := hws.hashable m (hk.trans hm) w (hsub hw)
  consistent m hm v hv w hw := hws.consistent m (hk.trans hm) v (hsub hv) w (hsub hw)
  refl v hv := hws.refl v (hsub hv)
  symm v hv w hw := hws.symm v (hsub hv) w (hsub hw)
  trans u hu v hv w hw := hws.trans u (hsub hu) v (hsub hv) w (hsub hw)

theorem of_right (hws : AreKeys h ws) {u : Value} (hu : u ∈ ws) (hv : v ∈ ws) (hw : w ∈ ws)
    (huw : u.sameKey w = true) (hvw : v.sameKey w = true) : u.sameKey v = true :=
  hws.trans u hu w hw v hv huw (hws.symm v hv w hw hvw)

theorem of_left (hws : AreKeys h ws) {u : Value} (hu : u ∈ ws) (hv : v ∈ ws) (hw : w ∈ ws)
    (huv : u.sameKey v = true) (huw : u.sameKey w = true) : v.sameKey w = true :=
  hws.trans v hv u hu w hw (hws.symm u hu v hv huv) huw

theorem run_equal (hws : AreKeys h ws) (hk : h.Extends k) (hv : v ∈ ws) (hw : w ∈ ws) :
    (Run.equal v w).run k = (.ok (v.sameKey w), k) := by
  unfold Run.equal
  rw [run_bind_ok (run_get k), run_ofResult, hws.consistent k hk v hv w hw]

theorem sameKey_comm (hws : AreKeys h ws) (hv : v ∈ ws) (hw : w ∈ ws) : v.sameKey w = w.sameKey v :=
  Bool.eq_iff_iff.mpr ⟨hws.symm v hv w hw, hws.symm w hw v hv⟩

end AreKeys

/-- Are no two of these values the same key? -/
def Apart (ws : List Value) : Prop :=
  ws.Pairwise fun v w => v.sameKey w = false

/-! ## Distinct keys -/

/-- The keys that are the same as none before them. -/
def fresh (seen : List Value) : List Value → List Value
  | [] => []
  | w :: ws => if seen.any w.sameKey then fresh seen ws else w :: fresh (w :: seen) ws

theorem run_requireKey (hw : h.isKey w = true) : (requireKey w).run h = (.ok ⟨⟩, h) := by
  unfold requireKey
  rw [run_bind_ok (run_get h), hw]
  rfl

theorem run_distinctFrom (hws : ∀ w ∈ ws, h.isKey w = true) (seen : List Value) :
    (distinctFrom seen ws).run h = (.ok (fresh seen ws), h) := by
  induction ws generalizing seen with
  | nil => rfl
  | cons w ws ih =>
    obtain ⟨hw, hrest⟩ := List.forall_mem_cons.mp hws
    unfold distinctFrom fresh
    rw [run_bind_ok (run_requireKey hw)]
    split
    · exact ih hrest seen
    · rw [run_bind_ok (ih hrest _), run_pure]

/-- The first of each kind of key, in order. -/
structure KeepsFirsts (ws ds : List Value) : Prop where
  sublist : ds.Sublist ws
  apart : Apart ds
  first : ∀ w ∈ ws, ∃ d ∈ ds, ws.find? w.sameKey = some d

theorem fresh_sublist (seen ws : List Value) : (fresh seen ws).Sublist ws := by
  induction ws generalizing seen with
  | nil => exact .slnil
  | cons w ws ih =>
    unfold fresh
    split
    · exact (ih seen).cons w
    · exact (ih _).cons_cons w

theorem fresh_unseen (seen ws : List Value) : ∀ d ∈ fresh seen ws, ∀ w ∈ seen, d.sameKey w = false := by
  induction ws generalizing seen with
  | nil => simp [fresh]
  | cons w ws ih =>
    unfold fresh
    split
    · exact ih seen
    · next hw =>
      intro d hd u hu
      obtain rfl | hd := List.mem_cons.mp hd
      · simpa using List.any_eq_false.mp (by simpa using hw) u hu
      · exact ih _ d hd u (List.mem_cons_of_mem w hu)

theorem fresh_apart (hws : AreKeys h ws) (seen : List Value) : Apart (fresh seen ws) := by
  induction ws generalizing seen with
  | nil => exact .nil
  | cons w ws ih =>
    have hrest : AreKeys h ws := hws.mono (.refl h) (List.subset_cons_self w ws)
    unfold fresh
    split
    · exact ih hrest seen
    · refine List.pairwise_cons.mpr ⟨fun d hd => ?_, ih hrest _⟩
      rw [hws.sameKey_comm List.mem_cons_self (List.mem_cons_of_mem w ((fresh_sublist _ ws).subset hd))]
      exact fresh_unseen _ ws d hd w List.mem_cons_self

/-- Each key is the same as one that was seen, or the first that is the same is kept. -/
theorem fresh_first {seen : List Value} (hws : AreKeys h (seen ++ ws)) :
    ∀ u ∈ ws, (∃ d ∈ seen, u.sameKey d = true) ∨ ∃ d ∈ fresh seen ws, ws.find? u.sameKey = some d := by
  induction ws generalizing seen with
  | nil => simp
  | cons w ws ih =>
    have hw : w ∈ seen ++ w :: ws := by simp
    intro u hu
    have hmem : u ∈ seen ++ w :: ws := List.mem_append_right _ hu
    unfold fresh
    by_cases hany : seen.any w.sameKey = true
    · obtain ⟨d, hd, hwd⟩ := List.any_eq_true.mp hany
      rw [if_pos hany]
      by_cases huw : u.sameKey w = true
      · exact .inl ⟨d, hd, hws.trans u hmem w hw d (List.mem_append_left _ hd) huw hwd⟩
      · obtain rfl | hu := List.mem_cons.mp hu
        · exact absurd (hws.refl u hmem) huw
        · rw [List.find?_cons_of_neg huw]
          exact ih (hws.mono (.refl h) (by simp)) u hu
    · rw [if_neg hany]
      by_cases huw : u.sameKey w = true
      · exact .inr ⟨w, List.mem_cons_self, List.find?_cons_of_pos huw⟩
      · obtain rfl | hu := List.mem_cons.mp hu
        · exact absurd (hws.refl u hmem) huw
        · rw [List.find?_cons_of_neg huw]
          have hnow : AreKeys h ((w :: seen) ++ ws) := hws.mono (.refl h) fun x hx => by simp at hx ⊢; tauto
          obtain ⟨d, hd, hud⟩ | ⟨d, hd, hfind⟩ := ih hnow u hu
          · obtain rfl | hd := List.mem_cons.mp hd
            · exact absurd hud huw
            · exact .inl ⟨d, hd, hud⟩
          · exact .inr ⟨d, List.mem_cons_of_mem w hd, hfind⟩

theorem keepsFirsts_fresh (hws : AreKeys h ws) : KeepsFirsts ws (fresh [] ws) := by
  refine ⟨fresh_sublist [] ws, fresh_apart hws [], fun w hw => ?_⟩
  have hnone : AreKeys h ([] ++ ws) := hws
  simpa using fresh_first hnone w hw

theorem fresh_of_apart {seen : List Value} (hws : AreKeys h ws) (hapart : Apart ws)
    (hseen : ∀ w ∈ ws, ∀ u ∈ seen, w.sameKey u = false) : fresh seen ws = ws := by
  induction ws generalizing seen with
  | nil => rfl
  | cons w ws ih =>
    obtain ⟨hw, hrest⟩ := List.pairwise_cons.mp hapart
    have hnone : ¬seen.any w.sameKey = true := by simpa using hseen w List.mem_cons_self
    unfold fresh
    rw [if_neg hnone, ih (hws.mono (.refl h) (List.subset_cons_self w ws)) hrest]
    intro u hu d hd
    obtain rfl | hd := List.mem_cons.mp hd
    · rw [hws.sameKey_comm (List.mem_cons_of_mem _ hu) List.mem_cons_self]
      exact hw u hu
    · exact hseen u (List.mem_cons_of_mem w hu) d hd

/-! ## Groups -/

/-- Are these the groups of the items: with keys that appear among theirs and are apart, with all items of their key in
order, and with one for each item? -/
structure AreGroups (key : Value → Value) (vs : List Value) (groups : List (Value × List Value)) : Prop where
  keys : ∀ e ∈ groups, e.1 ∈ vs.map key
  apart : Apart (groups.map (·.1))
  items : ∀ e ∈ groups, e.2 = vs.filter fun v => (key v).sameKey e.1
  complete : ∀ v ∈ vs, ∃ e ∈ groups, (key v).sameKey e.1 = true

theorem key_mem_append (key : Value → Value) (vs : List Value) (v : Value) : key v ∈ (vs ++ [v]).map key :=
  List.mem_map_of_mem (by simp)

theorem AreGroups.mem_append (hgroups : AreGroups key vs groups) (v : Value) :
    ∀ e ∈ groups, e.1 ∈ (vs ++ [v]).map key :=
  fun e he => List.map_subset key (List.subset_append_left vs [v]) (hgroups.keys e he)

theorem addTo_of_new {w : Value} (hnew : ∀ e ∈ groups, e.1.sameKey w = false) (v : Value) :
    addTo w v groups = groups ++ [(w, [v])] := by
  induction groups with
  | nil => rfl
  | cons e groups ih =>
    obtain ⟨he, hrest⟩ := List.forall_mem_cons.mp hnew
    rw [addTo, if_neg (by simp [he]), ih hrest]
    rfl

/-- A group, with an item behind the others if it is the group of the item's key. -/
def withItem (w v : Value) (e : Value × List Value) : Value × List Value :=
  if e.1.sameKey w then (e.1, e.2 ++ [v]) else e

theorem withItem_fst (w v : Value) (e : Value × List Value) : (withItem w v e).1 = e.1 := by
  unfold withItem
  split <;> rfl

theorem map_withItem_fst (w v : Value) (groups : List (Value × List Value)) :
    (groups.map (withItem w v)).map (·.1) = groups.map (·.1) := by
  rw [List.map_map]
  exact List.map_congr_left fun e _ => withItem_fst w v e

/-- An item is added to the only group of its key. -/
theorem addTo_of_old {w : Value} (happart : Apart (groups.map (·.1))) (hws : AreKeys h ws) (hw : w ∈ ws)
    (hgroups : ∀ e ∈ groups, e.1 ∈ ws) (hold : ∃ e ∈ groups, e.1.sameKey w = true) (v : Value) :
    addTo w v groups = groups.map (withItem w v) := by
  induction groups with
  | nil => simp at hold
  | cons e groups ih =>
    obtain ⟨hfirst, hrest⟩ := List.pairwise_cons.mp happart
    obtain ⟨hemem, hmem⟩ := List.forall_mem_cons.mp hgroups
    by_cases he : e.1.sameKey w = true
    · have hothers : ∀ d ∈ groups, ¬d.1.sameKey w = true := by
        intro d hd hdw
        have hed := hws.of_right hemem (hmem d hd) hw he hdw
        rw [hfirst d.1 (List.mem_map_of_mem hd)] at hed
        cases hed
      have hsame : groups.map (withItem w v) = groups :=
        (List.map_congr_left fun d hd => if_neg (hothers d hd)).trans (List.map_id groups)
      rw [addTo, if_pos he, List.map_cons, withItem, if_pos he, hsame]
    · have hlater : ∃ d ∈ groups, d.1.sameKey w = true := by
        obtain ⟨d, hd, hdw⟩ := hold
        obtain rfl | hd := List.mem_cons.mp hd
        · exact absurd hdw he
        · exact ⟨d, hd, hdw⟩
      rw [addTo, if_neg he, List.map_cons, withItem, if_neg he, ih hrest hmem hlater]

theorem AreGroups.map_withItem (hws : AreKeys h ((vs ++ [v]).map key)) (hgroups : AreGroups key vs groups)
    (hold : ∃ e ∈ groups, e.1.sameKey (key v) = true) :
    AreGroups key (vs ++ [v]) (groups.map (withItem (key v) v)) := by
  have hv := key_mem_append key vs v
  have hmem := hgroups.mem_append v
  refine ⟨?_, ?_, ?_, ?_⟩
  · intro e he
    obtain ⟨d, hd, rfl⟩ := List.mem_map.mp he
    rw [withItem_fst]
    exact hmem d hd
  · rw [map_withItem_fst]
    exact hgroups.apart
  · intro e he
    obtain ⟨d, hd, rfl⟩ := List.mem_map.mp he
    rw [withItem_fst, List.filter_append, ← hgroups.items d hd]
    unfold withItem
    rw [List.filter_singleton, hws.sameKey_comm hv (hmem d hd)]
    cases d.1.sameKey (key v) <;> simp
  · intro u hu
    suffices ∃ e ∈ groups, (key u).sameKey e.1 = true by
      obtain ⟨e, he, hue⟩ := this
      exact ⟨_, List.mem_map_of_mem he, by rwa [withItem_fst]⟩
    obtain hu | hu := List.mem_append.mp hu
    · exact hgroups.complete u hu
    · obtain rfl := List.mem_singleton.mp hu
      obtain ⟨e, he, hsame⟩ := hold
      exact ⟨e, he, hws.symm _ (hmem e he) _ hv hsame⟩

theorem AreGroups.append_new (hws : AreKeys h ((vs ++ [v]).map key)) (hgroups : AreGroups key vs groups)
    (hnew : ∀ e ∈ groups, e.1.sameKey (key v) = false) :
    AreGroups key (vs ++ [v]) (groups ++ [(key v, [v])]) := by
  have hv := key_mem_append key vs v
  have hmem := hgroups.mem_append v
  refine ⟨?_, ?_, ?_, ?_⟩
  · intro e he
    obtain he | he := List.mem_append.mp he
    · exact hmem e he
    · obtain rfl := List.mem_singleton.mp he
      exact hv
  · rw [List.map_append]
    refine List.pairwise_append.mpr ⟨hgroups.apart, List.pairwise_singleton _ _, fun w hw u hu => ?_⟩
    obtain ⟨e, he, rfl⟩ := List.mem_map.mp hw
    obtain rfl : u = key v := by simpa using hu
    exact hnew e he
  · intro e he
    rw [List.filter_append, List.filter_singleton]
    obtain he | he := List.mem_append.mp he
    · rw [← hgroups.items e he, hws.sameKey_comm hv (hmem e he), hnew e he]
      simp
    · obtain rfl := List.mem_singleton.mp he
      -- No item so far has the new key, as it would be in a group with it.
      have hnone : vs.filter (fun u => (key u).sameKey (key v)) = [] := by
        refine List.filter_eq_nil_iff.mpr fun u hu huv => ?_
        obtain ⟨e, he, hue⟩ := hgroups.complete u hu
        have hkey : key u ∈ (vs ++ [v]).map key := List.mem_map_of_mem (List.mem_append_left _ hu)
        have hev := hws.of_left hkey (hmem e he) hv hue huv
        rw [hnew e he] at hev
        cases hev
      rw [hnone, hws.refl _ hv]
      rfl
  · intro u hu
    obtain hu | hu := List.mem_append.mp hu
    · obtain ⟨e, he, hue⟩ := hgroups.complete u hu
      exact ⟨e, List.mem_append_left _ he, hue⟩
    · obtain rfl := List.mem_singleton.mp hu
      exact ⟨_, List.mem_append_right _ (List.mem_singleton_self _), hws.refl _ hv⟩

theorem AreGroups.addTo (hws : AreKeys h ((vs ++ [v]).map key)) (hgroups : AreGroups key vs groups) :
    AreGroups key (vs ++ [v]) (addTo (key v) v groups) := by
  by_cases hold : ∃ e ∈ groups, e.1.sameKey (key v) = true
  · rw [addTo_of_old hgroups.apart hws (key_mem_append key vs v) (hgroups.mem_append v) hold]
    exact hgroups.map_withItem hws hold
  · have hnew : ∀ e ∈ groups, e.1.sameKey (key v) = false := by simpa using hold
    rw [addTo_of_new hnew]
    exact hgroups.append_new hws hnew

/-- The groups that a loop over the items makes. -/
def grouped (key : Value → Value) (vs : List Value) : List (Value × List Value) :=
  vs.foldl (fun groups v => addTo (key v) v groups) []

theorem grouped_append (key : Value → Value) (vs : List Value) (v : Value) :
    grouped key (vs ++ [v]) = addTo (key v) v (grouped key vs) := by
  rw [grouped, List.foldl_append]
  rfl

theorem areGroups_grouped (hws : AreKeys h (vs.map key)) : AreGroups key vs (grouped key vs) := by
  induction vs using List.reverseRecOn with
  | nil => exact ⟨by simp [grouped], .nil, by simp [grouped], by simp⟩
  | append_singleton vs v ih =>
    rw [grouped_append]
    exact (ih (hws.mono (.refl h) (List.map_subset key (List.subset_append_left vs [v])))).addTo hws

theorem addTo_perm (w v : Value) (groups : List (Value × List Value)) :
    ((addTo w v groups).flatMap (·.2)).Perm (groups.flatMap (·.2) ++ [v]) := by
  induction groups with
  | nil => exact .refl _
  | cons e groups ih =>
    rw [addTo]
    split
    · rw [List.flatMap_cons, List.flatMap_cons, List.append_assoc, List.append_assoc]
      exact List.perm_append_comm.append_left e.2
    · rw [List.flatMap_cons, List.flatMap_cons, List.append_assoc]
      exact ih.append_left e.2

theorem grouped_perm (key : Value → Value) (vs : List Value) : ((grouped key vs).flatMap (·.2)).Perm vs := by
  induction vs using List.reverseRecOn with
  | nil => exact .nil
  | append_singleton vs v ih =>
    rw [grouped_append]
    exact (addTo_perm _ _ _).trans (ih.append_right [v])

theorem fresh_append (seen ws : List Value) (w : Value) :
    fresh seen (ws ++ [w]) =
      fresh seen ws ++ if seen.any w.sameKey || (fresh seen ws).any w.sameKey then [] else [w] := by
  induction ws generalizing seen with
  | nil => simp [fresh]
  | cons u ws ih =>
    rw [List.cons_append, fresh, fresh]
    split
    · exact ih seen
    · rw [ih, List.cons_append, List.any_cons, List.any_cons, Bool.or_assoc, Bool.or_left_comm]

theorem grouped_keys (hws : AreKeys h (vs.map key)) : (grouped key vs).map (·.1) = fresh [] (vs.map key) := by
  induction vs using List.reverseRecOn with
  | nil => rfl
  | append_singleton vs v ih =>
    have hvs := hws.mono (.refl h) (List.map_subset key (List.subset_append_left vs [v]))
    have hgroups := areGroups_grouped hvs
    have hmem := hgroups.mem_append v
    have hv := key_mem_append key vs v
    rw [grouped_append, List.map_append, List.map_singleton, fresh_append, ← ih hvs]
    by_cases hold : ∃ e ∈ grouped key vs, e.1.sameKey (key v) = true
    · have hany : ((grouped key vs).map (·.1)).any (key v).sameKey = true := by
        obtain ⟨e, he, hev⟩ := hold
        exact List.any_eq_true.mpr ⟨e.1, List.mem_map_of_mem he, hws.symm _ (hmem e he) _ hv hev⟩
      rw [addTo_of_old hgroups.apart hws hv hmem hold, map_withItem_fst, hany]
      simp
    · have hnew : ∀ e ∈ grouped key vs, e.1.sameKey (key v) = false := by simpa using hold
      have hnone : ((grouped key vs).map (·.1)).any (key v).sameKey = false := by
        refine List.any_eq_false.mpr fun w hw => ?_
        obtain ⟨e, he, rfl⟩ := List.mem_map.mp hw
        rw [hws.sameKey_comm hv (hmem e he), hnew e he]
        exact Bool.false_ne_true
      rw [addTo_of_new hnew, hnone]
      simp

theorem grouped_of_apart (hapart : Apart (vs.map key)) : grouped key vs = vs.map fun v => (key v, [v]) := by
  induction vs using List.reverseRecOn with
  | nil => rfl
  | append_singleton vs v ih =>
    rw [List.map_append] at hapart
    obtain ⟨hvs, -, hacross⟩ := List.pairwise_append.mp hapart
    rw [grouped_append, ih hvs, addTo_of_new, List.map_append]
    · rfl
    · intro e he
      obtain ⟨u, hu, rfl⟩ := List.mem_map.mp he
      exact hacross _ (List.mem_map_of_mem hu) _ (by simp)

/-- No two items have the same key just when no group has two items. -/
theorem AreGroups.apart_iff (hws : AreKeys h (vs.map key)) (hgroups : AreGroups key vs groups) :
    Apart (vs.map key) ↔ ∀ e ∈ groups, e.2.length < 2 := by
  have hkey : ∀ v ∈ vs, key v ∈ vs.map key := fun v hv => List.mem_map_of_mem hv
  rw [Apart, List.pairwise_map]
  constructor
  · intro hapart e he
    rw [hgroups.items e he]
    have hpair := hapart.sublist (List.filter_sublist (p := fun v => (key v).sameKey e.1))
    have hnot : ∀ u ∈ vs.filter (fun v => (key v).sameKey e.1), ∀ v ∈ vs.filter (fun v => (key v).sameKey e.1),
        ¬(key u).sameKey (key v) = false := by
      intro u hu v hv
      obtain ⟨hu, hue⟩ := List.mem_filter.mp hu
      obtain ⟨hv, hve⟩ := List.mem_filter.mp hv
      simp [hws.of_right (hkey u hu) (hkey v hv) (hgroups.keys e he) hue hve]
    obtain hnil | ⟨v, hone⟩ := nil_or_singleton_of_pairwise hpair hnot
    · simp [hnil]
    · simp [hone]
  · intro hsingle
    refine List.pairwise_iff_forall_sublist.mpr fun {u v} hsub => ?_
    have hu : u ∈ vs := hsub.subset (by simp)
    have hv : v ∈ vs := hsub.subset (by simp)
    obtain ⟨e, he, hue⟩ := hgroups.complete u hu
    by_contra huv
    have hve : (key v).sameKey e.1 = true :=
      hws.of_left (hkey u hu) (hkey v hv) (hgroups.keys e he) (by simpa using huv) hue
    have hboth : [u, v].filter (fun v => (key v).sameKey e.1) = [u, v] := by simp [hue, hve]
    have htwo := hsub.filter fun v => (key v).sameKey e.1
    rw [← hgroups.items e he, hboth] at htwo
    exact absurd (hsingle e he) (Nat.not_lt.mpr htwo.length_le)

/-! ## Runs -/

variable {f : Value → Run Value}

/-- Calls a function and refuses what cannot be a key. -/
def keyOf (f : Value → Run Value) (v : Value) : Run Value := do
  let w ← f v
  requireKey w
  return w

theorem IsPure.keyOf (hf : IsPure f key h vs) (hws : AreKeys h (vs.map key)) : IsPure (keyOf f) key h vs := by
  intro k hk v hv
  obtain ⟨m, hrun, hm⟩ := hf k hk v hv
  have hkey := hws.hashable m (hk.trans hm) (key v) (List.mem_map_of_mem hv)
  exact ⟨m, (run_bind_ok hrun _).trans (run_bind_ok (run_requireKey hkey) _), hm⟩

theorem run_groupBy (hf : IsPure f key h vs) (hv : Offers v h s vs) (hws : AreKeys h (vs.map key)) :
    ∃ k, (groupBy f s).run h = (.ok (grouped key vs), k) ∧ h.Extends k := by
  have hkey := hf.keyOf hws
  obtain ⟨k, hvisits, hk⟩ := hkey.visits never
  have hheld := hkey.held hv never
  refine ⟨k, ?_, hk⟩
  refine (each_visits (fun groups v w => addTo w v groups) [] (fun groups v => ?_) hheld hvisits).trans ?_
  · unfold stepping keyOf
    simp only [bind_assoc, pure_bind]
    rfl
  · rw [upTo_never, gathered_map]
    rfl

/-- Gives a new dictionary of these keys, with new lists of these items, and changes nothing else. -/
def Groups (x : Run Value) (h : Heap) (groups : List (Value × List Value)) : Prop :=
  ∃ r k es, x.run h = (.ok r, k) ∧ k.dict? r = some es ∧
    List.Forall₂ (fun e g => e.1 = g.1 ∧ k.list? e.2 = some g.2) es groups ∧ h.Extends k

/-- Gives a new dictionary of these entries, and changes nothing else. -/
def Maps (x : Run Value) (h : Heap) (es : List (Value × Value)) : Prop :=
  ∃ r k, x.run h = (.ok r, k) ∧ k.dict? r = some es ∧ h.Extends k

theorem dict?_newDict (h : Heap) (es : List (Value × Value)) :
    (h.add (.dict es)).2.dict? (.ref (h.add (.dict es)).1) = some es := by
  simp [Heap.dict?, Heap.get?, Heap.add]

theorem run_newLists (h : Heap) (groups : List (Value × List Value)) :
    ∃ es k, (groups.mapM fun g => do return (g.1, ← newList g.2) : Run (List (Value × Value))).run h = (.ok es, k) ∧
      List.Forall₂ (fun e g => e.1 = g.1 ∧ k.list? e.2 = some g.2) es groups ∧ h.Extends k := by
  induction groups generalizing h with
  | nil => exact ⟨[], h, rfl, .nil, .refl h⟩
  | cons g groups ih =>
    obtain ⟨es, k, hrun, hes, hk⟩ := ih (h.add (.list g.2)).2
    have hfirst : (do return (g.1, ← newList g.2) : Run (Value × Value)).run h =
        (.ok (g.1, .ref (h.add (.list g.2)).1), (h.add (.list g.2)).2) := rfl
    have hlist : k.list? (.ref (h.add (.list g.2)).1) = some g.2 := hk.list? (list?_newList h g.2)
    refine ⟨(g.1, Value.ref (h.add (.list g.2)).1) :: es, k, ?_, .cons ⟨rfl, hlist⟩ hes, (h.extends_add _).trans hk⟩
    rw [List.mapM_cons, run_bind_ok hfirst, run_bind_ok hrun, run_pure]

variable (apply : Apply)

theorem run_group_by (hv : Offers v h s vs) (hg : IsPure (call apply g) key h vs) (hws : AreKeys h (vs.map key)) :
    Groups (run apply "group_by" [v, g]) h (grouped key vs) := by
  obtain ⟨k, hrun, hk⟩ := run_groupBy hg hv hws
  obtain ⟨es, m, hlists, hes, hm⟩ := run_newLists k (grouped key vs)
  refine ⟨_, _, es, ?_, dict?_newDict m es, ?_, hk.trans (hm.trans (m.extends_add _))⟩
  · exact (run_bind_ok hv.source _).trans ((run_bind_ok hrun _).trans (run_bind_ok hlists _))
  · exact hes.imp fun e g he => ⟨he.1, (m.extends_add _).list? he.2⟩

theorem run_select (hv : Offers v h s vs) (hg : IsPure (call apply g) key h vs) :
    Lists (run apply "select" [v, g]) h (vs.map key) := by
  obtain ⟨k, hvisits, hk⟩ := hg.visits never
  rw [upTo_never] at hvisits
  exact lists_newList ((run_bind_ok hv.source _).trans (run_bind_ok (map_visits (hg.held hv never) hvisits) _)) hk

theorem run_distinct (hv : Offers v h s vs) (hvs : AreKeys h vs) :
    Lists (run apply "distinct" [v]) h (fresh [] vs) := by
  have hrun := run_distinctFrom (fun w hw => hvs.hashable h (.refl h) w hw) []
  exact lists_newList ((run_bind_ok hv.run_items _).trans (run_bind_ok hrun _)) (.refl h)

theorem Lists.run_distinct {x : Run Value} (hx : Lists x h ws) (hws : AreKeys h ws) :
    Lists (do run apply "distinct" [← x]) h (fresh [] ws) := by
  obtain ⟨r, k, hrun, hlist, hk⟩ := hx
  obtain ⟨s, hr⟩ := offers_of_list? hlist
  obtain ⟨r', m, hrun', hlist', hm⟩ := Query.run_distinct apply hr (hws.mono hk (List.Subset.refl ws))
  exact ⟨r', m, (run_bind_ok hrun _).trans hrun', hlist', hk.trans hm⟩

/-! ## Entries -/

/-- The items, each under its key. -/
def entriesOf (key : Value → Value) (vs : List Value) : List (Value × Value) :=
  vs.map fun v => (key v, v)

theorem lookup?_entriesOf_eq_none :
    Heap.lookup? (entriesOf key vs) w = none ↔ ∀ v ∈ vs, (key v).sameKey w = false := by
  simp [Heap.lookup?, entriesOf]

theorem Offers.item_at (hv : Offers v h s vs) {rest : List Value} (hsplit : done ++ rest = vs) (hk : h.Extends k) :
    (s.items k)[done.length]? = rest.head? := by
  rw [hv.items_extends hk, ← hsplit, ← List.head?_drop, List.drop_left]

/-- A loop that adds each item under its key, and fails at the first key that is there already, succeeds just when all
keys are apart. -/
theorem walk_indexing {step : List (Value × Value) → Value → Run (ForInStep (List (Value × Value)))}
    (hv : Offers v h s vs)
    (hnew : ∀ es k, h.Extends k → ∀ v ∈ vs, Heap.lookup? es (key v) = none →
      ∃ m, (step es v).run k = (.ok (.yield (es ++ [(key v, v)])), m) ∧ h.Extends m)
    (hold : ∀ es k, h.Extends k → ∀ v ∈ vs, Heap.lookup? es (key v) ≠ none →
      ∃ e m, (step es v).run k = (.error e, m) ∧ e.kind = .value)
    (done rest : List Value) (hsplit : done ++ rest = vs) {fuel : Nat} (hfuel : rest.length ≤ fuel)
    (hk : h.Extends k) (hdone : Apart (done.map key)) :
    (Apart (vs.map key) → ∃ m, (walk s step (fuel + 1) done.length (entriesOf key done)).run k =
      (.ok (entriesOf key vs), m) ∧ h.Extends m) ∧
    (¬Apart (vs.map key) → ∃ e m, (walk s step (fuel + 1) done.length (entriesOf key done)).run k = (.error e, m) ∧
      e.kind = .value) := by
  -- What has been added so far is `entriesOf key done`, whose keys are apart, as a key that is there fails.
  induction rest generalizing done k fuel with
  | nil =>
    have hitem := hv.item_at hsplit hk
    obtain rfl : done = vs := by simpa using hsplit
    exact ⟨fun _ => ⟨k, walk_end hitem, hk⟩, fun hnot => absurd hdone hnot⟩
  | cons u rest ih =>
    have hitem := hv.item_at hsplit hk
    have hu : u ∈ vs := by simp [← hsplit]
    by_cases hlookup : Heap.lookup? (entriesOf key done) (key u) = none
    · obtain ⟨fuel, rfl⟩ := Nat.exists_eq_succ_of_ne_zero (Nat.ne_zero_of_lt hfuel)
      obtain ⟨m, hstep, hm⟩ := hnew _ k hk u hu hlookup
      have hnext : entriesOf key done ++ [(key u, u)] = entriesOf key (done ++ [u]) := by simp [entriesOf]
      have hlength : done.length + 1 = (done ++ [u]).length := by simp
      have hdone' : Apart ((done ++ [u]).map key) := by
        rw [List.map_append]
        refine List.pairwise_append.mpr ⟨hdone, List.pairwise_singleton _ _, fun x hx y hy => ?_⟩
        obtain ⟨d, hd, rfl⟩ := List.mem_map.mp hx
        obtain rfl : y = key u := by simpa using hy
        exact lookup?_entriesOf_eq_none.mp hlookup d hd
      rw [walk_yield hitem hstep, hnext, hlength]
      exact ih (done ++ [u]) (by simpa using hsplit) (Nat.le_of_succ_le_succ hfuel) hm hdone'
    · obtain ⟨e, m, hstep, he⟩ := hold _ k hk u hu hlookup
      refine ⟨fun hapart => absurd (lookup?_entriesOf_eq_none.mpr fun d hd => ?_) hlookup,
        fun _ => ⟨e, m, walk_fail hitem hstep, he⟩⟩
      rw [← hsplit, List.map_append] at hapart
      exact (List.pairwise_append.mp hapart).2.2 _ (List.mem_map_of_mem hd) _ (List.mem_map_of_mem List.mem_cons_self)

theorem run_indexBy (hf : IsPure f key h vs) (hv : Offers v h s vs) (hws : AreKeys h (vs.map key)) :
    (Apart (vs.map key) → ∃ k, (indexBy f s).run h = (.ok (entriesOf key vs), k) ∧ h.Extends k) ∧
    (¬Apart (vs.map key) → ∃ e k, (indexBy f s).run h = (.error e, k) ∧ e.kind = .value) := by
  have hitems : s.items h = vs := hv.items
  unfold indexBy each eachFrom
  rw [run_bind_ok (run_get h), hitems]
  refine walk_indexing hv ?_ ?_ [] vs (List.nil_append vs) (Nat.le_add_left _ _) (.refl h) .nil
  · intro es k hk u hu hnone
    obtain ⟨m, hrun, hm⟩ := hf k hk u hu
    have hhash := hws.hashable m (hk.trans hm) (key u) (List.mem_map_of_mem hu)
    refine ⟨m, ?_, hk.trans hm⟩
    rw [run_bind_ok hrun, run_bind_ok (run_requireKey hhash), hnone]
    rfl
  · intro es k hk u hu hsome
    obtain ⟨m, hrun, hm⟩ := hf k hk u hu
    have hhash := hws.hashable m (hk.trans hm) (key u) (List.mem_map_of_mem hu)
    rw [run_bind_ok hrun, run_bind_ok (run_requireKey hhash), if_pos (Option.isSome_iff_ne_none.mpr hsome),
      run_bind_ok (run_get m)]
    cases m.describe (key u) with
    | none => exact ⟨_, m, rfl, rfl⟩
    | some shown => exact ⟨_, m, rfl, rfl⟩

theorem run_to_dict (hv : Offers v h s vs) (hg : IsPure (call apply g) key h vs) (hws : AreKeys h (vs.map key)) :
    (Apart (vs.map key) → Maps (run apply "to_dict" [v, g]) h (entriesOf key vs)) ∧
    (¬Apart (vs.map key) → ∃ e k, (run apply "to_dict" [v, g]).run h = (.error e, k) ∧ e.kind = .value) := by
  obtain ⟨hok, hfail⟩ := run_indexBy hg hv hws
  refine ⟨fun hapart => ?_, fun hnot => ?_⟩
  · obtain ⟨k, hrun, hk⟩ := hok hapart
    exact ⟨_, _, (run_bind_ok hv.source _).trans (run_bind_ok hrun _), dict?_newDict k _, hk.trans (k.extends_add _)⟩
  · obtain ⟨e, k, hrun, he⟩ := hfail hnot
    exact ⟨e, k, (run_bind_ok hv.source _).trans (run_bind_error hrun _), he⟩

/-! ## Operators -/

/-- Does a predicate answer what comparing the keys of items with a key answers, and only add to the heap? -/
def Compares (q g w : Value) (h : Heap) (vs : List Value) : Prop :=
  ∀ k, h.Extends k → ∀ u ∈ vs, ∃ m,
    (test apply q u).run k = (((do Run.equal (← call apply g u) w).run k).1, m) ∧ k.Extends m

/-- The items whose key equals a key, as a predicate finds them that compares the two. -/
theorem run_where_key (hv : Offers v h s vs) (hg : IsPure (call apply g) key h vs) (hws : AreKeys h (vs.map key))
    (hw : w ∈ vs.map key) {q : Value} (hq : Compares apply q g w h vs) :
    Lists (run apply "where" [v, q]) h (vs.filter fun u => (key u).sameKey w) := by
  refine run_filtering apply hv fun k hk u hu => ?_
  obtain ⟨m, hrun, hm⟩ := hg k hk u hu
  obtain ⟨m', hrun', hm'⟩ := hq k hk u hu
  rw [run_bind_ok hrun, hws.run_equal (hk.trans hm) (List.mem_map_of_mem hu) hw] at hrun'
  exact ⟨m', hrun', hm'⟩

/-- A dictionary fails for its keys just when some item is not the only one with its key. -/
theorem run_to_dict_fails_iff (hv : Offers v h s vs) (hg : IsPure (call apply g) key h vs) (hws : AreKeys h (vs.map key)) :
    (∃ e k, (run apply "to_dict" [v, g]).run h = (.error e, k) ∧ e.kind = .value) ↔
      ∃ e ∈ grouped key vs, 2 ≤ e.2.length := by
  have hgroups := areGroups_grouped hws
  obtain ⟨hdict, hduplicate⟩ := run_to_dict apply hv hg hws
  by_cases hapart : Apart (vs.map key)
  · have hsingle := (hgroups.apart_iff hws).mp hapart
    obtain ⟨r, k, hrun, -⟩ := hdict hapart
    refine ⟨fun hfail => ?_, fun hpair => ?_⟩
    · obtain ⟨e, m, herror, -⟩ := hfail
      cases hrun.symm.trans herror
    · obtain ⟨e, he, htwo⟩ := hpair
      exact absurd (hsingle e he) (Nat.not_lt.mpr htwo)
  · refine ⟨fun _ => ?_, fun _ => hduplicate hapart⟩
    by_contra hnone
    exact hapart ((hgroups.apart_iff hws).mpr fun e he => Nat.lt_of_not_le fun htwo => hnone ⟨e, he, htwo⟩)

/-- Grouping by a pure selector whose values are keys makes one group for each distinct key, in order, with the items
that a comparison of the key finds; together the groups have all items. A dictionary of the items can be made just when
no group has two, and then has each item under its key. What is distinct among items that are keys are the first ones
of each kind, and is so at once. -/
theorem grouping_partitions (hv : Offers v h s vs) (hg : IsPure (call apply g) key h vs)
    (hws : AreKeys h (vs.map key)) :
    (∃ groups,
      Groups (run apply "group_by" [v, g]) h groups ∧
      Lists (do run apply "distinct" [← run apply "select" [v, g]]) h (groups.map (·.1)) ∧
      (∀ e ∈ groups, ∀ q, Compares apply q g e.1 h vs → Lists (run apply "where" [v, q]) h e.2) ∧
      (groups.flatMap (·.2)).Perm vs ∧
      ((∃ e k, (run apply "to_dict" [v, g]).run h = (.error e, k) ∧ e.kind = .value) ↔
        ∃ e ∈ groups, 2 ≤ e.2.length) ∧
      ((∀ e ∈ groups, e.2.length < 2) →
        Maps (run apply "to_dict" [v, g]) h (entriesOf key vs) ∧
          groups = (entriesOf key vs).map fun e => (e.1, [e.2]))) ∧
    (AreKeys h vs → ∃ ds, Lists (run apply "distinct" [v]) h ds ∧ KeepsFirsts vs ds ∧
      Lists (do run apply "distinct" [← run apply "distinct" [v]]) h ds) := by
  have hgroups := areGroups_grouped hws
  obtain ⟨hdict, -⟩ := run_to_dict apply hv hg hws
  refine ⟨⟨grouped key vs, run_group_by apply hv hg hws, ?_, ?_, grouped_perm key vs,
    run_to_dict_fails_iff apply hv hg hws, ?_⟩, fun hvs => ?_⟩
  · rw [grouped_keys hws]
    exact (run_select apply hv hg).run_distinct apply hws
  · intro e he q hq
    rw [hgroups.items e he]
    exact run_where_key apply hv hg hws (hgroups.keys e he) hq
  · intro hsingle
    have hapart := (hgroups.apart_iff hws).mpr hsingle
    refine ⟨hdict hapart, ?_⟩
    rw [grouped_of_apart hapart, entriesOf, List.map_map]
    rfl
  · have hdistinct := run_distinct apply hv hvs
    have hfirsts := keepsFirsts_fresh hvs
    have hkeys : AreKeys h (fresh [] vs) := hvs.mono (.refl h) hfirsts.sublist.subset
    refine ⟨fresh [] vs, hdistinct, hfirsts, ?_⟩
    have hagain := hdistinct.run_distinct apply hkeys
    rwa [fresh_of_apart hkeys hfirsts.apart (by simp)] at hagain

def anything : Parameter := ⟨1, .object, some "x"⟩

/-- One in three forms, and two. -/
def ones : List Value :=
  [.int 1, .bool true, .float .general (Format.double.ofInt 1), .int 2]

/-- A list, a function that returns its parameter, and one that compares it with one. -/
def forms : Heap :=
  ⟨#[.list ones, .function [anything] (.parameter anything) [],
     .function [anything] (.binary (.binary .equal) (.parameter anything) (.constant (.int 1) .int) .bool) []]⟩

theorem areKeys_ones (h : Heap) : AreKeys h ones := by
  refine ⟨?_, ?_, ?_, ?_, ?_⟩
  · intro k _ w hw
    simp only [ones, List.mem_cons, List.not_mem_nil, or_false] at hw
    obtain rfl | rfl | rfl | rfl := hw <;> rfl
  · intro k _ v hv w hw
    simp only [ones, List.mem_cons, List.not_mem_nil, or_false] at hv hw
    obtain rfl | rfl | rfl | rfl := hv <;> obtain rfl | rfl | rfl | rfl := hw <;> rfl
  · decide
  · decide
  · decide

theorem isPure_anything : IsPure (call Sample.host.apply (.ref 1)) id forms ones :=
  isPure_apply rfl fun k v _ => run_readParameter_bound k anything v []

theorem compares_one : Compares Sample.host.apply (.ref 2) (.ref 1) (.int 1) forms ones := by
  intro k hk u hu
  have hone : Value.int 1 ∈ ones := by simp [ones]
  have hequal : (Run.equal u (.int 1)).run (bound k anything u) = (.ok (u.sameKey (.int 1)), bound k anything u) :=
    (areKeys_ones forms).run_equal (hk.trans (k.extends_add _)) hu hone
  have hselect : (call Sample.host.apply (.ref 1) u).run k = (.ok u, bound k anything u) :=
    (run_apply_function (hk 1 _ rfl) u).trans (run_readParameter_bound k anything u [])
  have hcompare : (Sample.host.apply (.ref 2) [u]).run k = (.ok (.bool (u.sameKey (.int 1))), bound k anything u) := by
    rw [run_apply_function (hk 2 _ rfl), Node.eval]
    refine (run_bind_ok (run_readParameter_bound k anything u []) _).trans ?_
    refine (run_bind_ok (run_pure _ _) _).trans ?_
    exact run_bind_ok hequal _
  refine ⟨bound k anything u, ?_, k.extends_add _⟩
  rw [run_bind_ok hselect, hequal]
  exact run_bind_ok hcompare _

/-- The forms of one are one key, so they are in one group, and two is in another. -/
theorem grouping_partitions_ones :
    Offers (.ref 0) forms (.list 0) ones ∧ IsPure (call Sample.host.apply (.ref 1)) id forms ones ∧
      AreKeys forms (ones.map id) ∧ Compares Sample.host.apply (.ref 2) (.ref 1) (.int 1) forms ones ∧
      (∃ groups, Groups (run Sample.host.apply "group_by" [.ref 0, .ref 1]) forms groups ∧
        (groups.flatMap (·.2)).Perm ones ∧ (∃ e ∈ groups, 2 ≤ e.2.length) ∧
        ∀ e ∈ groups, e.1 = .int 1 → Lists (run Sample.host.apply "where" [.ref 0, .ref 2]) forms e.2) ∧
      AreKeys forms ones ∧ ∃ ds, Lists (run Sample.host.apply "distinct" [.ref 0]) forms ds ∧ KeepsFirsts ones ds := by
  have hv : Offers (.ref 0) forms (.list 0) ones := ⟨rfl, rfl⟩
  have hws : AreKeys forms (ones.map id) := by
    rw [List.map_id]
    exact areKeys_ones forms
  obtain ⟨⟨groups, hgroups, -, hitems, hperm, hfail, -⟩, hdistinct⟩ :=
    grouping_partitions Sample.host.apply hv isPure_anything hws
  obtain ⟨ds, hds, hfirsts, -⟩ := hdistinct (areKeys_ones forms)
  refine ⟨hv, isPure_anything, hws, compares_one, ⟨groups, hgroups, hperm, hfail.mp ⟨_, _, rfl, rfl⟩, ?_⟩,
    areKeys_ones forms, ds, hds, hfirsts⟩
  intro e he hone
  exact hitems e he (.ref 2) (hone ▸ compares_one)

end ExprTree.Query
