import ExprTree.Policy
import ExprTree.Proofs.Member
import ExprTree.Proofs.Ty.Building

/-!
# What policies allow

Adding types and methods one by one lists exactly what was listed and what is
added, up to sameness. So a policy that is extended allows all that it allowed.
-/

namespace ExprTree

namespace Policy

variable (p q : Policy) (m n : Method)

/-! ## Adding -/

theorem addStaticTypes (ts : List Ty) :
    ∃ S, ts.foldl addStaticType p = { p with staticTypes := S } ∧
      ∀ a : Ty, S.any a.same = (p.staticTypes ++ ts).any a.same := by
  induction ts generalizing p with
  | nil => exact ⟨p.staticTypes, rfl, by simp⟩
  | cons t ts ih =>
    obtain ⟨S, hS, hany⟩ := ih (p.addStaticType t)
    refine ⟨S, hS, fun a => (hany a).trans ?_⟩
    simp only [addStaticType, List.any_append, Ty.any_same_dedup, List.any_cons, List.any_nil, Bool.or_false,
      Bool.or_assoc]

theorem addInstanceTypes (ts : List Ty) :
    ∃ I, ts.foldl addInstanceType p = { p with instanceTypes := I } ∧
      ∀ a : Ty, I.any a.same = (p.instanceTypes ++ ts).any a.same := by
  induction ts generalizing p with
  | nil => exact ⟨p.instanceTypes, rfl, by simp⟩
  | cons t ts ih =>
    obtain ⟨I, hI, hany⟩ := ih (p.addInstanceType t)
    refine ⟨I, hI, fun a => (hany a).trans ?_⟩
    simp only [addInstanceType, List.any_append, Ty.any_same_dedup, List.any_cons, List.any_nil, Bool.or_false,
      Bool.or_assoc]

theorem addMethod_eq :
    ∃ M, p.addMethod m = { p with methods := M } ∧
      ∀ n : Method, M.any n.same = (p.methods ++ [m]).any n.same := by
  unfold addMethod
  split
  · next h =>
    obtain ⟨k, hk, hsame⟩ := List.any_eq_true.mp h
    refine ⟨p.methods, rfl, fun n => ?_⟩
    have habsorbed : n.same m = true → p.methods.any n.same = true := fun hn =>
      List.any_eq_true.mpr ⟨k, hk, Method.same_trans hn hsame⟩
    cases hn : n.same m with
    | false => simp [hn]
    | true => simp [habsorbed hn]
  · exact ⟨_, rfl, fun n => rfl⟩

theorem addMethods (ms : List Method) :
    ∃ M, ms.foldl addMethod p = { p with methods := M } ∧
      ∀ n : Method, M.any n.same = (p.methods ++ ms).any n.same := by
  induction ms generalizing p with
  | nil => exact ⟨p.methods, rfl, by simp⟩
  | cons m ms ih =>
    obtain ⟨M, hM, hany⟩ := p.addMethod_eq m
    obtain ⟨M', hM', hany'⟩ := ih (p.addMethod m)
    rw [hM] at hM' hany'
    refine ⟨M', by rw [List.foldl_cons, hM, hM'], fun n => (hany' n).trans ?_⟩
    rw [List.any_append, hany n]
    simp [Bool.or_assoc]

/-- A policy that is extended lists what it listed and what the other policy lists. -/
theorem extend_eq :
    ∃ S I M, p.extend q = { p with staticTypes := S, instanceTypes := I, methods := M } ∧
      (∀ a : Ty, S.any a.same = (p.staticTypes ++ q.staticTypes).any a.same) ∧
      (∀ a : Ty, I.any a.same = (p.instanceTypes ++ q.instanceTypes).any a.same) ∧
      ∀ n : Method, M.any n.same = (p.methods ++ q.methods).any n.same := by
  obtain ⟨S, hS, hstatics⟩ := p.addStaticTypes q.staticTypes
  obtain ⟨I, hI, hinstances⟩ := Policy.addInstanceTypes { p with staticTypes := S } q.instanceTypes
  obtain ⟨M, hM, hmethods⟩ :=
    Policy.addMethods { p with staticTypes := S, instanceTypes := I } q.methods
  exact ⟨S, I, M, by simp only [extend, hS, hI, hM], hstatics, hinstances, hmethods⟩

/-! ## Allowing -/

/-- The policy with all calls allowed. -/
def allowingAll (p : Policy) : Policy :=
  { p with allowsAllCalls := true }

/-- Does the first policy allow no more than the second? -/
def Permits (p q : Policy) : Prop :=
  ∀ m, p.allows m = true → q.allows m = true

variable {p q m}

/-- Whether a method is allowed hangs on its declaration and its arguments up to sameness. -/
theorem allows_same {m n : Method} (h : m.same n = true) (hd : m.declaration = n.declaration) : p.allows m = p.allows n := by
  have hlists : p.listsMethod m = p.listsMethod n := by
    unfold listsMethod
    congr 1
    funext k
    exact Bool.eq_iff_iff.mpr ⟨Method.same_trans (Method.same_symm h), Method.same_trans h⟩
  obtain ⟨d, as⟩ := m
  obtain ⟨_, bs⟩ := n
  obtain rfl : d = _ := hd
  rw [allows, allows, hlists]
  rfl

theorem permits_all (hq : q.allowsAllCalls = true) : p.Permits q := by
  intro m _
  simp [allows, hq]

theorem permits_of_lists (hall : p.allowsAllCalls = true → q.allowsAllCalls = true)
    (hstatics : ∀ a : Ty, p.staticTypes.any a.same = true → q.staticTypes.any a.same = true)
    (hinstances : ∀ a : Ty, p.instanceTypes.any a.same = true → q.instanceTypes.any a.same = true)
    (hmethods : ∀ n : Method, p.methods.any n.same = true → q.methods.any n.same = true) : p.Permits q := by
  intro m h
  simp only [allows, Bool.or_eq_true, Bool.and_eq_true] at h ⊢
  rcases h with ((h | h) | ⟨hg, h⟩) | h
  · exact .inl (.inl (.inl (hall h)))
  · exact .inl (.inl (.inr (hmethods m h)))
  · exact .inl (.inr ⟨hg, hmethods _ h⟩)
  · refine .inr ?_
    unfold listsType at h ⊢
    split at h
    · next hs => rw [if_pos hs]; exact hstatics _ h
    · next hs => rw [if_neg hs]; exact hinstances _ h

theorem permits_extend (p q : Policy) : p.Permits (p.extend q) := by
  obtain ⟨S, I, M, heq, hS, hI, hM⟩ := p.extend_eq q
  rw [heq]
  refine permits_of_lists id (fun a h => ?_) (fun a h => ?_) fun n h => ?_
  · rw [hS, List.any_append, h, Bool.true_or]
  · rw [hI, List.any_append, h, Bool.true_or]
  · rw [hM, List.any_append, h, Bool.true_or]

theorem permits_addMethod (p : Policy) (m : Method) : p.Permits (p.addMethod m) := by
  obtain ⟨M, heq, hM⟩ := p.addMethod_eq m
  rw [heq]
  exact permits_of_lists id (fun _ => id) (fun _ => id) fun n h => by rw [hM, List.any_append, h, Bool.true_or]

theorem addMethod_allows (p : Policy) (m : Method) : (p.addMethod m).allows m = true := by
  obtain ⟨M, heq, hM⟩ := p.addMethod_eq m
  have hlists : (p.addMethod m).listsMethod m = true := by
    rw [heq, listsMethod, hM]
    simp
  simp [allows, hlists]

theorem loadsModules_extend (p q : Policy) : (p.extend q).loadsModules = p.loadsModules := by
  obtain ⟨S, I, M, heq, -⟩ := p.extend_eq q
  rw [heq]

theorem loadsModules_addMethod (p : Policy) (m : Method) : (p.addMethod m).loadsModules = p.loadsModules := by
  obtain ⟨M, heq, -⟩ := p.addMethod_eq m
  rw [heq]

end Policy

end ExprTree
