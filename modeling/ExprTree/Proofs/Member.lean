import ExprTree.Member
import ExprTree.Proofs.Ty.Substitution

/-!
# Declared methods

What reflection promises about the methods it finds: they are declared where
they are looked for, the open parameters of a definition have numbers below
its arity, and a definition that is closed over closed types has closed
parameters.
-/

namespace ExprTree

namespace Ty

variable {as bs cs : List Ty}

theorem sameAll_refl (as : List Ty) : sameAll as as = true :=
  sameAll_iff.mpr (List.forall₂_same.mpr fun a _ => same_refl a)

theorem sameAll_symm (h : sameAll as bs = true) : sameAll bs as = true :=
  sameAll_iff.mpr (List.Forall₂.flip ((sameAll_iff.mp h).imp fun _ _ => same_symm))

theorem sameAll_trans (h₁ : sameAll as bs = true) (h₂ : sameAll bs cs = true) : sameAll as cs = true :=
  sameAll_iff.mpr (forall₂_trans_of_mem (sameAll_iff.mp h₁) (sameAll_iff.mp h₂)
    fun _ _ _ _ => same_trans)

end Ty

namespace Method

variable {m n k : Method}

/-! ## Sameness -/

theorem same_iff : m.same n = true ↔
    m.declaring = n.declaring ∧ m.name = n.name ∧ Ty.sameAll m.parameterTypes n.parameterTypes = true ∧
      m.isStatic = n.isStatic ∧ m.arity = n.arity ∧ Ty.sameAll m.arguments n.arguments = true := by
  simp [same, and_assoc]

@[simp] theorem same_refl (m : Method) : m.same m = true := by
  simp [same_iff, Ty.sameAll_refl]

theorem same_symm (h : m.same n = true) : n.same m = true := by
  rw [same_iff] at h ⊢
  obtain ⟨hd, hn, hp, hs, ha, hg⟩ := h
  exact ⟨hd.symm, hn.symm, Ty.sameAll_symm hp, hs.symm, ha.symm, Ty.sameAll_symm hg⟩

theorem same_trans (h₁ : m.same n = true) (h₂ : n.same k = true) : m.same k = true := by
  rw [same_iff] at h₁ h₂ ⊢
  obtain ⟨hd, hn, hp, hs, ha, hg⟩ := h₁
  obtain ⟨hd', hn', hp', hs', ha', hg'⟩ := h₂
  exact ⟨hd.trans hd', hn.trans hn', Ty.sameAll_trans hp hp', hs.trans hs', ha.trans ha',
    Ty.sameAll_trans hg hg'⟩

/-! ## Closing -/

theorem close_eq_ok {as : List Ty} :
    m.close as = .ok n ↔
      m.isDefinition = true ∧ as.length = m.arity ∧ (∀ a ∈ as, a.isOpen = false) ∧
        n = { m with arguments := as } := by
  unfold close
  cases hd : m.isDefinition with
  | false => simp
  | true =>
    by_cases hl : as.length = m.arity
    · by_cases hall : ∀ a ∈ as, a.isOpen = false
      · have hopen : as.any Ty.isOpen = false := by simpa using hall
        simp only [hl, hopen, eq_comm (a := n)]
        simpa using fun _ => hall
      · have hopen : as.any Ty.isOpen = true := by simpa using hall
        simp only [hl, hopen, hall]
        simp
    · simp [hl]

theorem isDefinition_of_close {as : List Ty} (h : m.close as = .ok n) : n.isDefinition = false := by
  obtain ⟨hd, hl, -, rfl⟩ := close_eq_ok.mp h
  simp only [isDefinition, isGeneric, Bool.and_eq_true, decide_eq_true_eq] at hd
  have : as ≠ [] := by rintro rfl; simp at hl; omega
  simp [isDefinition, this]

/-- Methods that are the same are open definitions together. -/
theorem isDefinition_same (h : m.same n = true) : m.isDefinition = n.isDefinition := by
  obtain ⟨-, -, -, -, harity, harguments⟩ := same_iff.mp h
  have hempty : m.arguments.isEmpty = n.arguments.isEmpty := by
    generalize m.arguments = as, n.arguments = bs at harguments
    cases as <;> cases bs <;> simp_all [Ty.sameAll]
  rw [isDefinition, isDefinition, isGeneric, isGeneric, harity, hempty]

/-! ## Closing over equivalent types -/

section

variable {as : List Ty} (hs : Ty.EquivalentAll m.arguments as) (hm : ∀ a ∈ m.arguments, Ty.Tidy a)
  (has : ∀ a ∈ as, Ty.Tidy a)

include hs

theorem isEmpty_congr : as.isEmpty = m.arguments.isEmpty := by
  generalize m.arguments = bs at hs
  cases hs <;> rfl

theorem isDefinition_congr : Method.isDefinition { m with arguments := as } = m.isDefinition := by
  unfold isDefinition
  rw [isEmpty_congr hs]
  rfl

include hm has

theorem instantiate_congr (t : Ty) :
    (m.instantiate t).equivalent (Method.instantiate { m with arguments := as } t) = true := by
  unfold instantiate
  simp only [isEmpty_congr hs]
  split
  · exact Ty.equivalent_refl t
  · exact Ty.substitute_congr (Ty.equivalent_refl t) hm has hs

theorem parameterTypes_congr :
    Ty.EquivalentAll m.parameterTypes (Method.parameterTypes { m with arguments := as }) := by
  unfold parameterTypes Ty.EquivalentAll
  rw [List.forall₂_map_left_iff, List.forall₂_map_right_iff, List.forall₂_same]
  exact fun p _ => instantiate_congr hs hm has p.2

theorem same_reclosed : m.same { m with arguments := as } = true := by
  have hsame {ts us : List Ty} (h : Ty.EquivalentAll ts us) : Ty.sameAll ts us = true :=
    Ty.sameAll_iff.mpr (h.imp fun _ _ => Ty.same_of_equivalent)
  exact same_iff.mpr ⟨rfl, rfl, hsame (parameterTypes_congr hs hm has), rfl, rfl, hsame hs⟩

end

end Method

/-! ## Reflection -/

namespace Prototype

theorem typeParameters_idxOf {ps : List String} {v : String} {i : Nat} (h : ps.idxOf? v = some i) :
    i < ps.length := by
  rw [List.idxOf?, List.findIdx?_eq_some_iff_getElem] at h
  exact h.1

/-- Numbering a type without numbers leaves numbers of the parameters only. -/
theorem mem_positions_number {ps : List String} {t : Ty} {p : Nat} (ht : t.isOpen = false)
    (hp : p ∈ (number ps t).positions) : p < ps.length := by
  obtain ⟨s, u, hs, hu⟩ | ⟨h, -⟩ := Ty.mem_positions_map hp
  · split at hs
    · split at hs
      · next i hi =>
        cases hs
        obtain rfl : p = i := by simpa [Ty.positions] using hu
        exact typeParameters_idxOf hi
      · cases hs
        simp [Ty.object, Ty.positions] at hu
    · cases hs
      simp [Ty.nothing, Ty.positions] at hu
    · cases hs
  · simp [Ty.isOpen_eq_false_iff.mp ht] at h

end Prototype

namespace Method

/-- Does the declaration number its open parameters below its arity? -/
def IsNumbered (m : Method) : Prop :=
  ∀ t ∈ m.declaration.parameters.map (·.2) ++ [m.declaration.result], ∀ p ∈ t.positions, p < m.arity

theorem isNumbered_reflect (p : Prototype) (info : ClassInfo) (name : String) (b : Binding) :
    (p.reflect info name b).IsNumbered := by
  intro t ht q hq
  rw [List.mem_append, List.mem_singleton] at ht
  rcases ht with ht | rfl
  · simp only [Prototype.reflect, List.map_map, List.mem_map, Function.comp] at ht
    obtain ⟨⟨_, a⟩, -, rfl⟩ := ht
    exact Prototype.mem_positions_number a.isOpen_type hq
  · exact Prototype.mem_positions_number p.result.isOpen_type hq

section

variable {m : Method} (ha : m.arguments = [] ∨ m.arguments.length = m.arity)
  (hclosed : ∀ a ∈ m.arguments, a.isOpen = false) (hnull : ∀ a ∈ m.arguments, a.isNull = false)
  (hd : m.isDefinition = false)

include ha hclosed hnull hd

/-- A numbered type is closed in a method that is no open definition. -/
theorem isOpen_instantiate {t : Ty} (ht : ∀ p ∈ t.positions, p < m.arity) : (m.instantiate t).isOpen = false := by
  unfold instantiate
  split
  · next hempty =>
    have harity : m.arity = 0 := by
      simpa [isDefinition, isGeneric, hempty] using hd
    rw [Ty.isOpen_eq_false_iff, List.eq_nil_iff_forall_not_mem]
    intro p hp
    have := ht p hp
    omega
  · next hne =>
    rcases ha with ha | ha
    · simp [ha] at hne
    · exact Ty.isOpen_substitute (ha ▸ ht) hclosed hnull

/-- The parameters of a method that is no open definition are closed. -/
theorem isOpen_of_mem_parameterTypes (hm : m.IsNumbered) {t : Ty} (ht : t ∈ m.parameterTypes) :
    t.isOpen = false := by
  obtain ⟨⟨n, s⟩, hs, rfl⟩ := List.mem_map.mp ht
  exact isOpen_instantiate ha hclosed hnull hd (hm s (List.mem_append_left _ (List.mem_map.mpr ⟨_, hs, rfl⟩)))

end

end Method

namespace Library

variable {l : Library} {c : ClassName} {name : String} {m : Method}

theorem class?_name {info : ClassInfo} (h : l.class? c = some info) : info.name = c := by
  simpa using List.find?_some h

/-- Every method that is found comes from one prototype of the class. -/
theorem reflect_of_mem_methodsNamed (h : m ∈ l.methodsNamed c name) :
    ∃ p info b, l.class? c = some info ∧ m = Prototype.reflect p info name b := by
  unfold methodsNamed at h
  split at h
  · next info hinfo =>
    cases ha : info.attributes.lookup name with
    | none => simp [ha] at h
    | some a =>
      rw [ha] at h
      cases a with
      | method b overloads =>
        simp only [Option.map_some, Option.getD_some, Attribute.methods, List.mem_map] at h
        obtain ⟨p, -, rfl⟩ := h
        exact ⟨p, info, b, hinfo, rfl⟩
      | native ps =>
        simp only [Option.map_some, Option.getD_some, Attribute.methods, List.mem_singleton] at h
        exact ⟨_, info, _, hinfo, h⟩
      | _ => simp [Attribute.methods] at h
  · cases h

theorem declaring_of_mem_methodsNamed (h : m ∈ l.methodsNamed c name) :
    m.declaring = c ∧ m.name = name ∧ m.arguments = [] := by
  obtain ⟨p, info, b, hinfo, rfl⟩ := reflect_of_mem_methodsNamed h
  exact ⟨class?_name hinfo, rfl, rfl⟩

theorem isNumbered_of_mem_methodsNamed (h : m ∈ l.methodsNamed c name) : m.IsNumbered := by
  obtain ⟨p, info, b, -, rfl⟩ := reflect_of_mem_methodsNamed h
  exact Method.isNumbered_reflect p info name b

/-- Is the method one that its class declares, or such a method closed over types? -/
def Declares (l : Library) (m : Method) : Prop :=
  ∃ d ∈ l.methodsNamed m.declaring m.name, m = d ∨ ∃ as, d.close as = .ok m

theorem declares_of_mem (h : m ∈ l.methodsNamed c name) : l.Declares m := by
  obtain ⟨rfl, rfl, -⟩ := declaring_of_mem_methodsNamed h
  exact ⟨m, h, .inl rfl⟩

theorem declares_close {n : Method} {as : List Ty} (h : m ∈ l.methodsNamed c name) (hn : m.close as = .ok n) :
    l.Declares n := by
  obtain ⟨rfl, rfl, -⟩ := declaring_of_mem_methodsNamed h
  obtain ⟨-, -, -, rfl⟩ := Method.close_eq_ok.mp hn
  exact ⟨m, h, .inr ⟨as, hn⟩⟩

/-- A declared method that is no open definition has closed parameters. -/
theorem Declares.closedParameters (h : l.Declares m) (hnull : ∀ a ∈ m.arguments, a.isNull = false)
    (hd : m.isDefinition = false) {t : Ty} (ht : t ∈ m.parameterTypes) : t.isOpen = false := by
  obtain ⟨d, hmem, rfl | ⟨as, has⟩⟩ := h
  · have harguments := (declaring_of_mem_methodsNamed hmem).2.2
    exact Method.isOpen_of_mem_parameterTypes (.inl harguments) (by simp [harguments]) hnull hd
      (isNumbered_of_mem_methodsNamed hmem) ht
  · obtain ⟨-, hlength, hclosed, rfl⟩ := Method.close_eq_ok.mp has
    have hnumbered : Method.IsNumbered { d with arguments := as } := isNumbered_of_mem_methodsNamed (m := d) hmem
    exact Method.isOpen_of_mem_parameterTypes (.inr hlength) hclosed hnull hd hnumbered ht

/-! ## Data members -/

/-- Is the member a property or a field that is found in some class? -/
def HasMember (l : Library) (m : DataMember) : Prop :=
  ∃ c, l.property c m.name = .ok m ∨ l.field c m.name = .ok m

theorem lineage_of_mem {info : ClassInfo} (h : info ∈ l.lineage c) : ∃ rest, l.lineage info.name = info :: rest := by
  have hclass : ∃ d, l.class? d = some info := by
    unfold lineage at h
    split at h
    · next i hi =>
      rcases List.mem_cons.mp h with rfl | h
      · exact ⟨c, hi⟩
      · obtain ⟨d, -, hd⟩ := List.mem_filterMap.mp h
        exact ⟨d, hd⟩
    · cases h
  obtain ⟨d, hd⟩ := hclass
  obtain rfl := class?_name hd
  exact ⟨_, by rw [lineage, hd]⟩

/-- A property is found in the class that declares it. -/
theorem property_search {d : DataMember} {infos : List ClassInfo} (h : property.search c name infos = .ok d) :
    ∃ info ∈ infos, info.name = d.declaring ∧ d.name = name ∧ d.isProperty = true ∧
      ∀ c' rest, property.search c' name (info :: rest) = .ok d := by
  induction infos with
  | nil => cases h
  | cons info infos ih =>
    unfold property.search at h
    split at h
    · next result readable writable hattribute =>
      split at h
      · cases h
      · next hdefined =>
        cases h
        refine ⟨info, by simp, rfl, rfl, rfl, fun c' rest => ?_⟩
        unfold property.search
        simp only [hattribute, hdefined]
    · obtain ⟨i, hi, hrest⟩ := ih h
      exact ⟨i, by simp [hi], hrest⟩

/-- A field is found in the class that declares it. -/
theorem field_search {d : DataMember} {infos : List ClassInfo} (h : field.search l c name infos = .ok d) :
    ∃ info ∈ infos, info.name = d.declaring ∧ d.name = name ∧ d.isProperty = false ∧
      ∀ c' rest, field.search l c' name (info :: rest) = .ok d := by
  induction infos with
  | nil => cases h
  | cons info infos ih =>
    unfold field.search at h
    split at h
    · next f hfield =>
      split at h
      · cases h
      · next hdefined =>
        split at h
        · cases h
        · next hshared =>
          cases h
          refine ⟨info, by simp, rfl, rfl, rfl, fun c' rest => ?_⟩
          unfold field.search
          simp only [hfield, hdefined, hshared]
          rfl
    · next hfield =>
      split at h
      · next hslot =>
        cases h
        refine ⟨info, by simp, rfl, rfl, rfl, fun c' rest => ?_⟩
        unfold field.search
        simp only [hfield, hslot, if_true]
      · obtain ⟨i, hi, hrest⟩ := ih h
        exact ⟨i, by simp [hi], hrest⟩

theorem hasMember_of_property {d : DataMember} (h : l.property c name = .ok d) : l.HasMember d := by
  obtain ⟨-, -, -, rfl, -⟩ := property_search h
  exact ⟨c, .inl h⟩

theorem hasMember_of_field {d : DataMember} (h : l.field c name = .ok d) : l.HasMember d := by
  obtain ⟨-, -, -, rfl, -⟩ := field_search h
  exact ⟨c, .inr h⟩

/-- A member is found again by its name in the class that declares it. -/
theorem HasMember.found {d : DataMember} (h : l.HasMember d) :
    (if d.isProperty then l.property d.declaring d.name else l.field d.declaring d.name) = .ok d := by
  obtain ⟨c, h | h⟩ := h
  · obtain ⟨info, hmem, hname, -, hproperty, hfirst⟩ := property_search h
    obtain ⟨rest, hrest⟩ := lineage_of_mem hmem
    rw [hproperty, if_pos rfl, ← hname, property, hrest, hfirst]
  · obtain ⟨info, hmem, hname, -, hproperty, hfirst⟩ := field_search h
    obtain ⟨rest, hrest⟩ := lineage_of_mem hmem
    rw [hproperty, if_neg Bool.false_ne_true, ← hname, field, hrest, hfirst]

end Library

end ExprTree
