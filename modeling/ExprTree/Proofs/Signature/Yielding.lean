import ExprTree.Proofs.Signature.Reaching

/-!
# What resolution yields

Where modules export classes, forms and modules only, every look-up finds a
class or form. So the types that are resolved are formed, whatever the text
says, and so is all that is equivalent to them; a method that is singled out is
the only one of its class that its own signature describes.
-/

namespace ExprTree

open Ty (Formed IsForm Tidy)

variable {l : Library} {loads : Bool} {names : Names}

/-! ## Looking up forms -/

/-- Is what is exported a class, a form or a module? -/
def Export.IsForm : Export → Prop
  | .type t => Ty.IsForm t
  | .module _ => True

instance (t : Ty) : Decidable (IsForm t) :=
  match t with
  | .union => isTrue (.inl rfl)
  | .cls c => isTrue (.inr ⟨c, rfl⟩)
  | .parameter .. | .variable _ | .literal _ | .generic .. | .bar _ => isFalse (by rintro (h | ⟨c, h⟩) <;> cases h)

instance (e : Export) : Decidable e.IsForm :=
  match e with
  | .type t => inferInstanceAs (Decidable (IsForm t))
  | .module _ => isTrue trivial

/-- Do modules export nothing but classes, forms and modules? -/
def Library.ExportsForms (l : Library) : Prop :=
  ∀ i ∈ l.modules, ∀ e ∈ i.exports, e.2.IsForm

instance (l : Library) : Decidable l.ExportsForms :=
  inferInstanceAs (Decidable (∀ i ∈ l.modules, ∀ e ∈ i.exports, e.2.IsForm))

/-- Are the types that are remembered classes and forms? -/
def Names.HoldsForms (names : Names) : Prop :=
  ∀ e ∈ names.found, IsForm e.2

theorem Names.holdsForms_fresh (loaded : List String) : HoldsForms ⟨loaded, []⟩ := by
  simp [HoldsForms]

namespace Library

theorem innerType_isForm {t u : Ty} {path : List String} (ht : IsForm t) (h : l.innerType t path = some u) :
    IsForm u := by
  induction path generalizing t with
  | nil =>
    cases h
    exact ht
  | cons p ps ih =>
    obtain rfl | ⟨c, rfl⟩ := ht
    · cases h
    · rw [innerType] at h
      split at h
      · exact ih (.inr ⟨_, rfl⟩) h
      · cases h

theorem scan_isForm {loaded : List String} {name : String} {t : Ty} (h : l.scan loaded name = some t) : IsForm t := by
  obtain ⟨m, -, hm⟩ := List.exists_of_findSome?_eq_some h
  obtain ⟨i, -, hi⟩ := Option.bind_eq_some_iff.mp hm
  obtain ⟨e, -, he⟩ := List.exists_of_findSome?_eq_some hi
  split at he
  · split at he
    · cases he
      exact .inr ⟨_, rfl⟩
    · cases he
  · cases he

section

variable (hexports : l.ExportsForms)

include hexports

theorem typeAt_isForm {module : String} {path : List String} {t : Ty} (h : l.typeAt module path = some t) :
    IsForm t := by
  induction path generalizing module with
  | nil => cases h
  | cons p ps ih =>
    rw [typeAt] at h
    split at h
    · next u hu =>
      obtain ⟨i, hi, hlookup⟩ := Option.bind_eq_some_iff.mp hu
      exact innerType_isForm (hexports i (List.mem_of_find?_eq_some hi) _ (mem_of_lookup hlookup)) h
    · exact ih h
    · cases h

theorem find_isForm {name : String} {hint : Option String} {loaded : List String} {t : Ty}
    (h : (l.find name hint loads loaded).1 = some t) : IsForm t :=
  find_elim (fun _ _ _ _ => typeAt_isForm hexports) (fun _ _ => scan_isForm) h

/-- What is found and what is remembered afterwards are classes and forms. -/
theorem looksUp_isForm (loads : Bool) : Signature.LooksUp l loads Names.HoldsForms IsForm := by
  intro names hnames name hint
  have hput {t : Ty} (ht : IsForm t) (e : (String × Option String × Bool) × Ty)
      (he : e ∈ ((name, hint, loads), t) :: names.found.filter (·.1 ≠ (name, hint, loads))) : IsForm e.2 := by
    obtain rfl | he := List.mem_cons.mp he
    · exact ht
    · exact hnames e (List.mem_of_mem_filter he)
  cases hlookup : names.found.lookup (name, hint, loads) with
  | some t =>
    have ht := hnames _ (mem_of_lookup hlookup)
    rw [resolveName_of_lookup hlookup]
    exact ⟨hput ht, by rintro u ⟨⟩; exact ht⟩
  | none =>
    rcases hfind : l.find name hint loads names.loaded with ⟨_ | t, loaded'⟩
    · rw [resolveName_of_miss hlookup hfind]
      exact ⟨hnames, nofun⟩
    · have ht := find_isForm hexports (congrArg Prod.fst hfind)
      rw [resolveName_of_find hlookup hfind]
      exact ⟨fun e he => hput ht e (List.mem_of_mem_take he), by rintro u ⟨⟩; exact ht⟩

end

end Library

/-! ## Types -/

namespace Ty

/-- Is the type in normal form, with positions that are short enough to be read? -/
structure IsRead (t : Ty) : Prop where
  formed : Formed t
  short : ∀ p ∈ t.positions, p < 10 ^ integerDigitLimit

theorem IsRead.of_equivalent {t t' : Ty} (h : t'.IsRead) (ht : Tidy t) (hsame : t.equivalent t' = true) : t.IsRead :=
  ⟨ht.formed h.formed hsame, fun p hp => h.short p (positions_congr hsame ▸ hp)⟩

theorem isMadeOf_isRead : Signature.IsMadeOf IsForm IsRead where
  position n hn := ⟨.parameter n "", by simpa [positions] using hn⟩
  close o as ho has := by
    refine ⟨.close ho fun a ha => (has a ha).formed, fun p hp => ?_⟩
    by_cases hne : as = []
    · subst hne
      obtain rfl | ⟨c, rfl⟩ := ho <;> simp [close, positions] at hp
    · obtain ⟨a, ha, hp⟩ := mem_positions_of_close hne hp
      exact (has a ha).short p hp

/-- Putting formed closed types for parameters in a type that was read. -/
theorem IsRead.substitute {t : Ty} {as : List Ty} (h : t.IsRead) (has : ∀ a ∈ as, a.IsRead) :
    (t.substitute as).IsRead := by
  refine ⟨h.formed.substitute fun a ha => (has a ha).formed, fun p hp => ?_⟩
  obtain ⟨s, u, hs, hu⟩ | ⟨hp, -⟩ := mem_positions_map hp
  · split at hs
    · exact (has u (filter_getElem?_eq_some hs).1).short p hu
    · cases hs
  · exact h.short p hp

end Ty

/-! ## Methods -/

/-- Declared types are tidy: they are rebuilt when the open parameters are numbered. -/
theorem Library.tidy_of_mem_methodsNamed {c : ClassName} {name : String} {m : Method} (h : m ∈ l.methodsNamed c name) :
    ∀ t ∈ m.parameterTypes, Tidy t := by
  obtain ⟨p, info, b, -, rfl⟩ := reflect_of_mem_methodsNamed h
  intro t ht
  obtain ⟨q, hq, rfl⟩ := List.mem_map.mp ht
  obtain ⟨⟨name, declared⟩, -, rfl⟩ := List.mem_map.mp hq
  refine .map (fun s u hs => ?_) declared.type
  split at hs
  · split at hs <;> cases hs <;> exact .leaf rfl
  · cases hs
    exact .leaf rfl
  · cases hs

/-- Is the method the only one of its class that its own signature describes, and can that be read? -/
structure Method.IsFound (l : Library) (m : Method) : Prop where
  declares : l.Declares m
  name : Signature.IsWord m.name
  arity : m.arity < 10 ^ integerDigitLimit
  parameters : ∀ t ∈ m.definition.parameterTypes, t.IsRead
  alone : l.namesakes m = [m.definition]

theorem Signature.IsSingledOut.isFound {text : String} {m : Method} (h : IsSingledOut l Ty.IsRead text m) :
    m.IsFound l ∧ m.definition = m := by
  obtain ⟨s, types, declaring, c, hparse, htypes, -, -, hfilter⟩ := h
  have hlegal := MemberSig.isLegal_of_parse hparse
  obtain ⟨hmem, hcandidate⟩ := List.mem_filter.mp (hfilter ▸ List.mem_singleton.mpr rfl)
  obtain ⟨rfl, hname, harguments⟩ := Library.declaring_of_mem_methodsNamed hmem
  have hdefinition : m.definition = m := by rw [Method.definition, ← harguments]
  obtain ⟨harity, hsame⟩ : m.arity = s.arity ∧ Ty.EquivalentAll m.parameterTypes types := by
    simpa [isCandidate, Ty.equivalentAll_iff] using hcandidate
  refine ⟨⟨Library.declares_of_mem hmem, hname ▸ hlegal.name, harity ▸ hlegal.arity, fun t ht => ?_, ?_⟩, hdefinition⟩
  · rw [hdefinition] at ht
    obtain ⟨u, hu, htu⟩ := forall₂_mem hsame ht
    exact (htypes u hu).of_equivalent (Library.tidy_of_mem_methodsNamed hmem t ht) htu
  · rw [Library.namesakes, hname, hdefinition, harity, ← hfilter]
    exact List.filter_congr fun k _ => isCandidate_congr hsame s.arity k

/-- A method that is closed is found as its definition is. -/
theorem Method.IsFound.close {m n : Method} {as : List Ty} (h : m.IsFound l) (hm : m.definition = m)
    (hn : m.close as = .ok n) : n.IsFound l := by
  have hdeclares := Library.declares_close (hm ▸ h.declares.definition_mem) hn
  obtain ⟨-, -, -, rfl⟩ := Method.close_eq_ok.mp hn
  exact ⟨hdeclares, h.name, h.arity, h.parameters, h.alone⟩

/-- What is put into a method's types leaves them such as can be read. -/
theorem Method.IsFound.types {m : Method} (h : m.IsFound l) (harguments : ∀ a ∈ m.arguments, a.IsRead) :
    ∀ t ∈ m.parameterTypes, t.IsRead := by
  intro t ht
  obtain ⟨p, hp, rfl⟩ := List.mem_map.mp ht
  have hread : p.2.IsRead := h.parameters p.2 (List.mem_map.mpr ⟨p, hp, rfl⟩)
  unfold Method.instantiate
  split
  · exact hread
  · exact hread.substitute harguments

end ExprTree
