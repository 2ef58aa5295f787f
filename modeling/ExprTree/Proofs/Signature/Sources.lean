import ExprTree.Proofs.Signature.Lookup

/-!
# Where names are found

A look-up that may not load finds its name in a module that is loaded already,
also when it only remembers what it found: what is remembered was found in a
module that was loaded then, and modules stay loaded.
-/

namespace ExprTree

namespace Library

variable {l : Library} {loaded loaded' : List String} {name : String} {t : Ty}

/-- The name leads to the type from one of the loaded modules: along a path that starts in it, or because it exports a
class that calls itself by the name. -/
inductive FoundIn (l : Library) (loaded : List String) (name : String) (t : Ty) : Prop where
  | path (module : String) (path : List String) (hloaded : module ∈ loaded) (hsplit : (module, path) ∈ splits name)
    (hfound : l.typeAt module path = some t)
  | scan (module : String) (info : ModuleInfo) (key : String) (c : ClassName) (hloaded : module ∈ loaded)
    (hinfo : l.module? module = some info) (hexport : (key, Export.type (.cls c)) ∈ info.exports)
    (hname : c.dotted = name) (hclass : t = .cls c)

theorem FoundIn.mono (h : l.FoundIn loaded name t) (hsub : loaded ⊆ loaded') : l.FoundIn loaded' name t := by
  cases h with
  | path module path hloaded hsplit hfound => exact .path module path (hsub hloaded) hsplit hfound
  | scan module info key c hloaded hinfo hexport hname hclass =>
    exact .scan module info key c (hsub hloaded) hinfo hexport hname hclass

theorem foundIn_of_scan (h : l.scan loaded name = some t) : l.FoundIn loaded name t := by
  unfold scan at h
  obtain ⟨module, hloaded, h⟩ := List.exists_of_findSome?_eq_some h
  obtain ⟨info, hinfo, h⟩ := Option.bind_eq_some_iff.mp h
  obtain ⟨⟨key, e⟩, hexport, h⟩ := List.exists_of_findSome?_eq_some h
  split at h
  · next c heq =>
    cases heq
    split at h
    · next hname =>
      cases h
      exact .scan module info key c hloaded hinfo hexport hname rfl
    · cases h
  · cases h

/-- Without loading, only a module that is loaded is available. -/
theorem available_false {module : String} (h : (l.load false loaded module).1 = true) : module ∈ loaded := by
  unfold load at h
  split at h
  · next hloaded => simpa using hloaded
  · simp at h

theorem foundIn_of_tryModules {accepts : String → Bool} {rest : List (String × List String)}
    (hrest : rest ⊆ splits name) (h : (l.tryModules false accepts loaded rest).1 = some t) : l.FoundIn loaded name t := by
  induction rest with
  | nil => cases h
  | cons split rest ih =>
    obtain ⟨module, path⟩ := split
    have ih := ih fun s hs => hrest (List.mem_cons_of_mem _ hs)
    unfold tryModules at h
    split at h
    · have hsame := loadsNothing_of_not l loaded module
      rcases hload : l.load false loaded module with ⟨available, loaded'⟩
      rw [hload] at h hsame
      obtain rfl : loaded' = loaded := hsame
      dsimp only at h
      split at h
      · next u hfound =>
        cases h
        split at hfound
        · next havailable =>
          have hmem : module ∈ loaded' := available_false (l := l) (by rw [hload]; exact havailable)
          exact .path module path hmem (hrest List.mem_cons_self) hfound
        · cases hfound
      · exact ih h
    · exact ih h

theorem foundIn_of_find {hint : Option String} (h : (l.find name hint false loaded).1 = some t) :
    l.FoundIn loaded name t := by
  have hnothing := fun accepts => tryModules_nothing (loadsNothing_of_not l loaded) accepts (splits name)
  have hlast : ∀ {first : Option Ty}, (∀ u, first = some u → l.FoundIn loaded name u) →
      first.or (l.scan loaded name) = some t → l.FoundIn loaded name t := by
    rintro (_ | u) hfirst h
    · exact foundIn_of_scan h
    · cases h
      exact hfirst _ rfl
  have htry : ∀ accepts u, (l.tryModules false accepts loaded (splits name)).1 = some u → l.FoundIn loaded name u :=
    fun accepts u => foundIn_of_tryModules fun _ => id
  unfold find at h
  split at h
  · simp only [hnothing] at h
    exact hlast (htry _) h
  · next package _ =>
    rcases ht : l.tryModules false (isWithin package) loaded (splits name) with ⟨_ | u, loaded'⟩
    · have hsame := hnothing (isWithin package)
      rw [ht] at hsame
      obtain rfl : loaded' = loaded := hsame
      simp only [ht] at h
      split at h
      · simp only [hnothing] at h
        exact hlast (htry _) h
      · exact hlast (by rintro u ⟨⟩) h
    · simp only [ht] at h
      cases h
      exact htry _ _ (by rw [ht])

/-! ## Modules stay loaded -/

/-- Modules that exist are loaded after those that were. -/
def Grows (l : Library) (loaded later : List String) : Prop :=
  ∃ more, later = loaded ++ more ∧ ∀ m ∈ more, (l.module? m).isSome = true

theorem Grows.refl (loaded : List String) : l.Grows loaded loaded :=
  ⟨[], by simp, by simp⟩

theorem Grows.trans {later last : List String} (h₁ : l.Grows loaded later) (h₂ : l.Grows later last) :
    l.Grows loaded last := by
  obtain ⟨more, rfl, hmore⟩ := h₁
  obtain ⟨more', rfl, hmore'⟩ := h₂
  exact ⟨more ++ more', by simp, fun m hm => (List.mem_append.mp hm).elim (hmore m) (hmore' m)⟩

theorem Grows.subset {later : List String} (h : l.Grows loaded later) : loaded ⊆ later := by
  obtain ⟨more, rfl, -⟩ := h
  exact List.subset_append_left loaded more

theorem grows_loadAlong (loaded ms : List String) : l.Grows loaded (l.loadAlong loaded ms).2 := by
  induction ms generalizing loaded with
  | nil => exact .refl loaded
  | cons m ms ih =>
    unfold loadAlong
    split
    · exact ih loaded
    · split
      · next hexists => exact Grows.trans ⟨[m], rfl, by simpa using hexists⟩ (ih _)
      · exact .refl loaded

theorem grows_load (loads : Bool) (loaded : List String) (module : String) :
    l.Grows loaded (l.load loads loaded module).2 := by
  unfold load
  split
  · exact .refl loaded
  · split
    · exact grows_loadAlong loaded _
    · exact .refl loaded

theorem grows_tryModules (loads : Bool) (accepts : String → Bool) (loaded : List String)
    (rest : List (String × List String)) : l.Grows loaded (l.tryModules loads accepts loaded rest).2 := by
  induction rest generalizing loaded with
  | nil => exact .refl loaded
  | cons split rest ih =>
    obtain ⟨module, path⟩ := split
    unfold tryModules
    split
    · have hload := grows_load (l := l) loads loaded module
      dsimp only
      split
      · exact hload
      · exact hload.trans (ih _)
    · exact ih loaded

theorem grows_find (name : String) (hint : Option String) (loads : Bool) (loaded : List String) :
    l.Grows loaded (l.find name hint loads loaded).2 := by
  have htry := fun accepts loaded => grows_tryModules (l := l) loads accepts loaded (splits name)
  unfold find
  split
  · exact htry _ loaded
  · next package _ =>
    have hwithin := htry (isWithin package) loaded
    rcases ht : l.tryModules loads (isWithin package) loaded (splits name) with ⟨_ | t, loaded'⟩
    · rw [ht] at hwithin
      dsimp only
      split
      · exact hwithin.trans (htry _ loaded')
      · exact hwithin
    · rw [ht] at hwithin
      exact hwithin

theorem loaded_subset_find (name : String) (hint : Option String) (loads : Bool) (loaded : List String) :
    loaded ⊆ (l.find name hint loads loaded).2 :=
  (grows_find name hint loads loaded).subset

end Library

/-! ## A history of look-ups -/

/-- What is loaded and remembered after any look-ups, with and without loading, and any loading in between. -/
inductive Names.HasHistory (l : Library) : Names → Prop where
  | start (loaded : List String) : HasHistory l ⟨loaded, []⟩
  | lookUp {names : Names} (name : String) (hint : Option String) (loads : Bool) (h : HasHistory l names) :
      HasHistory l (l.resolveName name hint loads names).2
  | load {names : Names} (more : List String) (h : HasHistory l names) :
      HasHistory l { names with loaded := names.loaded ++ more }

/-- What is remembered of look-ups that may not load is found in the loaded modules. -/
def Names.IsSourced (l : Library) (names : Names) : Prop :=
  ∀ name hint t, ((name, hint, false), t) ∈ names.found → l.FoundIn names.loaded name t

namespace Library

variable {l : Library} {names : Names}

theorem loaded_subset_resolveName (name : String) (hint : Option String) (loads : Bool) (names : Names) :
    names.loaded ⊆ (l.resolveName name hint loads names).2.loaded := by
  cases hlookup : names.found.lookup (name, hint, loads) with
  | some t =>
    rw [resolveName_of_lookup hlookup]
    exact List.Subset.refl _
  | none =>
    have hsub := loaded_subset_find (l := l) name hint loads names.loaded
    rcases hfind : l.find name hint loads names.loaded with ⟨_ | t, loaded'⟩
    · rw [resolveName_of_miss hlookup hfind]
      rw [hfind] at hsub
      exact hsub
    · rw [resolveName_of_find hlookup hfind]
      rw [hfind] at hsub
      exact hsub

/-- A look-up that may not load loads nothing. -/
theorem resolveName_loaded (name : String) (hint : Option String) (names : Names) :
    (l.resolveName name hint false names).2.loaded = names.loaded := by
  cases hlookup : names.found.lookup (name, hint, false) with
  | some t => rw [resolveName_of_lookup hlookup]
  | none =>
    have hsame := find_nothing (loadsNothing_of_not l names.loaded) name hint
    rcases hfind : l.find name hint false names.loaded with ⟨_ | t, loaded'⟩
    · rw [resolveName_of_miss hlookup hfind]
      rwa [hfind] at hsame
    · rw [resolveName_of_find hlookup hfind]
      rwa [hfind] at hsame

theorem foundIn_of_resolveName (h : names.IsSourced l) {name : String} {hint : Option String} {t : Ty}
    (ht : (l.resolveName name hint false names).1 = some t) : l.FoundIn names.loaded name t := by
  cases hlookup : names.found.lookup (name, hint, false) with
  | some u =>
    rw [resolveName_of_lookup hlookup] at ht
    cases ht
    exact h name hint _ (mem_of_lookup hlookup)
  | none =>
    rcases hfind : l.find name hint false names.loaded with ⟨_ | u, loaded'⟩
    · rw [resolveName_of_miss hlookup hfind] at ht
      cases ht
    · rw [resolveName_of_find hlookup hfind] at ht
      cases ht
      have hfirst : (l.find name hint false names.loaded).1 = some _ := congrArg Prod.fst hfind
      exact foundIn_of_find hfirst

/-- What a look-up adds to what is remembered is its own result. -/
theorem mem_found_resolveName {name : String} {hint : Option String} {loads : Bool} {e : (String × Option String × Bool) × Ty}
    (he : e ∈ (l.resolveName name hint loads names).2.found) :
    e ∈ names.found ∨ e.1 = (name, hint, loads) ∧ (l.resolveName name hint loads names).1 = some e.2 := by
  cases hlookup : names.found.lookup (name, hint, loads) with
  | some t =>
    rw [resolveName_of_lookup hlookup] at he ⊢
    obtain rfl | he := List.mem_cons.mp he
    · exact .inr ⟨rfl, rfl⟩
    · exact .inl (List.mem_filter.mp he).1
  | none =>
    rcases hfind : l.find name hint loads names.loaded with ⟨_ | t, loaded'⟩
    · rw [resolveName_of_miss hlookup hfind] at he
      exact .inl he
    · rw [resolveName_of_find hlookup hfind] at he ⊢
      obtain rfl | he := List.mem_cons.mp (List.mem_of_mem_take he)
      · exact .inr ⟨rfl, rfl⟩
      · exact .inl (List.mem_filter.mp he).1

end Library

namespace Names

variable {l : Library} {names : Names}

theorem IsSourced.lookUp (h : names.IsSourced l) (name : String) (hint : Option String) (loads : Bool) :
    (l.resolveName name hint loads names).2.IsSourced l := by
  intro n h' t hmem
  have hsub := Library.loaded_subset_resolveName (l := l) name hint loads names
  obtain hold | ⟨heq, hfound⟩ := Library.mem_found_resolveName hmem
  · exact (h n h' t hold).mono hsub
  · cases heq
    exact (Library.foundIn_of_resolveName h hfound).mono hsub

theorem HasHistory.isSourced (h : names.HasHistory l) : names.IsSourced l := by
  induction h with
  | start loaded => exact fun _ _ _ hmem => absurd hmem List.not_mem_nil
  | lookUp name hint loads _ ih => exact ih.lookUp name hint loads
  | load more _ ih => exact fun name hint t hmem => (ih name hint t hmem).mono (List.subset_append_left _ _)

end Names

end ExprTree
