import ExprTree.Proofs.Action
import ExprTree.Proofs.Ty.Sameness
import ExprTree.Signature.Resolve

/-!
# Look-ups that load nothing

Where loading is not allowed, or everything is loaded, a look-up changes only
what is remembered. As long as what is remembered is what a search finds among
the loaded modules, the outcome of a resolution hangs on these modules alone.
-/

namespace ExprTree

open Action (Settled)

namespace Library

variable {l : Library} {loads : Bool} {loaded : List String}

/-- Does no look-up load a module? -/
def LoadsNothing (l : Library) (loads : Bool) (loaded : List String) : Prop :=
  ∀ module, (l.load loads loaded module).2 = loaded

theorem loadsNothing_of_not (l : Library) (loaded : List String) : l.LoadsNothing false loaded := by
  intro module
  unfold load
  split <;> rfl

theorem loadAlong_of_loaded (h : ∀ m ∈ l.modules, m.name ∈ loaded) (ms : List String) :
    (l.loadAlong loaded ms).2 = loaded := by
  induction ms with
  | nil => rfl
  | cons m ms ih =>
    unfold loadAlong
    split
    · exact ih
    · next hnot =>
      split
      · next hsome =>
        obtain ⟨info, hinfo⟩ := Option.isSome_iff_exists.mp hsome
        have hname : info.name = m := by simpa using List.find?_some hinfo
        simp [← hname, h info (List.mem_of_find?_eq_some hinfo)] at hnot
      · rfl

theorem loadsNothing_of_loaded (h : ∀ m ∈ l.modules, m.name ∈ loaded) : l.LoadsNothing loads loaded := by
  intro module
  unfold load
  split
  · rfl
  · split
    · exact loadAlong_of_loaded h _
    · rfl

section

variable (h : l.LoadsNothing loads loaded)

include h

theorem tryModules_nothing (accepts : String → Bool) (splits : List (String × List String)) :
    (l.tryModules loads accepts loaded splits).2 = loaded := by
  induction splits with
  | nil => rfl
  | cons split rest ih =>
    obtain ⟨module, path⟩ := split
    unfold tryModules
    split
    · rcases hload : l.load loads loaded module with ⟨available, loaded'⟩
      obtain rfl : loaded' = loaded := by simpa [hload] using h module
      dsimp only
      split
      · rfl
      · exact ih
    · exact ih

theorem find_nothing (name : String) (hint : Option String) : (l.find name hint loads loaded).2 = loaded := by
  unfold find
  have hnothing := fun accepts => tryModules_nothing h accepts (splits name)
  split
  · exact hnothing _
  · next package _ =>
    have hwithin := hnothing (isWithin package)
    rcases ht : l.tryModules loads (isWithin package) loaded (splits name) with ⟨_ | t, loaded'⟩
    · rw [ht] at hwithin
      obtain rfl : loaded' = loaded := hwithin
      dsimp only
      split
      · exact hnothing _
      · rfl
    · rw [ht] at hwithin
      exact hwithin

end

/-! ## What can be found -/

section

variable {name : String} {P : Ty → Prop}

theorem tryModules_elim {rest : List (String × List String)} {accepts : String → Bool} {t : Ty}
    (hpath : ∀ module path u, (module, path) ∈ rest → l.typeAt module path = some u → P u)
    (h : (l.tryModules loads accepts loaded rest).1 = some t) : P t := by
  induction rest generalizing loaded with
  | nil => cases h
  | cons split rest ih =>
    have ih := fun {loaded} => @ih loaded fun module path u hmem => hpath module path u (List.mem_cons_of_mem _ hmem)
    obtain ⟨module, path⟩ := split
    unfold tryModules at h
    split at h
    · dsimp only at h
      split at h
      · next u hu =>
        cases h
        split at hu
        · exact hpath module path _ List.mem_cons_self hu
        · cases hu
      · exact ih h
    · exact ih h

/-- What a search finds lies on a path from a module, or calls itself by the name. -/
theorem find_elim {hint : Option String} {t : Ty}
    (hpath : ∀ module path u, (module, path) ∈ splits name → l.typeAt module path = some u → P u)
    (hscan : ∀ loaded u, l.scan loaded name = some u → P u) (h : (l.find name hint loads loaded).1 = some t) : P t := by
  unfold find at h
  obtain hfirst | ⟨-, hlast⟩ := Option.or_eq_some_iff.mp h
  · split at hfirst
    · exact tryModules_elim hpath hfirst
    · next package _ =>
      rcases ht : l.tryModules loads (isWithin package) loaded (splits name) with ⟨_ | u, loaded'⟩
      · rw [ht] at hfirst
        dsimp only at hfirst
        split at hfirst
        · exact tryModules_elim hpath hfirst
        · cases hfirst
      · rw [ht] at hfirst
        cases hfirst
        exact tryModules_elim hpath (congrArg Prod.fst ht)
  · exact hscan _ _ hlast

end

end Library

/-- The modules are loaded, and each look-up that was remembered is what a search among them finds. -/
structure Names.IsFaithful (l : Library) (loads : Bool) (loaded : List String) (names : Names) : Prop where
  loaded_eq : names.loaded = loaded
  found : ∀ name hint t, ((name, hint, loads), t) ∈ names.found → (l.find name hint loads loaded).1 = some t

theorem Names.isFaithful_fresh (l : Library) (loads : Bool) (loaded : List String) :
    IsFaithful l loads loaded ⟨loaded, []⟩ :=
  ⟨rfl, by simp⟩

namespace Library

variable {l : Library} {loaded : List String} {names : Names} {name : String} {hint : Option String} {loads : Bool}

theorem resolveName_of_lookup {t : Ty} (h : names.found.lookup (name, hint, loads) = some t) :
    l.resolveName name hint loads names =
      (some t, { names with
        found := ((name, hint, loads), t) :: names.found.filter (·.1 ≠ (name, hint, loads)) }) := by
  unfold resolveName
  simp only [h]

theorem resolveName_of_find {t : Ty} {loaded' : List String}
    (h : names.found.lookup (name, hint, loads) = none) (hfind : l.find name hint loads names.loaded = (some t, loaded')) :
    l.resolveName name hint loads names =
      (some t, ⟨loaded', (((name, hint, loads), t) ::
        names.found.filter (·.1 ≠ (name, hint, loads))).take Names.memory⟩) := by
  unfold resolveName
  simp only [h, hfind]

theorem resolveName_of_miss {loaded' : List String} (h : names.found.lookup (name, hint, loads) = none)
    (hfind : l.find name hint loads names.loaded = (none, loaded')) :
    l.resolveName name hint loads names = (none, { names with loaded := loaded' }) := by
  unfold resolveName
  simp only [h, hfind]

theorem resolveName_faithful (hnothing : l.LoadsNothing loads loaded) (h : names.IsFaithful l loads loaded)
    (name : String) (hint : Option String) :
    (l.resolveName name hint loads names).1 = (l.find name hint loads loaded).1 ∧
      (l.resolveName name hint loads names).2.IsFaithful l loads loaded := by
  have hput : ∀ t, (l.find name hint loads loaded).1 = some t → ∀ n h' u,
      ((n, h', loads), u) ∈ ((name, hint, loads), t) :: names.found.filter (·.1 ≠ (name, hint, loads)) →
        (l.find n h' loads loaded).1 = some u := by
    intro t ht n h' u hmem
    rcases List.mem_cons.mp hmem with heq | hmem
    · simp only [Prod.mk.injEq, and_true] at heq
      obtain ⟨⟨rfl, rfl⟩, rfl⟩ := heq
      exact ht
    · exact h.found n h' u (List.mem_filter.mp hmem).1
  cases hlookup : names.found.lookup (name, hint, loads) with
  | some t =>
    have ht := h.found name hint t (mem_of_lookup hlookup)
    rw [resolveName_of_lookup hlookup]
    exact ⟨ht.symm, h.loaded_eq, hput t ht⟩
  | none =>
    obtain rfl := h.loaded_eq
    have hsame := find_nothing hnothing name hint
    rcases hfind : l.find name hint loads names.loaded with ⟨_ | t, loaded'⟩
    · rw [hfind] at hsame
      obtain rfl : loaded' = names.loaded := hsame
      rw [resolveName_of_miss hlookup hfind]
      exact ⟨rfl, rfl, h.found⟩
    · rw [hfind] at hsame
      obtain rfl : loaded' = names.loaded := hsame
      rw [resolveName_of_find hlookup hfind]
      exact ⟨rfl, rfl, fun n h' u hmem => hput t (by rw [hfind]) n h' u (List.mem_of_mem_take hmem)⟩

end Library

/-! ## Resolution -/

namespace Signature

variable (l : Library) (loads : Bool) (loaded : List String)

/-- Does the resolution end the same whatever is remembered? -/
abbrev IsSettled {α : Type} (r : Resolving α) : Prop :=
  Settled (Names.IsFaithful l loads loaded) (fun _ => ()) (fun _ => True) r

variable {l loads loaded}

/-- What resolution makes of what a look-up found. -/
def answer (name : String) (hint : Option String) (found : Option Ty) : Except Fault Ty :=
  (found.filter Ty.isForm).elim (.error (.typeNotFound name hint)) .ok

theorem answer_eq_ok {name : String} {hint : Option String} {found : Option Ty} {t : Ty} :
    answer name hint found = .ok t ↔ found = some t ∧ t.isForm = true := by
  unfold answer
  cases found with
  | none => simp
  | some u =>
    rw [Option.filter_some]
    cases hu : u.isForm with
    | false => simpa using fun h : u = t => h ▸ hu
    | true => simpa using fun h : u = t => h ▸ hu

theorem resolveName_run (name : String) (hint : Option String) (names : Names) :
    (resolveName l loads name hint).run names =
      (answer name hint (l.resolveName name hint loads names).1, (l.resolveName name hint loads names).2) := by
  unfold resolveName answer
  rw [Action.run_bind_ok (Action.run_get names)]
  rcases l.resolveName name hint loads names with ⟨found, names'⟩
  refine (Action.run_bind_ok (Action.run_set names names') _).trans ?_
  cases found.filter Ty.isForm <;> rfl

theorem resolveName_settled (hnothing : l.LoadsNothing loads loaded) (name : String) (hint : Option String) :
    IsSettled l loads loaded (resolveName l loads name hint) := by
  refine ⟨answer name hint (l.find name hint loads loaded).1, by simp, ?_⟩
  intro names hnames
  obtain ⟨hfound, hfaithful⟩ := Library.resolveName_faithful hnothing hnames name hint
  rw [resolveName_run, hfound]
  exact ⟨rfl, hfaithful, rfl⟩

mutual

theorem TypeSig.resolve_settled (hnothing : l.LoadsNothing loads loaded) :
    ∀ s : TypeSig, IsSettled l loads loaded (s.resolve l loads)
  | .parameter position => .pure _
  | .named name arguments hint => by
    unfold TypeSig.resolve
    exact .bind (resolveName_settled hnothing name hint) fun origin =>
      .bind (TypeSig.resolveAll_settled hnothing arguments) fun as => .pure _

theorem TypeSig.resolveAll_settled (hnothing : l.LoadsNothing loads loaded) :
    ∀ ss : List TypeSig, IsSettled l loads loaded (TypeSig.resolveAll l loads ss)
  | [] => .pure _
  | s :: ss => by
    unfold TypeSig.resolveAll
    exact .bind (TypeSig.resolve_settled hnothing s) fun t => .bind (TypeSig.resolveAll_settled hnothing ss) fun ts => .pure _

end

section

variable (hnothing : l.LoadsNothing loads loaded)

include hnothing

theorem MemberSig.resolve_settled (s : MemberSig) : IsSettled l loads loaded (s.resolve l loads) := by
  unfold MemberSig.resolve
  refine .bind (TypeSig.resolve_settled hnothing _) fun declaring => .bind (TypeSig.resolveAll_settled hnothing _) fun types => ?_
  split
  · exact .throw trivial
  · split
    · exact .pure _
    · exact .throw trivial
    · exact .throw trivial

theorem decodeType_settled (text : String) : IsSettled l loads loaded (decodeType l loads text) := by
  unfold decodeType
  split
  · exact TypeSig.resolve_settled hnothing _
  · exact .throw trivial

theorem decodeMember_settled (text : String) : IsSettled l loads loaded (decodeMember l loads text) := by
  unfold decodeMember
  split
  · exact MemberSig.resolve_settled hnothing _
  · exact .throw trivial

end

end Signature

end ExprTree
