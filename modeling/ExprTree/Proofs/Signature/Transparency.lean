import ExprTree.Proofs.Signature.Sources

/-!
# What is remembered makes no difference

A look-up that found something finds something again whatever was loaded
since, and loads nothing more. So as long as no name comes to denote something
else, an answer that is remembered is the one that a search would give, and it
leaves the same modules loaded, whichever of the answers were forgotten.
-/

namespace ExprTree

namespace Library

variable {l : Library} {loads available : Bool} {loaded loaded' later : List String} {name : String}
  {hint : Option String} {t : Ty}

/-! ## Searching again -/

theorem loadAlong_again {ms : List String} (h : l.loadAlong loaded ms = (available, loaded'))
    (hgrows : l.Grows loaded' later) :
    (l.loadAlong later ms).2 = later ∧ (available = true → (l.loadAlong later ms).1 = true) := by
  induction ms generalizing loaded with
  | nil => exact ⟨rfl, fun _ => rfl⟩
  | cons m ms ih =>
    unfold loadAlong at h
    split at h
    · next hmem =>
      have hsub : loaded ⊆ later := ((congrArg Prod.snd h ▸ grows_loadAlong loaded ms).trans hgrows).subset
      have hlater : later.contains m = true := by simpa using hsub (by simpa using hmem)
      rw [loadAlong, if_pos hlater]
      exact ih h
    · next hnot =>
      split at h
      · next hexists =>
        have hsub : loaded ++ [m] ⊆ later := ((congrArg Prod.snd h ▸ grows_loadAlong _ ms).trans hgrows).subset
        have hlater : later.contains m = true := by simpa using hsub (by simp)
        rw [loadAlong, if_pos hlater]
        exact ih h
      · next hmissing =>
        cases h
        obtain ⟨more, rfl, hmore⟩ := hgrows
        -- only modules that exist are ever loaded
        have hlater : ¬ (loaded' ++ more).contains m = true := by
          have hm : m ∉ more := fun hm => hmissing (hmore m hm)
          simpa [hm] using hnot
        rw [loadAlong, if_neg hlater, if_neg hmissing]
        exact ⟨rfl, by simp⟩

theorem load_again {module : String} (h : l.load loads loaded module = (available, loaded'))
    (hgrows : l.Grows loaded' later) :
    (l.load loads later module).2 = later ∧ (available = true → (l.load loads later module).1 = true) := by
  unfold load at h
  by_cases hlater : later.contains module = true
  · rw [load, if_pos hlater]
    exact ⟨rfl, fun _ => rfl⟩
  · split at h
    · next hmem =>
      cases h
      exact absurd (by simpa using hgrows.subset (by simpa using hmem)) hlater
    · split at h
      · next hmay =>
        rw [load, if_neg hlater, if_pos hmay]
        exact loadAlong_again h hgrows
      · next hmay =>
        cases h
        rw [load, if_neg hlater, if_neg hmay]
        exact ⟨rfl, by simp⟩

theorem tryModules_again {accepts : String → Bool} {rest : List (String × List String)} {found : Option Ty}
    (h : l.tryModules loads accepts loaded rest = (found, loaded')) (hgrows : l.Grows loaded' later) :
    (l.tryModules loads accepts later rest).2 = later ∧
      (found.isSome = true → (l.tryModules loads accepts later rest).1.isSome = true) := by
  induction rest generalizing loaded with
  | nil =>
    cases h
    exact ⟨rfl, id⟩
  | cons split rest ih =>
    obtain ⟨module, path⟩ := split
    unfold tryModules at h ⊢
    split at h
    · next haccepts =>
      rw [if_pos haccepts]
      rcases hload : l.load loads loaded module with ⟨available, loaded₁⟩
      rcases hload' : l.load loads later module with ⟨available', later'⟩
      rw [hload] at h
      dsimp only at h ⊢
      split at h
      · next t hfound =>
        cases h
        obtain ⟨hsame, havailable⟩ := load_again hload hgrows
        rw [hload'] at hsame havailable
        obtain rfl : later' = later := hsame
        split at hfound
        · next hyes =>
          obtain rfl : available' = true := havailable hyes
          simp [hfound]
        · cases hfound
      · have hgrows₁ : l.Grows loaded₁ later := (congrArg Prod.snd h ▸ grows_tryModules loads accepts loaded₁ rest).trans hgrows
        obtain ⟨hsame, -⟩ := load_again hload hgrows₁
        rw [hload'] at hsame
        obtain rfl : later' = later := hsame
        split
        · exact ⟨rfl, fun _ => rfl⟩
        · exact ih h
    · next haccepts =>
      rw [if_neg haccepts]
      exact ih h

/-- The part of a search that tries splits: within the hinted package, and anywhere if the hint is trusted or missing. -/
def trySplits (l : Library) (name : String) (hint : Option String) (loads : Bool) (loaded : List String) :
    Option Ty × List String :=
  match hint.filter (!·.isEmpty) with
  | none => l.tryModules loads (fun _ => true) loaded (splits name)
  | some h =>
    match l.tryModules loads (isWithin h) loaded (splits name) with
    | (none, loaded) =>
      if l.standard.contains h then l.tryModules loads (fun _ => true) loaded (splits name) else (none, loaded)
    | r => r

theorem find_eq (l : Library) (name : String) (hint : Option String) (loads : Bool) (loaded : List String) :
    l.find name hint loads loaded =
      ((l.trySplits name hint loads loaded).1.or (l.scan (l.trySplits name hint loads loaded).2 name),
        (l.trySplits name hint loads loaded).2) :=
  rfl

theorem trySplits_again {found : Option Ty} (h : l.trySplits name hint loads loaded = (found, loaded'))
    (hgrows : l.Grows loaded' later) :
    (l.trySplits name hint loads later).2 = later ∧
      (found.isSome = true → (l.trySplits name hint loads later).1.isSome = true) := by
  unfold trySplits at h ⊢
  split at h
  · exact tryModules_again h hgrows
  · next package _ =>
    rcases hwithin : l.tryModules loads (isWithin package) loaded (splits name) with ⟨_ | t, loaded₁⟩
    · rw [hwithin] at h
      dsimp only at h
      have hgrows₁ : l.Grows loaded₁ later := by
        split at h
        · exact (congrArg Prod.snd h ▸ grows_tryModules loads _ loaded₁ _).trans hgrows
        · cases h
          exact hgrows
      obtain ⟨hsame, -⟩ := tryModules_again hwithin hgrows₁
      -- what is loaded since may be within the package, and then nothing else is tried
      rcases hwithin' : l.tryModules loads (isWithin package) later (splits name) with ⟨_ | u, later'⟩
      · rw [hwithin'] at hsame
        obtain rfl : later' = later := hsame
        dsimp only
        split at h
        · next htrusted =>
          rw [if_pos htrusted]
          exact tryModules_again h hgrows
        · next htrusted =>
          cases h
          rw [if_neg htrusted]
          exact ⟨rfl, id⟩
      · rw [hwithin'] at hsame
        exact ⟨hsame, fun _ => rfl⟩
    · rw [hwithin] at h
      cases h
      obtain ⟨hsame, hfound⟩ := tryModules_again hwithin hgrows
      rcases hwithin' : l.tryModules loads (isWithin package) later (splits name) with ⟨_ | u, later'⟩
      · rw [hwithin'] at hfound
        cases hfound rfl
      · rw [hwithin'] at hsame
        exact ⟨hsame, fun _ => rfl⟩

theorem scan_again (h : l.scan loaded name = some t) (hgrows : l.Grows loaded later) :
    l.scan later name = some t := by
  obtain ⟨more, rfl, -⟩ := hgrows
  unfold scan at h ⊢
  rw [List.findSome?_append, h, Option.some_or]

/-- What was found once is found again, or something else is in its place, and nothing is loaded for it. -/
theorem find_again (h : l.find name hint loads loaded = (some t, loaded')) (hgrows : l.Grows loaded' later) :
    ∃ u, l.find name hint loads later = (some u, later) := by
  rcases htried : l.trySplits name hint loads loaded with ⟨first, loaded₁⟩
  rcases htried' : l.trySplits name hint loads later with ⟨first', later'⟩
  simp only [find_eq, htried, Prod.mk.injEq] at h
  obtain ⟨hfound, rfl⟩ := h
  obtain ⟨hsame, hfirst⟩ := trySplits_again htried hgrows
  rw [htried'] at hsame hfirst
  obtain rfl : later' = later := hsame
  simp only [find_eq, htried', Prod.mk.injEq, and_true]
  rcases Option.or_eq_some_iff.mp hfound with rfl | ⟨-, hscan⟩
  · obtain ⟨u, rfl⟩ := Option.isSome_iff_exists.mp (hfirst rfl)
    exact ⟨u, rfl⟩
  · rw [scan_again hscan hgrows]
    cases first' with
    | none => exact ⟨t, rfl⟩
    | some u => exact ⟨u, rfl⟩

/-! ## Meanings that are kept -/

/-- Searches lead from some loaded modules to others. -/
inductive Extends (l : Library) (start : List String) : List String → Prop where
  | refl : Extends l start start
  | find {loaded : List String} (name : String) (hint : Option String) (loads : Bool) (h : Extends l start loaded) :
      Extends l start (l.find name hint loads loaded).2

theorem Extends.grows {start : List String} (h : l.Extends start loaded) : l.Grows start loaded := by
  induction h with
  | refl => exact .refl start
  | find name hint loads _ ih => exact ih.trans (grows_find name hint loads _)

/-- Does a name that was found never denote something else, whatever is loaded later? -/
def KeepsMeaning (l : Library) (start : List String) : Prop :=
  ∀ loaded later name hint loads t u, l.Extends start loaded → (l.find name hint loads loaded).1 = some t →
    l.Extends (l.find name hint loads loaded).2 later → (l.find name hint loads later).1 = some u → u = t

theorem KeepsMeaning.find_eq {start : List String} (hkeeps : l.KeepsMeaning start) (hloaded : l.Extends start loaded)
    (hfound : (l.find name hint loads loaded).1 = some t)
    (hlater : l.Extends (l.find name hint loads loaded).2 later) :
    l.find name hint loads later = (some t, later) := by
  obtain ⟨u, hu⟩ := find_again (Prod.ext hfound rfl) hlater.grows
  obtain rfl : u = t := hkeeps loaded later name hint loads t u hloaded hfound hlater (by rw [hu])
  exact hu

end Library

/-! ## A package and a module in it -/

namespace Shop

def item : Ty := .cls ⟨"shop", "Item"⟩
def rack : Ty := .cls ⟨"shop.stock", "Rack"⟩

/-- Two modules, each with a class; neither is loaded from the start. -/
def library : Library :=
  { classes := []
    modules := [⟨"shop", [("Item", .type item)]⟩, ⟨"shop.stock", [("Rack", .type rack)]⟩]
    preloaded := []
    standard := [] }

/-- The type that the last part of a name stands for. -/
def typeOf (name : String) : Ty :=
  if (Library.parts name).getLast? = some "Item" then item else rack

theorem module_elim {name : String} {i : ModuleInfo} (h : library.module? name = some i) :
    i.exports = [("Item", .type item)] ∨ i.exports = [("Rack", .type rack)] := by
  have hmem : i ∈ library.modules := List.mem_of_find?_eq_some h
  simp only [library, List.mem_cons, List.not_mem_nil, or_false] at hmem
  obtain rfl | rfl := hmem
  · exact .inl rfl
  · exact .inr rfl

theorem typeAt_own {module p k : String} {ps : List String} {i : ModuleInfo} {c : ClassName} {t : Ty}
    (hi : library.module? module = some i) (hexports : i.exports = [(k, .type (.cls c))])
    (h : library.typeAt module (p :: ps) = some t) : p = k ∧ ps = [] ∧ t = .cls c := by
  rw [Library.typeAt, hi, Option.bind_some, hexports] at h
  by_cases hp : p = k
  · subst hp
    rw [List.lookup_cons_self] at h
    cases ps with
    | nil => exact ⟨rfl, rfl, (Option.some.inj h).symm⟩
    | cons q qs => cases h
  · rw [List.lookup_cons, beq_false_of_ne hp] at h
    cases h

theorem typeAt_eq {name module : String} {path : List String} {t : Ty} (hsplit : (module, path) ∈ Library.splits name)
    (h : library.typeAt module path = some t) : t = typeOf name := by
  obtain ⟨i, -, heq⟩ := List.mem_map.mp hsplit
  obtain ⟨-, rfl⟩ := Prod.mk.inj heq
  cases hpath : (Library.parts name).drop (i + 1) with
  | nil =>
    rw [hpath] at h
    cases h
  | cons p ps =>
    have hlast : (Library.parts name).getLast? = (p :: ps).getLast? := by
      rw [← hpath, List.getLast?_drop, if_neg]
      intro hlen
      simp [List.drop_eq_nil_of_le hlen] at hpath
    rw [hpath] at h
    rw [typeOf, hlast]
    cases hmodule : library.module? module with
    | none => simp [Library.typeAt, hmodule] at h
    | some m =>
      rcases module_elim hmodule with hexports | hexports
      · obtain ⟨rfl, rfl, rfl⟩ := typeAt_own hmodule hexports h
        rfl
      · obtain ⟨rfl, rfl, rfl⟩ := typeAt_own hmodule hexports h
        rfl

theorem scan_eq {name : String} {loaded : List String} {t : Ty} (h : library.scan loaded name = some t) :
    t = typeOf name := by
  obtain ⟨m, -, hm⟩ := List.exists_of_findSome?_eq_some h
  obtain ⟨i, hi, h⟩ := Option.bind_eq_some_iff.mp hm
  have hown {c : ClassName} (h : (if c.dotted = name then some (Ty.cls c) else none) = some t)
      (hc : typeOf c.dotted = .cls c) : t = typeOf name := by
    split at h
    · next hname =>
      cases h
      rw [← hname, hc]
    · cases h
  rcases module_elim hi with hexports | hexports
  · exact hown (c := ⟨"shop", "Item"⟩) (by simpa [hexports, item] using h) (if_pos (by decide +kernel))
  · exact hown (c := ⟨"shop.stock", "Rack"⟩) (by simpa [hexports, rack] using h) (if_neg (by decide +kernel))

theorem keepsMeaning (start : List String) : library.KeepsMeaning start := by
  intro loaded later name hint loads t u _ ht _ hu
  rw [Library.find_elim (fun _ _ _ => typeAt_eq) (fun _ _ => scan_eq) ht,
    Library.find_elim (fun _ _ _ => typeAt_eq) (fun _ _ => scan_eq) hu]

end Shop

/-! ## Remembering -/

namespace Names

/-- Was everything that is remembered found by a search, from which others led to what is loaded now? -/
structure Recalls (l : Library) (start : List String) (names : Names) : Prop where
  reached : l.Extends start names.loaded
  found : ∀ name hint loads t, ((name, hint, loads), t) ∈ names.found → ∃ loaded, l.Extends start loaded ∧
    (l.find name hint loads loaded).1 = some t ∧ l.Extends (l.find name hint loads loaded).2 names.loaded

/-- Loses some of what is remembered. -/
def forget (names : Names) (forgets : (String × Option String × Bool) × Ty → Bool) : Names :=
  { names with found := names.found.filter (!forgets ·) }

variable {l : Library} {start : List String} {names : Names}

theorem recalls_start (l : Library) (start : List String) : Recalls l start ⟨start, []⟩ :=
  ⟨.refl, fun _ _ _ _ h => absurd h List.not_mem_nil⟩

theorem Recalls.forget (h : names.Recalls l start) (forgets : (String × Option String × Bool) × Ty → Bool) :
    (names.forget forgets).Recalls l start :=
  ⟨h.reached, fun name hint loads t hmem => h.found name hint loads t (List.mem_filter.mp hmem).1⟩

/-- A look-up answers and loads as a search does, whatever is remembered. -/
theorem Recalls.lookUp (hkeeps : l.KeepsMeaning start) (h : names.Recalls l start) (name : String)
    (hint : Option String) (loads : Bool) :
    (l.resolveName name hint loads names).1 = (l.find name hint loads names.loaded).1 ∧
      (l.resolveName name hint loads names).2.loaded = (l.find name hint loads names.loaded).2 ∧
      (l.resolveName name hint loads names).2.Recalls l start := by
  obtain ⟨hanswer, hloaded⟩ : (l.resolveName name hint loads names).1 = (l.find name hint loads names.loaded).1 ∧
      (l.resolveName name hint loads names).2.loaded = (l.find name hint loads names.loaded).2 := by
    cases hlookup : names.found.lookup (name, hint, loads) with
    | some t =>
      -- the search that the answer is remembered from would end in it now as well
      obtain ⟨loaded, hstart, hfound, hlater⟩ := h.found name hint loads t (mem_of_lookup hlookup)
      rw [Library.resolveName_of_lookup hlookup, hkeeps.find_eq hstart hfound hlater]
      exact ⟨rfl, rfl⟩
    | none =>
      rcases hfind : l.find name hint loads names.loaded with ⟨_ | t, loaded'⟩
      · rw [Library.resolveName_of_miss hlookup hfind]
        exact ⟨rfl, rfl⟩
      · rw [Library.resolveName_of_find hlookup hfind]
        exact ⟨rfl, rfl⟩
  refine ⟨hanswer, hloaded, hloaded ▸ .find name hint loads h.reached, fun name' hint' loads' t hmem => ?_⟩
  rw [hloaded]
  obtain hold | ⟨hkey, hnew⟩ := Library.mem_found_resolveName hmem
  · obtain ⟨loaded, hstart, hfound, hlater⟩ := h.found name' hint' loads' t hold
    exact ⟨loaded, hstart, hfound, .find name hint loads hlater⟩
  · cases hkey
    exact ⟨names.loaded, h.reached, hanswer.symm.trans hnew, .refl⟩

end Names

/-! ## Sequences of calls -/

namespace Signature

/-- A look-up, before which some of what is remembered is lost. -/
structure Call where
  name : String
  hint : Option String
  loads : Bool
  forgets : (String × Option String × Bool) × Ty → Bool

/-- What each call answers and which modules are loaded after it. -/
def answers (l : Library) : Names → List Call → List (Except Fault Ty × List String)
  | _, [] => []
  | names, c :: cs =>
    let (found, names) := (resolveName l c.loads c.name c.hint).run (names.forget c.forgets)
    (found, names.loaded) :: answers l names cs

/-- The same when nothing is remembered, and every call searches. -/
def searches (l : Library) : List String → List Call → List (Except Fault Ty × List String)
  | _, [] => []
  | loaded, c :: cs =>
    let (found, loaded) := l.find c.name c.hint c.loads loaded
    (answer c.name c.hint found, loaded) :: searches l loaded cs

/-- Calls for one type: without loading, with it, with it again, and without it when everything is forgotten. -/
def rackCalls : List Call :=
  [⟨"shop.stock.Rack", none, false, fun _ => false⟩, ⟨"shop.stock.Rack", none, true, fun _ => false⟩,
    ⟨"shop.stock.Rack", none, true, fun _ => false⟩, ⟨"shop.stock.Rack", some "shop", false, fun _ => true⟩]

variable {l : Library} {start : List String}

theorem answers_eq_searches {names : Names} (hkeeps : l.KeepsMeaning start) (h : names.Recalls l start)
    (calls : List Call) : answers l names calls = searches l names.loaded calls := by
  induction calls generalizing names with
  | nil => rfl
  | cons c cs ih =>
    obtain ⟨hanswer, hloaded, hrecalls⟩ := (h.forget c.forgets).lookUp hkeeps c.name c.hint c.loads
    simp only [answers, searches, resolveName_run, ih hrecalls, hanswer, hloaded]
    rfl

/-- What is remembered makes no difference: from any loaded modules, the calls have the answers and load the modules
that they would have and load if every one of them searched anew. -/
theorem answers_transparent (hkeeps : l.KeepsMeaning start) (calls : List Call) :
    answers l ⟨start, []⟩ calls = searches l start calls :=
  answers_eq_searches hkeeps (Names.recalls_start l start) calls

/-- A type is not found, is found when loading is allowed, is remembered, and is found once more when it is forgotten. -/
theorem answers_transparent_forgotten :
    Shop.library.KeepsMeaning [] ∧
      answers Shop.library ⟨[], []⟩ rackCalls = searches Shop.library [] rackCalls ∧
      searches Shop.library [] rackCalls =
        [(answer "shop.stock.Rack" none none, []), (.ok Shop.rack, ["shop", "shop.stock"]),
          (.ok Shop.rack, ["shop", "shop.stock"]), (.ok Shop.rack, ["shop", "shop.stock"])] :=
  ⟨Shop.keepsMeaning [], answers_transparent (Shop.keepsMeaning []) rackCalls, rfl⟩

end Signature

end ExprTree
