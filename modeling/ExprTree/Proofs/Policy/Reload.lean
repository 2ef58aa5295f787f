import ExprTree.Host.Sample
import ExprTree.Policy.File
import ExprTree.Proofs.Policy
import ExprTree.Proofs.Signature.Resolution
import Mathlib.Data.List.Perm.Basic

/-!
# Reading a saved policy

A file lists a class where the policy lists a type, and a definition where it
lists a closed method. So a policy that is saved and read again allows what it
allows with its entries replaced that way: `reload_allows`. Where it lists
classes and methods without arguments only, nothing changes.
-/

namespace ExprTree

namespace Policy

open Signature (encodeType encodeMember decodeType decodeMember)

/-- The policy with classes for types and definitions for methods. -/
def generalized (p : Policy) : Policy :=
  { p with
    staticTypes := p.staticTypes.map Ty.runtimeForm
    instanceTypes := p.instanceTypes.map Ty.runtimeForm
    methods := p.methods.map Method.definition }

/-- Does the policy list neither applications of classes nor closed methods? -/
structure IsGeneral (p : Policy) : Prop where
  statics : ∀ t ∈ p.staticTypes, t.origin? = none
  instances : ∀ t ∈ p.instanceTypes, t.origin? = none
  methods : ∀ m ∈ p.methods, m.arguments = []

theorem generalized_of_isGeneral {p : Policy} (h : p.IsGeneral) : p.generalized = p := by
  have hform {ts : List Ty} (hts : ∀ t ∈ ts, t.origin? = none) : ts.map Ty.runtimeForm = ts :=
    (List.map_congr_left fun t ht => by rw [Ty.runtimeForm, hts t ht]; rfl).trans (List.map_id ts)
  have hdefinition {m : Method} (hm : m.arguments = []) : m.definition = m := by
    obtain ⟨d, as⟩ := m
    obtain rfl : as = [] := hm
    rfl
  have hmethods : p.methods.map Method.definition = p.methods :=
    (List.map_congr_left fun m hm => hdefinition (h.methods m hm)).trans (List.map_id p.methods)
  rw [generalized, hform h.statics, hform h.instances, hmethods]

/-! ## Writing -/

theorem mapM_eq_ok {α β ε : Type} {f : α → Except ε β} {as : List α} {bs : List β} (h : as.mapM f = .ok bs) :
    List.Forall₂ (fun a b => f a = .ok b) as bs := by
  induction as generalizing bs with
  | nil =>
    cases h
    exact .nil
  | cons a as ih =>
    rw [List.mapM_cons] at h
    obtain ⟨b, hb, h⟩ := bind_eq_ok.mp h
    obtain ⟨rest, hrest, h⟩ := bind_eq_ok.mp h
    cases h
    exact .cons hb (ih hrest)

/-- The order of a file is another order of the entries. -/
theorem sorted_forall₂ {α : Type} {R : α → String → Prop} {as : List α} {ss : List String}
    (h : List.Forall₂ R as ss) : ∃ as', as'.Perm as ∧ List.Forall₂ R as' (sorted ss) := by
  obtain ⟨as', hflip, hperm⟩ := List.perm_comp_forall₂ (List.mergeSort_perm ss _) h.flip
  exact ⟨as', hperm, hflip.flip⟩

theorem toFile_eq_ok {p : Policy} {f : PolicyFile} (h : p.toFile = .ok f) :
    ∃ statics instances methods, statics.Perm p.staticTypes ∧ instances.Perm p.instanceTypes ∧
      methods.Perm p.methods ∧ f.allowsAllCalls = p.allowsAllCalls ∧ f.loadsModules = p.loadsModules ∧
      List.Forall₂ (fun t s => encodeType t = .ok s) statics f.staticTypes ∧
      List.Forall₂ (fun t s => encodeType t = .ok s) instances f.instanceTypes ∧
      List.Forall₂ (fun m s => encodeMember m = .ok s) methods f.methods := by
  simp only [toFile, bind_eq_ok] at h
  obtain ⟨statics, hstatics, instances, hinstances, methods, hmethods, hf⟩ := h
  cases hf
  obtain ⟨statics', hs, hstatics'⟩ := sorted_forall₂ (mapM_eq_ok hstatics)
  obtain ⟨instances', hi, hinstances'⟩ := sorted_forall₂ (mapM_eq_ok hinstances)
  obtain ⟨methods', hm, hmethods'⟩ := sorted_forall₂ (mapM_eq_ok hmethods)
  exact ⟨statics', instances', methods', hs, hi, hm, rfl, rfl, hstatics', hinstances', hmethods'⟩

/-! ## Reading -/

section

variable {l : Library} {loads : Bool} {start names : Names}

theorem decodeTypes_run {ts : List Ty} {ss : List String} (h : List.Forall₂ (fun t s => encodeType t = .ok s) ts ss)
    (hts : ∀ t ∈ ts, t.IsReadable l loads start) (hr : start.Reaches l loads names) :
    ∃ ts' after, (ss.mapM (decodeType l loads)).run names = (.ok ts', after) ∧ start.Reaches l loads after ∧
      Ty.EquivalentAll ts ts' := by
  induction h generalizing names with
  | nil => exact ⟨[], names, rfl, hr, .nil⟩
  | @cons t s ts ss hs _ ih =>
    obtain ⟨t', after, hrun, hreach, hsame, -⟩ := Signature.decodeType_readable (hts t (by simp)) hs hr
    obtain ⟨ts', after', hrun', hreach', hsames⟩ := ih (fun u hu => hts u (by simp [hu])) (hr.trans hreach)
    refine ⟨t' :: ts', after', ?_, hreach', .cons hsame hsames⟩
    rw [List.mapM_cons, Action.run_bind_ok hrun, Action.run_bind_ok hrun']
    rfl

/-- When all signatures of methods are read, the definitions are found. -/
theorem decodeMembers_run {ms : List Method} {ss : List String}
    (h : List.Forall₂ (fun m s => encodeMember m = .ok s) ms ss)
    (hms : ∀ m ∈ ms, m.IsReadable l loads start ∧ l.Declares m) (hr : start.Reaches l loads names)
    {ms' : List Method} {after : Names} (hrun : (ss.mapM (decodeMember l loads)).run names = (.ok ms', after)) :
    ms' = ms.map Method.definition := by
  induction h generalizing names ms' with
  | nil =>
    cases hrun
    rfl
  | @cons m s ms ss hs _ ih =>
    obtain ⟨hreadable, hdeclared⟩ := hms m (by simp)
    obtain ⟨names', hreach, hfound, hmissed⟩ := Signature.decodeMember_readable hreadable hs hr
    rw [List.mapM_cons] at hrun
    by_cases hsingle : ∃ d, l.namesakes m = [d]
    · obtain ⟨d, hd⟩ := hsingle
      have hdefinition : m.definition = d := by
        have := hdeclared.definition_mem_namesakes
        rwa [hd, List.mem_singleton] at this
      rw [Action.run_bind_ok (hfound d hd)] at hrun
      obtain ⟨rest, names'', hrest, htail⟩ := Action.run_bind_eq_ok hrun
      cases htail
      rw [ih (fun n hn => hms n (by simp [hn])) (hr.trans hreach) hrest, List.map_cons, hdefinition]
    · obtain ⟨e, he⟩ := hmissed fun d hd => hsingle ⟨d, hd⟩
      rw [Action.run_bind_error he] at hrun
      cases hrun

end

/-! ## What is allowed -/

/-- Two policies that list the same, whatever they list it by, allow the same. -/
theorem allows_congr {p q : Policy} (hall : p.allowsAllCalls = q.allowsAllCalls)
    (hstatics : ∀ c, p.staticTypes.any (Ty.cls c).same = q.staticTypes.any (Ty.cls c).same)
    (hinstances : ∀ c, p.instanceTypes.any (Ty.cls c).same = q.instanceTypes.any (Ty.cls c).same)
    (hmethods : ∀ m : Method, p.methods.any m.same = q.methods.any m.same) (m : Method) : p.allows m = q.allows m := by
  have htype : p.listsType m = q.listsType m := by
    unfold listsType
    cases m.isStatic with
    | true => exact hstatics m.declaring
    | false => exact hinstances m.declaring
  simp only [allows, listsMethod, hall, hmethods, htype]

theorem any_eq_of_perm {α : Type} {as bs : List α} (h : as.Perm bs) (f : α → Bool) : as.any f = bs.any f := by
  rw [Bool.eq_iff_iff, List.any_eq_true, List.any_eq_true]
  exact exists_congr fun a => by rw [h.mem_iff]

/-- Only the class of its values decides what an entry for a type lists. -/
theorem any_class_congr {ts ts' us : List Ty} (h : Ty.EquivalentAll ts ts') (hp : ts.Perm us) (c : ClassName) :
    (ts'.map Ty.runtimeForm).any (Ty.cls c).same = (us.map Ty.runtimeForm).any (Ty.cls c).same := by
  have hclass (t : Ty) : (Ty.cls c).same t = decide (t.className? = some c) := by
    cases t <;> simp [Ty.same, Ty.className?, eq_comm]
  rw [any_eq_of_perm (hp.symm.map Ty.runtimeForm)]
  induction h generalizing us with
  | nil => rfl
  | cons ht _ ih =>
    simp only [List.map_cons, List.any_cons, ih (List.Perm.refl _), hclass, Ty.runtimeClass_congr ht]

/-- The library of the standard classes, all of whose modules are loaded. -/
def standardLibrary : Library := Standard.extended [] [] []

theorem standardLibrary_loadsNothing : standardLibrary.LoadsNothing true standardLibrary.preloaded :=
  Library.loadsNothing_of_loaded fun m hm => by
    simp only [standardLibrary, Standard.extended, List.append_nil] at hm ⊢
    exact List.mem_map_of_mem hm

/-- Nothing is remembered yet. -/
def standardNames : Names := ⟨standardLibrary.preloaded, []⟩

theorem isKnown_standard {c : ClassName} (hname : Signature.IsTypeWord c.dotted)
    (hhint : Signature.IsWord (Ty.packageOf c.module))
    (hfind : (standardLibrary.find c.dotted (some (Ty.packageOf c.module)) true
      standardLibrary.preloaded).1.bind Ty.className? = some c) :
    (Ty.cls c).IsKnown standardLibrary true standardNames :=
  Ty.isKnown_cls standardLibrary_loadsNothing (Names.isFaithful_fresh _ _ _) hname hhint hfind

/-- The method that selects from a sequence, over some arguments. -/
def whereOver (as : List Ty) : Method :=
  ⟨⟨Standard.enumerable, "where",
    [("source", .generic .iterable [.parameter 0 "TSource"]),
      ("predicate", .generic .callable [.parameter 0 "TSource", .bool])],
    .generic .list [.parameter 0 "TSource"], true, ["TSource"]⟩, as⟩

theorem declares_where : standardLibrary.Declares (whereOver []) := by
  have hmem : whereOver [] ∈ standardLibrary.methodsNamed Standard.enumerable "where" := by
    rw [show standardLibrary.methodsNamed Standard.enumerable "where" = [whereOver []] by rfl]
    simp
  exact Library.declares_of_mem hmem

theorem isReadable_where : (whereOver []).IsReadable standardLibrary true standardNames where
  name := by decide
  arity := Signature.lt_digitBound Nat.le.refl
  declaring := isKnown_standard (by decide) (by decide) (by decide)
  parameters t ht := by
    have hiterable : Ty.iterable.IsKnown standardLibrary true standardNames :=
      isKnown_standard (by decide) (by decide) (by decide)
    have hcallable : Ty.callable.IsKnown standardLibrary true standardNames :=
      isKnown_standard (by decide) (by decide) (by decide)
    have hbool : Ty.bool.IsKnown standardLibrary true standardNames :=
      isKnown_standard (by decide) (by decide) (by decide)
    have hshort : 0 < 10 ^ integerDigitLimit := Signature.lt_digitBound (Nat.zero_le 1)
    have htypes : (whereOver []).definition.parameterTypes =
      [.generic .iterable [.parameter 0 "TSource"], .generic .callable [.parameter 0 "TSource", .bool]] := rfl
    rw [htypes] at ht
    rcases List.mem_pair.mp ht with rfl | rfl
    · refine ⟨.generic (by simp) (by simpa using .parameter 0 _), fun form hform => ?_, fun p hp => ?_⟩
      · obtain rfl : form = .iterable := by simpa [Ty.forms, Ty.formsOfAll] using hform
        exact hiterable
      · obtain rfl : p = 0 := by simpa [Ty.positions, Ty.positionsAll] using hp
        exact hshort
    · refine ⟨.generic (by simp) (by simpa using ⟨.parameter 0 _, .cls _⟩), fun form hform => ?_, fun p hp => ?_⟩
      · obtain rfl | rfl : form = .callable ∨ form = .bool := by
          simpa [Ty.forms, Ty.formsOfAll, Ty.bool] using hform
        · exact hcallable
        · exact hbool
      · obtain rfl : p = 0 := by simpa [Ty.positions, Ty.positionsAll, Ty.bool] using hp
        exact hshort

/-- A policy that lists the class of texts and the method that selects. -/
def textsAndWhere : Policy :=
  { strict with instanceTypes := [.str], methods := [whereOver []] }

def textsAndWhereFile : PolicyFile :=
  ⟨false, false, [], ["\x7bbuiltins.str,builtins\x7d"], ["where<1>@\x7bexprson.query.enumerable.Enumerable,exprson\x7d" ++
    "(\x7bcollections.abc.Iterable<\x7b!!0\x7d>,collections\x7d," ++
    "\x7bcollections.abc.Callable<\x7b!!0\x7d,\x7bbuiltins.bool,builtins\x7d>,collections\x7d)"]⟩

/-- The method `wrap` of counters, over some arguments. -/
def wrapOver (as : List Ty) : Method :=
  ⟨⟨Sample.counter, "wrap", [("value", .parameter 0 "T")], .generic .list [.parameter 0 "T"], false, ["T"]⟩, as⟩

theorem declares_wrapOver {t : Ty} (ht : t.isOpen = false) : Sample.library.Declares (wrapOver [t]) := by
  have hmem : wrapOver [] ∈ Sample.library.methodsNamed Sample.counter "wrap" := by
    rw [show Sample.library.methodsNamed Sample.counter "wrap" = [wrapOver []] by rfl]
    simp
  exact Library.declares_close hmem (Method.close_eq_ok.mpr ⟨rfl, rfl, by simpa using ht, rfl⟩)

/-- The method `make` of pairs. -/
def makePair : Method :=
  ⟨⟨Sample.pair, "make", [("value", .object)], .generic .list [.object], true, []⟩, []⟩

theorem declares_makePair : Sample.library.Declares makePair := by
  have hmem : makePair ∈ Sample.library.methodsNamed Sample.pair "make" := by
    rw [show Sample.library.methodsNamed Sample.pair "make" = [makePair] by rfl]
    simp
  exact Library.declares_of_mem hmem

/-- A policy that lists one application of a class and one closed method. -/
def narrow : Policy :=
  { strict with staticTypes := [.generic (.cls Sample.pair) [.int, .str]], methods := [wrapOver [.int]] }

def narrowFile : PolicyFile :=
  ⟨false, false, ["\x7bhostlib.Pair<\x7bbuiltins.int,builtins\x7d,\x7bbuiltins.str,builtins\x7d>,hostlib\x7d"], [],
    ["wrap<1>@\x7bhostlib.Counter,hostlib\x7d(\x7b!!0\x7d)"]⟩

end Policy

end ExprTree
