import ExprTree.Host.Sample
import ExprTree.Proofs.Signature.Legality
import ExprTree.Proofs.Signature.Resolution

/-!
# Types that are found under their own names

What is written of a class is its own name and hint. If that text is read as
this name and hint, and these lead to the class, then all types built of such
classes are read back up to equivalence, and the signature of a method leads
back to its definition or to as many methods as it fits.
-/

namespace ExprTree

open Ty (IsForm)

namespace Ty

variable {l : Library} {loads : Bool} {names : Names}

/-- Is the text of a class or form read as its own name and hint, and do these lead to it, now and
whatever is looked up before? -/
def FindsItself (l : Library) (loads : Bool) (names : Names) (form : Ty) : Prop :=
  ∀ s, Signature.formSig form [] = .ok s → Signature.TypeSig.parse s.render = .ok s ∧
    ∀ names', names.Reaches l loads names' → ((s.resolve l loads).run names').1 = .ok form

theorem resolve_plain (name hint : String) (t : Ty) :
    (((Signature.TypeSig.named name [] (some hint)).resolve l loads).run names).1 = .ok t ↔
      (l.resolveName name (some hint) loads names).1 = some t ∧ t.isForm = true := by
  rw [← @Signature.answer_eq_ok name (some hint)]
  unfold Signature.TypeSig.resolve
  rw [Action.run_bind, Signature.resolveName_run]
  cases Signature.answer name (some hint) (l.resolveName name (some hint) loads names).1 <;> exact Iff.rfl

/-- To find itself a form has to be known under words. -/
theorem FindsItself.isKnown {form : Ty} (h : form.FindsItself l loads names) : form.IsKnown l loads names := by
  intro name hname
  obtain ⟨hparse, hresolve⟩ := h _ (Signature.formSig_eq_ok.mpr ⟨name, hname, rfl⟩)
  obtain ⟨hword, hhint, -⟩ := Signature.TypeSig.isLegal_of_parse hparse
  exact ⟨hword, hhint _ rfl, fun names' hr => ((resolve_plain _ _ _).mp (hresolve names' hr)).1⟩

theorem IsKnown.findsItself {form : Ty} (hform : IsForm form) (h : form.IsKnown l loads names) :
    form.FindsItself l loads names := by
  intro s hs
  obtain ⟨name, hname, rfl⟩ := Signature.formSig_eq_ok.mp hs
  obtain ⟨hword, hhint, hdenotes⟩ := h name hname
  refine ⟨Signature.TypeSig.parse_render ⟨hword, by rintro _ ⟨⟩; exact hhint, trivial⟩, fun names' hr => ?_⟩
  exact (resolve_plain _ _ _).mpr ⟨hdenotes names' hr, isForm_iff.mpr hform⟩

/-- Has the class or form a name of its own that it is found under, now and whatever is looked up before? -/
def ResolvesToItself (l : Library) (loads : Bool) (names : Names) (form : Ty) : Prop :=
  ∃ name, form.qualifiedName? = some name ∧
    let s := Signature.TypeSig.named name [] (some (packageOf form.module))
    Signature.TypeSig.parse s.render = .ok s ∧
      ∀ names', names.Reaches l loads names' → ((s.resolve l loads).run names').1 = .ok form

theorem dotted_of_qualifiedName {t : Ty} {name : String} {c : ClassName} (h : t.qualifiedName? = some name)
    (hc : t.runtimeForm = .cls c) : name = c.dotted := by
  cases t with
  | cls d =>
    cases hc
    cases h
    rfl
  | generic o as =>
    obtain rfl : o = .cls c := hc
    cases h
    rfl
  | union | bar => cases hc
  | _ => cases h

/-- A name that can be read has no mark of a class inside a function, so what resolves to itself is not anonymous. -/
theorem ResolvesToItself.nameOf {form : Ty} (h : form.ResolvesToItself l loads names) :
    ∃ name, Signature.nameOf form = .ok name := by
  obtain ⟨name, hname, hparse, -⟩ := h
  obtain ⟨⟨⟨-, hstop, -⟩, -⟩, -⟩ := Signature.TypeSig.isLegal_of_parse hparse
  have hnamed : form.isAnonymous = false := by
    unfold isAnonymous
    split
    · next c hc =>
      rw [← Bool.not_eq_true, List.contains_iff_mem]
      intro hmem
      have hmark := List.all_eq_true.mp hstop '<' (by simp [dotted_of_qualifiedName hname hc, ClassName.dotted, hmem])
      revert hmark
      decide
    · rfl
  exact ⟨name, Signature.nameOf_eq_ok.mpr ⟨hnamed, hname⟩⟩

theorem ResolvesToItself.isKnown {form : Ty} (h : form.ResolvesToItself l loads names) : form.IsKnown l loads names := by
  obtain ⟨name, hname, hparse, hresolve⟩ := h
  refine FindsItself.isKnown fun s hs => ?_
  obtain ⟨name', hname', rfl⟩ := Signature.formSig_eq_ok.mp hs
  obtain rfl : name' = name := Option.some.inj ((Signature.nameOf_eq_ok.mp hname').2.symm.trans hname)
  exact ⟨hparse, hresolve⟩

/-- What finds itself resolves to itself if it has a name at all. -/
theorem FindsItself.resolvesToItself {form : Ty} {name : String} (h : form.FindsItself l loads names)
    (hname : Signature.nameOf form = .ok name) : form.ResolvesToItself l loads names := by
  obtain ⟨hparse, hresolve⟩ := h _ (Signature.formSig_eq_ok.mpr ⟨name, hname, rfl⟩)
  exact ⟨name, (Signature.nameOf_eq_ok.mp hname).2, hparse, hresolve⟩

/-- Nothing else is equivalent to a class or form. -/
theorem eq_form_of_equivalent {form t : Ty} (hform : IsForm form) (h : form.equivalent t = true) : t = form := by
  obtain rfl | ⟨c, rfl⟩ := hform
  · exact isUnionForm_iff.mp ((isUnionForm_congr h).symm.trans rfl)
  · exact eq_cls_of_equivalent h

/-- Where nothing is loaded, a form finds itself if a search among the loaded modules finds it. -/
theorem findsItself_of_find {loaded : List String} {form : Ty} {name : String} (hnothing : l.LoadsNothing loads loaded)
    (hnames : names.IsFaithful l loads loaded) (hform : IsForm form) (hname : form.qualifiedName? = some name)
    (hword : Signature.IsTypeWord name) (hhint : Signature.IsWord (packageOf form.module))
    (hfind : (l.find name (some (packageOf form.module)) loads loaded).1.any form.equivalent = true) :
    form.FindsItself l loads names := by
  refine IsKnown.findsItself hform fun name' hname' => ?_
  obtain rfl : name' = name := Option.some.inj ((Signature.nameOf_eq_ok.mp hname').2.symm.trans hname)
  obtain ⟨t, ht, hsame⟩ := (Option.any_eq_true _ _).mp hfind
  obtain rfl := eq_form_of_equivalent hform hsame
  exact ⟨hword, hhint, Names.denotes_of_find hnothing hnames ht⟩

theorem findsItself_sample {form : Ty} {name : String} (hform : IsForm form) (hname : form.qualifiedName? = some name)
    (hwords : Signature.IsTypeWord name ∧ Signature.IsWord (packageOf form.module))
    (hfind : (Sample.library.find name (some (packageOf form.module)) false Sample.library.preloaded).1.any
      form.equivalent = true) : form.FindsItself Sample.library false ⟨Sample.library.preloaded, []⟩ :=
  findsItself_of_find (Library.loadsNothing_of_not _ _) (Names.isFaithful_fresh _ _ _) hform hname hwords.1
    hwords.2 hfind

/-- Is the type built of classes and forms that find themselves, with positions short enough to be written? -/
structure IsRecoverable (l : Library) (loads : Bool) (names : Names) (t : Ty) : Prop where
  built : t.Built
  found : ∀ form ∈ t.forms, form.FindsItself l loads names
  written : ∀ p ∈ t.positions, (toString p).length ≤ integerDigitLimit

theorem length_toString_le {n : Nat} : (toString n).length ≤ integerDigitLimit ↔ n < 10 ^ integerDigitLimit := by
  rw [← String.length_toList, Text.toList_toString]
  exact Text.length_toDigits_le (by decide)

theorem IsRecoverable.isReadable {t : Ty} (h : t.IsRecoverable l loads names) : t.IsReadable l loads names :=
  ⟨h.built.formed, fun form hform => (h.found form hform).isKnown,
    fun p hp => length_toString_le.mp (h.written p hp)⟩

end Ty

theorem Library.Declares.definition_eq {l : Library} {m : Method} (h : l.Declares m) (hplain : m.isGeneric = false) :
    m.definition = m := by
  obtain ⟨d, hmem, rfl | ⟨as, has⟩⟩ := h
  · have harguments := (declaring_of_mem_methodsNamed hmem).2.2
    rw [Method.definition, ← harguments]
  · obtain ⟨hdefinition, -, -, rfl⟩ := Method.close_eq_ok.mp has
    have hgeneric : d.isGeneric = false := hplain
    simp [Method.isDefinition, hgeneric] at hdefinition

namespace Signature

variable {l : Library} {loads : Bool} {names : Names}

/-- Functions without parameters whose results are dictionaries of lists, or of nothing. -/
def supplier : Ty :=
  .function [] (.close .dict [.str, .barOf (.close .list [.parameter 0 "T"]) .nothing])

theorem isRecoverable_supplier : supplier.IsRecoverable Sample.library false ⟨Sample.library.preloaded, []⟩ where
  built := by
    have hlist : Ty.Built (.close .list [.parameter 0 "T"]) := .close (.inr ⟨_, rfl⟩) (by simpa using .parameter 0 "T")
    have hunion : Ty.Built (.barOf (.close .list [.parameter 0 "T"]) .nothing) := .bar hlist (.cls _) nofun nofun
    have hdict : Ty.Built (.close .dict [.str, .barOf (.close .list [.parameter 0 "T"]) .nothing]) :=
      .close (.inr ⟨_, rfl⟩) (by simpa using ⟨.cls _, hunion⟩)
    exact .close (.inr ⟨_, rfl⟩) (List.forall_mem_singleton.mpr hdict)
  found := by
    intro form hform
    change form ∈ [Ty.callable, .dict, .str, .union, .list, .nothing] at hform
    simp only [List.mem_cons, List.not_mem_nil, or_false] at hform
    obtain rfl | rfl | rfl | rfl | rfl | rfl := hform
    · exact Ty.findsItself_sample (.inr ⟨_, rfl⟩) rfl (by decide) (by decide)
    · exact Ty.findsItself_sample (.inr ⟨_, rfl⟩) rfl (by decide) (by decide)
    · exact Ty.findsItself_sample (.inr ⟨_, rfl⟩) rfl (by decide) (by decide)
    · exact Ty.findsItself_sample (.inl rfl) rfl (by decide) (by decide)
    · exact Ty.findsItself_sample (.inr ⟨_, rfl⟩) rfl (by decide) (by decide)
    · exact Ty.findsItself_sample (.inr ⟨_, rfl⟩) rfl (by decide) (by decide)
  written := by
    intro p hp
    obtain rfl : p = 0 := List.mem_singleton.mp hp
    decide

/-- A generic method of the counters that takes a function. -/
def pickWith (as : List Ty) : Method :=
  ⟨⟨Sample.counter, "pick",
    [("items", .close .iterable [.parameter 0 "T"]), ("selector", .function [.parameter 0 "T"] (.parameter 1 "U"))],
    .close .list [.parameter 1 "U"], true, ["T", "U"]⟩, as⟩

/-- One of two methods with the same signature. -/
def pickOne : Method :=
  ⟨⟨Sample.ambiguous, "pick", [("value", .int)], .str, true, []⟩, []⟩

theorem isRecoverable_pickWith (as : List Ty) :
    ∀ t ∈ (pickWith as).definition.parameterTypes,
      t.IsRecoverable Sample.library false ⟨Sample.library.preloaded, []⟩ := by
  have hT : Ty.Built (.parameter 0 "T") := .parameter 0 "T"
  have hU : Ty.Built (.parameter 1 "U") := .parameter 1 "U"
  intro t ht
  change t ∈ [Ty.close .iterable [.parameter 0 "T"], .function [.parameter 0 "T"] (.parameter 1 "U")] at ht
  simp only [List.mem_cons, List.not_mem_nil, or_false] at ht
  obtain rfl | rfl := ht
  · refine ⟨.close (.inr ⟨_, rfl⟩) (by simpa using hT), fun form hform => ?_, fun p hp => ?_⟩
    · obtain rfl : form = .iterable := List.mem_singleton.mp hform
      exact Ty.findsItself_sample (.inr ⟨_, rfl⟩) rfl (by decide) (by decide)
    · obtain rfl : p = 0 := List.mem_singleton.mp hp
      decide
  · refine ⟨.close (.inr ⟨_, rfl⟩) (by simpa using ⟨hT, hU⟩), fun form hform => ?_, fun p hp => ?_⟩
    · obtain rfl : form = .callable := List.mem_singleton.mp hform
      exact Ty.findsItself_sample (.inr ⟨_, rfl⟩) rfl (by decide) (by decide)
    · obtain rfl | rfl : p = 0 ∨ p = 1 := List.mem_pair.mp hp
      · decide
      · decide

end Signature

end ExprTree
