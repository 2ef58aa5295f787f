import ExprTree.Proofs.Signature.Lookup
import ExprTree.Proofs.Signature.Written
import ExprTree.Proofs.Member

/-!
# Resolving what was written

A type whose classes and forms lead back to themselves is written as a
signature that resolves to an equivalent type, however many look-ups come in
between. A method that is the only one of its class under its signature is
found again.
-/

namespace ExprTree

open Ty (Formed IsForm)

/-! ## Names that keep their meaning -/

/-- Look-ups lead from one state of the names to another. -/
inductive Names.Reaches (l : Library) (loads : Bool) (start : Names) : Names → Prop where
  | refl : Reaches l loads start start
  | lookUp {names : Names} (name : String) (hint : Option String) (h : Reaches l loads start names) :
      Reaches l loads start (l.resolveName name hint loads names).2

/-- From here on, whatever is looked up in between, the name leads to the type. -/
def Names.Denotes (l : Library) (loads : Bool) (start : Names) (name hint : String) (t : Ty) : Prop :=
  ∀ names, start.Reaches l loads names → (l.resolveName name (some hint) loads names).1 = some t

section

variable {l : Library} {loads : Bool} {start names names' : Names}

theorem Names.Reaches.trans (h₁ : start.Reaches l loads names) (h₂ : names.Reaches l loads names') :
    start.Reaches l loads names' := by
  induction h₂ with
  | refl => exact h₁
  | lookUp name hint _ ih => exact .lookUp name hint ih

theorem Names.isFaithful_of_reaches {loaded : List String} (hnothing : l.LoadsNothing loads loaded)
    (h : start.IsFaithful l loads loaded) (hr : start.Reaches l loads names) : names.IsFaithful l loads loaded := by
  induction hr with
  | refl => exact h
  | lookUp name hint _ ih => exact (Library.resolveName_faithful hnothing ih name hint).2

/-- Where nothing is loaded, a name denotes what a search among the loaded modules finds. -/
theorem Names.denotes_of_find {loaded : List String} {name hint : String} {t : Ty}
    (hnothing : l.LoadsNothing loads loaded) (h : start.IsFaithful l loads loaded)
    (hfind : (l.find name (some hint) loads loaded).1 = some t) : start.Denotes l loads name hint t :=
  fun _ hr => (Library.resolveName_faithful hnothing (isFaithful_of_reaches hnothing h hr) name (some hint)).1.trans hfind

end

/-- Is a class or form written under words that lead back to it from now on? -/
def Ty.IsKnown (l : Library) (loads : Bool) (names : Names) (form : Ty) : Prop :=
  ∀ name, Signature.nameOf form = .ok name →
    Signature.IsTypeWord name ∧ Signature.IsWord (Ty.packageOf form.module) ∧
      names.Denotes l loads name (Ty.packageOf form.module) form

theorem Ty.isKnown_cls {l : Library} {loads : Bool} {loaded : List String} {names : Names} {c : ClassName}
    (hnothing : l.LoadsNothing loads loaded) (hnames : names.IsFaithful l loads loaded)
    (hname : Signature.IsTypeWord c.dotted) (hhint : Signature.IsWord (packageOf c.module))
    (hfind : (l.find c.dotted (some (packageOf c.module)) loads loaded).1.bind Ty.className? = some c) :
    (Ty.cls c).IsKnown l loads names := by
  intro name hn
  obtain rfl : c.dotted = name := Option.some.inj (Signature.nameOf_eq_ok.mp hn).2
  refine ⟨hname, hhint, Names.denotes_of_find hnothing hnames ?_⟩
  obtain ⟨t, ht, hc⟩ := Option.bind_eq_some_iff.mp hfind
  cases t with
  | cls d =>
    cases hc
    exact ht
  | _ => cases hc

/-! ## Types -/

namespace Ty

mutual

/-- The classes and forms that a type is written with. -/
def forms : Ty → List Ty
  | .cls c => [.cls c]
  | .union => [.union]
  | .generic o as => o :: formsOfAll as
  | .bar ms => .union :: formsOfAll ms
  | _ => []

def formsOfAll : List Ty → List Ty
  | [] => []
  | t :: ts => forms t ++ formsOfAll ts

end

theorem formsOfAll_eq (ts : List Ty) : formsOfAll ts = ts.flatMap forms := by
  induction ts with
  | nil => rfl
  | cons t ts ih => simp [formsOfAll, ih]

theorem forms_applied {t o : Ty} (h : t.origin? = some o) : t.forms = o :: t.arguments.flatMap forms := by
  cases t <;> simp_all [origin?, forms, arguments, formsOfAll_eq]

theorem mem_forms_of_argument {t a f : Ty} (ha : a ∈ t.arguments) (hf : f ∈ a.forms) : f ∈ t.forms := by
  cases ho : t.origin? with
  | none => cases t <;> simp_all [origin?, arguments]
  | some o =>
    rw [forms_applied ho]
    exact List.mem_cons_of_mem _ (List.mem_flatMap.mpr ⟨a, ha, hf⟩)

/-- Is the type built of classes and forms that lead back to themselves? -/
structure IsReadable (l : Library) (loads : Bool) (names : Names) (t : Ty) : Prop where
  formed : Formed t
  known : ∀ form ∈ t.forms, form.IsKnown l loads names
  short : ∀ p ∈ t.positions, p < 10 ^ integerDigitLimit

variable {l : Library} {loads : Bool} {names names' : Names} {t : Ty}

theorem IsReadable.arguments (h : t.IsReadable l loads names) {a : Ty} (ha : a ∈ t.arguments) :
    a.IsReadable l loads names where
  formed := h.formed.arguments a ha
  known form hform := h.known form (mem_forms_of_argument ha hform)
  short p hp := h.short p (mem_positions_of_argument ha hp)

end Ty

namespace Signature

variable {l : Library} {loads : Bool} {names names' : Names}

/-- From every later state the signature resolves to a type that is equivalent to what was written. -/
def Resolves (l : Library) (loads : Bool) (names : Names) (s : TypeSig) (t : Ty) : Prop :=
  ∀ names', names.Reaches l loads names' → ∃ t' after, (s.resolve l loads).run names' = (.ok t', after) ∧
    names'.Reaches l loads after ∧ t.equivalent t' = true ∧ Formed t'

theorem resolveName_known {form : Ty} (hform : IsForm form) (h : form.IsKnown l loads names) {name : String}
    (hname : nameOf form = .ok name) (hr : names.Reaches l loads names') :
    ∃ after, (resolveName l loads name (some (Ty.packageOf form.module))).run names' = (.ok form, after) ∧
      names'.Reaches l loads after := by
  have hfound := (h name hname).2.2 names' hr
  refine ⟨(l.resolveName name (some (Ty.packageOf form.module)) loads names').2, ?_, .lookUp _ _ .refl⟩
  rw [resolveName_run, answer_eq_ok.mpr ⟨hfound, Ty.isForm_iff.mpr hform⟩]

theorem resolveAll_of_forall {ts : List Ty} {ss : List TypeSig} (h : sigsOf ts = .ok ss)
    (ih : ∀ t ∈ ts, ∀ s, sigOf t = .ok s → Resolves l loads names s t) (hr : names.Reaches l loads names') :
    ∃ ts' after, (TypeSig.resolveAll l loads ss).run names' = (.ok ts', after) ∧ names'.Reaches l loads after ∧
      Ty.EquivalentAll ts ts' ∧ ∀ t ∈ ts', Formed t := by
  induction ts generalizing ss names' with
  | nil =>
    cases h
    exact ⟨[], names', rfl, .refl, .nil, by simp⟩
  | cons t ts iht =>
    obtain ⟨s, rest, hs, hrest, rfl⟩ := sigsOf_cons_eq_ok.mp h
    obtain ⟨t', after, hrun, hreach, heq, hformed⟩ := ih t (by simp) s hs names' hr
    obtain ⟨ts', after', hrun', hreach', heqs, hformeds⟩ :=
      iht hrest (fun u hu => ih u (by simp [hu])) (hr.trans hreach)
    refine ⟨t' :: ts', after', ?_, hreach.trans hreach', .cons heq heqs, by simpa using ⟨hformed, hformeds⟩⟩
    rw [TypeSig.resolveAll, Action.run_bind_ok hrun, Action.run_bind_ok hrun']
    rfl

theorem areLegal_of_forall {ts : List Ty} {ss : List TypeSig} (h : sigsOf ts = .ok ss)
    (ih : ∀ t ∈ ts, ∀ s, sigOf t = .ok s → s.IsLegal) : TypeSig.AreLegal ss := by
  induction ts generalizing ss with
  | nil =>
    cases h
    trivial
  | cons t ts iht =>
    obtain ⟨s, rest, hs, hrest, rfl⟩ := sigsOf_cons_eq_ok.mp h
    exact ⟨ih t (by simp) s hs, iht hrest fun u hu => ih u (by simp [hu])⟩

theorem resolves_form {form : Ty} (hform : IsForm form) (h : form.IsKnown l loads names) {s : TypeSig}
    (hs : formSig form [] = .ok s) : s.IsLegal ∧ Resolves l loads names s form := by
  obtain ⟨name, hname, rfl⟩ := formSig_eq_ok.mp hs
  obtain ⟨hword, hhint, -⟩ := h name hname
  refine ⟨⟨hword, by rintro _ ⟨⟩; exact hhint, trivial⟩, fun names' hr => ?_⟩
  obtain ⟨after, hrun, hreach⟩ := resolveName_known hform h hname hr
  refine ⟨form, after, ?_, hreach, Ty.equivalent_refl form, ?_⟩
  · rw [TypeSig.resolve, Action.run_bind_ok hrun]
    rfl
  · rcases hform with rfl | ⟨c, rfl⟩
    · exact .union
    · exact .cls c

/-- What is written of a readable type is legal, and resolves to an equivalent type from now on. -/
theorem resolves_sigOf {t : Ty} (ht : t.IsReadable l loads names) {s : TypeSig} (hs : sigOf t = .ok s) :
    s.IsLegal ∧ Resolves l loads names s t := by
  induction t using Ty.induct_arguments generalizing s with
  | step t ih =>
    cases ho : t.origin? with
    | some o =>
      rw [sigOf_applied ho, bind_eq_ok] at hs
      obtain ⟨ss, hss, hform⟩ := hs
      obtain ⟨name, hname, rfl⟩ := formSig_eq_ok.mp hform
      have hknown := ht.known o (by rw [Ty.forms_applied ho]; simp)
      obtain ⟨hword, hhint, -⟩ := hknown name hname
      refine ⟨⟨hword, by rintro h ⟨⟩; exact hhint,
        areLegal_of_forall hss fun a ha s hs => (ih a ha (ht.arguments ha) hs).1⟩, fun names' hr => ?_⟩
      obtain ⟨after, hrun, hreach⟩ := resolveName_known (ht.formed.isForm ho).1 hknown hname hr
      obtain ⟨as, after', hrun', hreach', heq, hformed⟩ := resolveAll_of_forall hss
        (fun a ha s hs => (ih a ha (ht.arguments ha) hs).2) (hr.trans hreach)
      obtain ⟨hsame, hclose⟩ := ht.formed.rebuild ho heq hformed
      refine ⟨o.close as, after', ?_, hreach.trans hreach', hsame, hclose⟩
      rw [TypeSig.resolve, Action.run_bind_ok hrun, Action.run_bind_ok hrun']
      rfl
    | none =>
      cases t with
      | cls c => exact resolves_form (.inr ⟨c, rfl⟩) (ht.known _ (by simp [Ty.forms])) hs
      | union => exact resolves_form (.inl rfl) (ht.known _ (by simp [Ty.forms])) hs
      | parameter p n =>
        cases hs
        refine ⟨ht.short p (by simp [Ty.positions]), fun names' _ => ?_⟩
        refine ⟨.parameter p "", names', rfl, .refl, ?_, .parameter p ""⟩
        rw [Ty.equivalent_leaf rfl]
        exact Ty.same_parameters p n ""
      | «variable» n => cases hs
      | literal v =>
        have := ht.formed
        cases this with
        | members hm => cases hm
      | generic | bar => cases ho

theorem decodeType_readable {t : Ty} (ht : t.IsReadable l loads names) {text : String}
    (htext : encodeType t = .ok text) (hr : names.Reaches l loads names') :
    ∃ t' after, (decodeType l loads text).run names' = (.ok t', after) ∧ names'.Reaches l loads after ∧
      t.equivalent t' = true ∧ Formed t' := by
  rw [encodeType_eq ht.formed] at htext
  cases hs : sigOf t with
  | error e =>
    rw [hs] at htext
    cases htext
  | ok s =>
    rw [hs] at htext
    cases htext
    obtain ⟨hlegal, hresolves⟩ := resolves_sigOf ht hs
    unfold decodeType
    rw [TypeSig.parse_render hlegal]
    exact hresolves names' hr

end Signature

/-! ## Methods -/

/-- Is the definition of the method written in a way that can be read? -/
structure Method.IsReadable (l : Library) (loads : Bool) (names : Names) (m : Method) : Prop where
  name : Signature.IsWord m.name
  arity : m.arity < 10 ^ integerDigitLimit
  declaring : (Ty.cls m.declaring).IsKnown l loads names
  parameters : ∀ t ∈ m.definition.parameterTypes, t.IsReadable l loads names

/-- The methods of the class that have the name, the arity and the parameters of a method. -/
def Library.namesakes (l : Library) (m : Method) : List Method :=
  (l.methodsNamed m.declaring m.name).filter (Signature.isCandidate m.arity m.definition.parameterTypes)

theorem Library.Declares.definition_mem {l : Library} {m : Method} (h : l.Declares m) :
    m.definition ∈ l.methodsNamed m.declaring m.name := by
  obtain ⟨d, hmem, rfl | ⟨as, has⟩⟩ := h
  · have harguments := (Library.declaring_of_mem_methodsNamed hmem).2.2
    rwa [Method.definition, ← harguments]
  · obtain ⟨-, -, -, rfl⟩ := Method.close_eq_ok.mp has
    have harguments := (Library.declaring_of_mem_methodsNamed hmem).2.2
    rwa [Method.definition, ← harguments]

theorem Library.Declares.definition_mem_namesakes {l : Library} {m : Method} (h : l.Declares m) :
    m.definition ∈ l.namesakes m := by
  refine List.mem_filter.mpr ⟨h.definition_mem, ?_⟩
  simp only [Signature.isCandidate, Bool.and_eq_true, decide_eq_true_eq]
  exact ⟨rfl, Ty.equivalentAll_iff.mpr (List.forall₂_same.mpr fun t _ => Ty.equivalent_refl t)⟩

namespace Signature

variable {l : Library} {loads : Bool} {names names' : Names} {m : Method}

theorem isCandidate_congr {ts ts' : List Ty} (h : Ty.EquivalentAll ts ts') (arity : Nat) (m : Method) :
    isCandidate arity ts m = isCandidate arity ts' m := by
  unfold isCandidate
  congr 1
  rw [Bool.eq_iff_iff, Ty.equivalentAll_iff, Ty.equivalentAll_iff]
  constructor
  · exact fun hm => forall₂_trans_of_mem hm h fun _ _ _ _ => Ty.equivalent_trans
  · refine fun hm => forall₂_trans_of_mem hm (List.Forall₂.flip (h.imp fun _ _ => Ty.equivalent_symm)) ?_
    exact fun _ _ _ _ => Ty.equivalent_trans

/-- Reading the signature of a method comes down to choosing among its namesakes. -/
theorem decodeMember_run (hm : m.IsReadable l loads names) {text : String} (htext : encodeMember m = .ok text)
    (hr : names.Reaches l loads names') :
    ∃ after, names'.Reaches l loads after ∧ (decodeMember l loads text).run names' =
      (match l.namesakes m with
        | [d] => .ok d
        | [] => .error (.memberNotFound text .none)
        | ds => .error (.memberNotFound text (.several ds.length)), after) := by
  rw [encodeMember_eq fun t ht => (hm.parameters t ht).formed] at htext
  cases hs : memberSigOf m with
  | error e =>
    rw [hs] at htext
    cases htext
  | ok s =>
    rw [hs] at htext
    cases htext
    obtain ⟨parameters, declaring, hparameters, hdeclaring, rfl⟩ := memberSigOf_eq_ok.mp hs
    obtain ⟨hlegal, hresolves⟩ := resolves_form (.inr ⟨_, rfl⟩) hm.declaring hdeclaring
    have hnamed : declaring.isNamed = true := by
      obtain ⟨name, -, rfl⟩ := formSig_eq_ok.mp hdeclaring
      rfl
    have hparse : MemberSig.parse (MemberSig.render ⟨m.name, m.arity, declaring, parameters⟩) =
        .ok ⟨m.name, m.arity, declaring, parameters⟩ :=
      MemberSig.parse_render ⟨hm.name, hm.arity, hnamed, hlegal,
        areLegal_of_forall hparameters fun t ht s hs => (resolves_sigOf (hm.parameters t ht) hs).1⟩
    obtain ⟨t, after, hrun, hreach, hsame, -⟩ := hresolves names' hr
    obtain ⟨types, after', hrun', hreach', heq, -⟩ := resolveAll_of_forall hparameters
      (fun t ht s hs => (resolves_sigOf (hm.parameters t ht) hs).2) (hr.trans hreach)
    have hclass : t.runtimeForm.className? = some m.declaring := by
      rw [Ty.eq_cls_of_equivalent hsame]
      rfl
    have hcandidates : (l.methodsNamed m.declaring m.name).filter (isCandidate m.arity types) = l.namesakes m := by
      unfold Library.namesakes
      exact List.filter_congr fun d _ => (isCandidate_congr heq m.arity d).symm
    refine ⟨after', hreach.trans hreach', ?_⟩
    unfold decodeMember
    rw [hparse]
    simp only [MemberSig.resolve]
    rw [Action.run_bind_ok hrun, Action.run_bind_ok hrun']
    simp only [hclass, hcandidates]
    cases l.namesakes m with
    | nil => rfl
    | cons d ds => cases ds <;> rfl

/-- It succeeds exactly if there is a single one. -/
theorem decodeMember_readable (hm : m.IsReadable l loads names) {text : String} (htext : encodeMember m = .ok text)
    (hr : names.Reaches l loads names') :
    ∃ after, names'.Reaches l loads after ∧
      (∀ d, l.namesakes m = [d] → (decodeMember l loads text).run names' = (.ok d, after)) ∧
      ((∀ d, l.namesakes m ≠ [d]) → ∃ e, (decodeMember l loads text).run names' = (.error e, after)) := by
  obtain ⟨after, hreach, hrun⟩ := decodeMember_run hm htext hr
  refine ⟨after, hreach, fun d hd => by rw [hrun, hd], fun hnone => ?_⟩
  split at hrun
  · next d hd => exact absurd hd (hnone d)
  · exact ⟨_, hrun⟩
  · exact ⟨_, hrun⟩

end Signature

end ExprTree
