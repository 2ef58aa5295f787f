import ExprTree.Proofs.Document.Decoded
import ExprTree.Proofs.Document.RoundTrip
import ExprTree.Proofs.Signature.OwnName

/-!
# What was read can be written

A tree of parts that were read is written, whatever was written before it: its
constants and counts are short enough, and its types have a text as soon as the
classes and forms in them have names.
-/

namespace ExprTree

open Action (Succeeds)
open Ty (Formed IsForm)

/-! ## Types -/

namespace Signature

/-- Has the class or form a name to be written under? -/
def IsNamed (form : Ty) : Prop :=
  ∃ name, nameOf form = .ok name

theorem IsNamed.isAnonymous {form : Ty} (h : IsNamed form) : form.isAnonymous = false := by
  obtain ⟨name, hname⟩ := h
  exact (nameOf_eq_ok.mp hname).1

theorem exists_formSig {form : Ty} (h : IsNamed form) (arguments : List TypeSig) :
    ∃ s, formSig form arguments = .ok s := by
  obtain ⟨name, hname⟩ := h
  exact ⟨_, formSig_eq_ok.mpr ⟨name, hname, rfl⟩⟩

theorem exists_sigsOf {ts : List Ty} (h : ∀ t ∈ ts, ∃ s, sigOf t = .ok s) : ∃ ss, sigsOf ts = .ok ss := by
  induction ts with
  | nil => exact ⟨[], rfl⟩
  | cons t ts ih =>
    obtain ⟨s, hs⟩ := h t (by simp)
    obtain ⟨ss, hss⟩ := ih fun u hu => h u (by simp [hu])
    exact ⟨s :: ss, sigsOf_cons_eq_ok.mpr ⟨s, ss, hs, hss, rfl⟩⟩

/-- A type in normal form has a signature if its classes and forms have names. -/
theorem exists_sigOf {t : Ty} (ht : Formed t) (hforms : ∀ form ∈ t.forms, IsNamed form) : ∃ s, sigOf t = .ok s := by
  induction t using Ty.induct_arguments with
  | step t ih =>
    cases ho : t.origin? with
    | some o =>
      rw [Ty.forms_applied ho] at hforms
      obtain ⟨horigin, harguments⟩ := List.forall_mem_cons.mp hforms
      obtain ⟨ss, hss⟩ := exists_sigsOf fun a ha =>
        ih a ha (ht.arguments a ha) (List.forall_mem_flatMap.mp harguments a ha)
      obtain ⟨s, hs⟩ := exists_formSig horigin ss
      exact ⟨s, by rw [sigOf_applied ho, hss]; exact hs⟩
    | none =>
      cases ht with
      | cls c => exact exists_formSig (hforms _ (by simp [Ty.forms])) []
      | union => exact exists_formSig (hforms _ (by simp [Ty.forms])) []
      | parameter p n => exact ⟨_, rfl⟩
      | members hm _ _ => rw [(Ty.members?_origin hm).1] at ho; cases ho
      | _ => cases ho

theorem exists_encodeType {t : Ty} (ht : Formed t) (hforms : ∀ form ∈ t.forms, IsNamed form) :
    ∃ text, encodeType t = .ok text := by
  obtain ⟨s, hs⟩ := exists_sigOf ht hforms
  exact ⟨s.render, by rw [encodeType_eq ht, hs]; rfl⟩

end Signature

/-! ## Forms that are mentioned -/

/-- The classes and forms that a call of the method mentions. -/
def Method.forms (m : Method) : List Ty :=
  .cls m.declaring :: (m.definition.parameterTypes ++ m.parameterTypes ++ m.arguments).flatMap Ty.forms

theorem Method.forall_forms {m : Method} {P : Ty → Prop} :
    (∀ form ∈ m.forms, P form) ↔ P (.cls m.declaring) ∧
      ∀ t ∈ m.definition.parameterTypes ++ m.parameterTypes ++ m.arguments, ∀ form ∈ t.forms, P form := by
  rw [Method.forms, List.forall_mem_cons, List.forall_mem_flatMap]

namespace Node

mutual

/-- The classes and forms that a node mentions, and those of the instances whose members it reads. -/
def forms : Node → List Ty
  | .constant _ t | .bare _ t => t.forms
  | .parameter p => p.type.forms
  | .lambda ps body => ps.flatMap (·.type.forms) ++ body.forms
  | .binary _ left right _ => left.forms ++ right.forms
  | .converted left right p body => left.forms ++ right.forms ++ (p.type.forms ++ body.forms)
  | .unary _ operand t => operand.forms ++ t.forms
  | .member e m => e.forms ++ .cls m.declaring :: (e.type.runtimeForm.className?.map Ty.cls).toList
  | .call m args => m.forms ++ formsOfAll args
  | .callOn target m args => m.forms ++ (target.forms ++ formsOfAll args)
  | .conditional test ifTrue ifFalse => test.forms ++ ifTrue.forms ++ ifFalse.forms
termination_by structural n => n

def formsOfAll : List Node → List Ty
  | [] => []
  | n :: ns => n.forms ++ formsOfAll ns
termination_by structural ns => ns

end

theorem mem_formsOfAll {form : Ty} {ns : List Node} : form ∈ formsOfAll ns ↔ ∃ n ∈ ns, form ∈ n.forms := by
  induction ns with
  | nil => simp [formsOfAll]
  | cons n ns ih => simp [formsOfAll, ih]

theorem forms_converted (left right : Node) (p : Parameter) (body : Node) :
    (converted left right p body).forms = left.forms ++ right.forms ++ (lambda [p] body).forms := by
  simp [forms]

theorem mem_forms_callOf {form : Ty} {m : Method} {arguments : List Node} {target : Option Node} :
    form ∈ (callOf m arguments target).forms ↔
      form ∈ m.forms ∨ (∃ t, target = some t ∧ form ∈ t.forms) ∨ ∃ a ∈ arguments, form ∈ a.forms := by
  cases target with
  | none => simp [callOf, forms, mem_formsOfAll]
  | some t => simp [callOf, forms, mem_formsOfAll]

/-! ## Types of operators -/

/-- Operators but conversions yield a number or a truth value. -/
theorem exists_cls_of_unaryType {u : UnaryKind} (hu : ∀ c, u ≠ .convert c) {operand : Node} {t : Ty}
    (h : unaryType u operand = .ok t) : ∃ c, t = .cls c := by
  obtain ⟨hfor, rfl⟩ := unaryType_of_ok h
  cases u with
  | convert checked => exact absurd rfl (hu checked)
  | isTrue | isFalse => exact ⟨_, rfl⟩
  | not =>
    obtain hbool | hint := hfor
    · exact ⟨_, Ty.eq_cls_of_isClass hbool⟩
    · exact Ty.exists_cls_of_isNumeric (Ty.isNumeric_of_isInteger hint)
  | onesComplement => exact Ty.exists_cls_of_isNumeric (Ty.isNumeric_of_isInteger hfor)
  | _ => exact Ty.exists_cls_of_isNumeric hfor

theorem isRead_mkUnary {k : Kind} {operand n : Node} {t : Ty} (hn : mkUnary k operand (some t) = .ok n)
    (ht : t.IsRead) : n.type.IsRead := by
  obtain ⟨u, rfl⟩ := mkUnary_kind hn
  by_cases hconvert : ∃ checked, u = .convert checked
  · obtain ⟨checked, rfl⟩ := hconvert
    obtain ⟨t', ht', rfl⟩ := mkUnary_convert_eq_ok.mp hn
    obtain rfl : t = t' := Option.some.inj ((Transfer.given?_formed ht.formed).symm.trans ht')
    exact ht
  · obtain ⟨t', ht', hsame, rfl⟩ := (mkUnary_eq_ok fun checked hu => hconvert ⟨checked, hu⟩).mp hn
    obtain ⟨c, rfl⟩ := exists_cls_of_unaryType (fun checked hu => hconvert ⟨checked, hu⟩) ht'
    exact ht.of_equivalent (.leaf rfl) (Ty.equivalent_symm (hsame t (Transfer.given?_formed ht.formed)))

/-! ## Writing -/

section

variable {h : Heap} {gate : Option Policy} {l : Library}

theorem typeText_succeeds {t : Ty} (ht : Formed t) (hforms : ∀ form ∈ t.forms, Signature.IsNamed form) :
    Succeeds (typeText t) fun _ => True := by
  obtain ⟨text, htext⟩ := Signature.exists_encodeType ht hforms
  rw [typeText, htext]
  exact .pure trivial

theorem typeTexts_succeeds {ts : List Ty} (hts : ∀ t ∈ ts, Formed t)
    (hforms : ∀ t ∈ ts, ∀ form ∈ t.forms, Signature.IsNamed form) : Succeeds (typeTexts ts) fun _ => True := by
  induction ts with
  | nil => exact .pure trivial
  | cons t ts ih =>
    refine (typeText_succeeds (hts t (by simp)) (hforms t (by simp))).bind fun _ _ => ?_
    exact (ih (fun u hu => hts u (by simp [hu])) fun u hu => hforms u (by simp [hu])).bind fun _ _ => .pure trivial

theorem countText_succeeds {n : Nat} (hn : n < 10 ^ integerDigitLimit) : Succeeds (countText n) fun _ => True := by
  have hshort : ¬ digitCount (n : Int).natAbs > integerDigitLimit :=
    not_lt.mpr ((Text.length_toDigits_le (by decide)).mpr hn)
  rw [countText, integerText?, if_neg hshort]
  exact .pure trivial

theorem encodeParameter_succeeds {p : Parameter} (ht : Formed p.type)
    (hforms : ∀ form ∈ p.type.forms, Signature.IsNamed form) : Succeeds (encodeParameter p) fun _ => True := by
  intro s
  obtain ⟨text, htext⟩ := Signature.exists_encodeType ht hforms
  have hintern : ∃ e s', s.intern p = (.ok e, s') := by
    unfold Interning.intern
    split
    · exact ⟨_, _, rfl⟩
    · rw [htext]
      exact ⟨_, _, rfl⟩
  obtain ⟨e, s', hintern⟩ := hintern
  refine ⟨Transfer.entryDocument e, s', ?_, trivial⟩
  rw [run_encodeParameter, hintern]
  rfl

theorem encodeParameters_succeeds {ps : List Parameter} (hps : ∀ p ∈ ps, Formed p.type)
    (hforms : ∀ p ∈ ps, ∀ form ∈ p.type.forms, Signature.IsNamed form) :
    Succeeds (encodeParameters ps) fun ds => ds.length = ps.length := by
  induction ps with
  | nil => exact .pure rfl
  | cons p ps ih =>
    refine (encodeParameter_succeeds (hps p (by simp)) (hforms p (by simp))).bind fun _ _ => ?_
    exact (ih (fun q hq => hps q (by simp [hq])) fun q hq => hforms q (by simp [hq])).bind fun ds hds =>
      .pure (by simp [hds])

theorem lambdaDocument_succeeds {ds : List Document} (body : Document) (hcount : ds.length < 10 ^ integerDigitLimit) :
    Succeeds (lambdaDocument ds body) fun _ => True :=
  (countText_succeeds hcount).bind fun _ _ => .pure trivial

theorem encodeConstant_succeeds {v : Value} {t : Ty} (ht : Formed t) (hforms : ∀ form ∈ t.forms, Signature.IsNamed form)
    (hv : v = .none ∨ ∃ f text, ConstantText.formOf? (ConstantText.target t) = some f ∧ f.read? text = some v) :
    Succeeds (encodeConstant h v t) fun _ => True := by
  have htype := typeText_succeeds ht hforms
  unfold encodeConstant
  obtain rfl | ⟨f, text, hf, hread⟩ := hv
  · exact htype.bind fun _ _ => .pure trivial
  · obtain ⟨word, hword⟩ := ConstantText.exists_write_of_read hread h
    cases hnone : v.isNone with
    | true => exact htype.bind fun _ _ => .pure trivial
    | false =>
      simp only [Bool.false_eq_true, if_false, hf, Option.isNone_some, hword]
      exact htype.bind fun _ _ => .pure trivial

theorem callTexts_succeeds {m : Method} {n : Nat} (hm : m.IsRead l) (hforms : ∀ form ∈ m.forms, Signature.IsNamed form)
    (hn : n < 10 ^ integerDigitLimit) (hgate : gate.any (!·.allows m) = false) :
    Succeeds (callTexts gate m n) fun _ => True := by
  obtain ⟨hclass, hmentioned⟩ := Method.forall_forms.mp hforms
  have hmember : ∃ text, Signature.encodeMember m = .ok text := by
    obtain ⟨declaring, hdeclaring⟩ := Signature.exists_formSig hclass []
    obtain ⟨parameters, hparameters⟩ := Signature.exists_sigsOf fun t ht =>
      Signature.exists_sigOf (hm.found.parameters t ht).formed (hmentioned t (by simp [ht]))
    rw [Signature.encodeMember_eq fun t ht => (hm.found.parameters t ht).formed,
      Signature.memberSigOf_eq_ok.mpr ⟨parameters, declaring, hparameters, hdeclaring, rfl⟩]
    exact ⟨_, rfl⟩
  obtain ⟨member, hmember⟩ := hmember
  unfold callTexts
  rw [hgate, hmember]
  refine (typeText_succeeds (.cls _) (by simpa [Ty.forms] using hclass)).bind fun _ _ => ?_
  refine (typeTexts_succeeds (fun t ht => (hm.found.types hm.arguments t ht).formed)
    fun t ht => hmentioned t (by simp [ht])).bind fun _ _ => ?_
  refine (typeTexts_succeeds (fun t ht => (hm.arguments t ht).formed) fun t ht => hmentioned t (by simp [ht])).bind fun _ _ => ?_
  exact (countText_succeeds hn).bind fun _ _ => (countText_succeeds hm.genericCount).bind fun _ _ => .pure trivial

/-! ## The tree -/

variable (h gate) in
/-- Is the node written if its forms have names and the gate lets its calls pass? -/
def IsWritten (n : Node) : Prop :=
  (∀ form ∈ n.forms, Signature.IsNamed form) → (n.Calls fun m => gate.any (!·.allows m) = false) →
    Succeeds (n.encode h gate) fun _ => True

theorem encodeAll_succeeds {ns : List Node} (hns : ∀ n ∈ ns, Succeeds (n.encode h gate) fun _ => True) :
    Succeeds (encodeAll h gate ns) fun _ => True := by
  induction ns with
  | nil => exact .pure trivial
  | cons n ns ih =>
    refine (hns n (by simp)).bind fun _ _ => ?_
    exact (ih fun a ha => hns a (by simp [ha])).bind fun _ _ => .pure trivial

theorem encodeTarget_succeeds {target : Option Node}
    (ht : ∀ t, target = some t → Succeeds (t.encode h gate) fun _ => True) :
    Succeeds (Transfer.encodeTarget h gate target) fun _ => True := by
  cases target with
  | none => exact .pure trivial
  | some t => exact (ht t rfl).bind fun _ _ => .pure trivial

/-- All parameters of a tree that was read have types that were read. -/
theorem IsRead.parameters {n : Node} (hn : n.IsRead l) : ∀ p ∈ n.parameters, p.type.IsRead := by
  induction hn with
  | constant hn =>
    obtain ⟨-, rfl⟩ := mkConstant_eq_ok.mp hn
    exact fun p hp => nomatch hp
  | parameter ht =>
    intro p hp
    obtain rfl := List.mem_singleton.mp hp
    exact ht
  | lambda hn _ _ _ ihps ihb =>
    obtain ⟨ps, rfl, -, rfl⟩ := mkLambda_eq_ok.mp hn
    have hps : ∀ p ∈ ps, p.type.IsRead := fun p hp =>
      ihps (.parameter p) (List.mem_map.mpr ⟨p, hp, rfl⟩) p (List.mem_singleton.mpr rfl)
    exact List.forall_mem_append.mpr ⟨hps, ihb⟩
  | binary hn _ _ ihl ihr =>
    obtain ⟨b, t, rfl, -, rfl⟩ := mkBinary_eq_ok.mp hn
    exact List.forall_mem_append.mpr ⟨ihl, ihr⟩
  | converted hn _ _ _ ihl ihr ihc =>
    obtain ⟨q, body, rfl, rfl, -, -, rfl⟩ := mkConverted_eq_ok.mp hn
    exact List.forall_mem_append.mpr ⟨List.forall_mem_append.mpr ⟨ihl, ihr⟩, ihc⟩
  | unary hn _ _ iho =>
    obtain ⟨u, t, rfl, rfl⟩ := mkUnary_shape hn
    exact iho
  | member hn _ _ ihe =>
    obtain ⟨-, rfl⟩ := mkMember_eq_ok.mp hn
    exact ihe
  | call hn _ _ _ iht iha =>
    obtain ⟨-, -, -, rfl⟩ := mkCall_eq_ok.mp hn
    intro p hp
    obtain ⟨e, he, hp⟩ | ⟨a, ha, hp⟩ := mem_parameters_callOf.mp hp
    · exact iht e he p hp
    · exact iha a ha p hp

theorem isWritten_lambda {parameters : List Node} {body n : Node} (hn : mkLambda parameters body = .ok n)
    (hps : ∀ p ∈ parameters, p.IsRead l) (hcount : parameters.length < 10 ^ integerDigitLimit)
    (hb : IsWritten h gate body) : IsWritten h gate n := by
  obtain ⟨ps, rfl, -, rfl⟩ := mkLambda_eq_ok.mp hn
  intro hforms hcalls
  obtain ⟨htypes, hbody⟩ := List.forall_mem_append.mp hforms
  have hread : ∀ p ∈ ps, Formed p.type := fun p hp =>
    ((hps (.parameter p) (List.mem_map.mpr ⟨p, hp, rfl⟩)).parameters p (List.mem_singleton.mpr rfl)).formed
  refine (encodeParameters_succeeds hread (List.forall_mem_flatMap.mp htypes)).bind fun ds hds => ?_
  refine (hb hbody hcalls).bind fun d _ => ?_
  exact lambdaDocument_succeeds d (by simpa [hds] using hcount)

/-- The class that the instance of a member belongs to has a name, so neither class is refused as anonymous. -/
theorem isWritten_member {e n : Node} {m : DataMember} (hn : mkMember l e m = .ok n) (he : IsWritten h gate e) :
    IsWritten h gate n := by
  obtain ⟨⟨c, hc, -⟩, rfl⟩ := mkMember_eq_ok.mp hn
  intro hforms hcalls
  have hclass : Signature.IsNamed (.cls m.declaring) := hforms _ (by simp [forms])
  have hinstance : Signature.IsNamed (.cls c) := hforms _ (by simp [forms, hc])
  have hform : e.type.runtimeForm = .cls c := by
    generalize e.type.runtimeForm = form at hc
    cases form <;> cases hc
    rfl
  have hexpression : e.type.isAnonymous = false := by
    rw [Ty.isAnonymous, hform]
    exact hinstance.isAnonymous
  have hanonymous : ((Ty.cls m.declaring).isAnonymous || e.type.isAnonymous) = false := by
    rw [hclass.isAnonymous, hexpression]
    rfl
  rw [encode, hanonymous]
  refine (he (List.forall_mem_append.mp hforms).1 hcalls).bind fun _ _ => ?_
  exact (typeText_succeeds (.cls _) (by simpa [Ty.forms] using hclass)).bind fun _ _ => .pure trivial

theorem isWritten_call {target : Option Node} {m : Method} {arguments : List Node} {n : Node}
    (hn : mkCall l target m arguments = .ok n) (ht : ∀ t, target = some t → IsWritten h gate t)
    (ha : ∀ a ∈ arguments, IsWritten h gate a) (hm : m.IsRead l) : IsWritten h gate n := by
  obtain ⟨-, -, haccepts, rfl⟩ := mkCall_eq_ok.mp hn
  intro hforms hcalls
  have hcount : arguments.length < 10 ^ integerDigitLimit := haccepts.length_eq ▸ hm.argumentCount
  have htexts : Succeeds (callTexts gate m arguments.length) fun _ => True :=
    callTexts_succeeds hm (fun form hform => hforms form (mem_forms_callOf.mpr (.inl hform))) hcount
      (hcalls m (mem_methods_callOf.mpr (.inl rfl)))
  have htarget : ∀ t, target = some t → Succeeds (t.encode h gate) fun _ => True := fun t hsome =>
    ht t hsome (fun form hform => hforms form (mem_forms_callOf.mpr (.inr (.inl ⟨t, hsome, hform⟩))))
      fun k hk => hcalls k (mem_methods_callOf.mpr (.inr (.inl ⟨t, hsome, hk⟩)))
  have harguments : ∀ a ∈ arguments, Succeeds (a.encode h gate) fun _ => True := fun a hmem =>
    ha a hmem (fun form hform => hforms form (mem_forms_callOf.mpr (.inr (.inr ⟨a, hmem, hform⟩))))
      fun k hk => hcalls k (mem_methods_callOf.mpr (.inr (.inr ⟨a, hmem, hk⟩)))
  rw [Transfer.encode_callOf]
  refine htexts.bind fun _ _ => (encodeTarget_succeeds htarget).bind fun _ _ => ?_
  exact (encodeAll_succeeds harguments).bind fun _ _ => .pure trivial

/-- A tree that was read is written. -/
theorem isWritten {n : Node} (hn : n.IsRead l) : IsWritten h gate n := by
  induction hn with
  | constant hn ht hv =>
    obtain ⟨-, rfl⟩ := mkConstant_eq_ok.mp hn
    rw [Transfer.constantType_given ht.formed]
    exact fun hforms _ => encodeConstant_succeeds ht.formed hforms hv
  | parameter ht => exact fun hforms _ => encodeParameter_succeeds ht.formed hforms
  | lambda hn hps hcount _ _ ihb => exact isWritten_lambda hn hps hcount ihb
  | binary hn _ _ ihl ihr =>
    obtain ⟨b, t, rfl, -, rfl⟩ := mkBinary_eq_ok.mp hn
    intro hforms hcalls
    obtain ⟨hleft, hright⟩ := List.forall_mem_append.mp hforms
    obtain ⟨hcleft, hcright⟩ := List.forall_mem_append.mp hcalls
    exact (ihl hleft hcleft).bind fun _ _ => (ihr hright hcright).bind fun _ _ => .pure trivial
  | converted hn _ _ _ ihl ihr ihc =>
    obtain ⟨p, body, rfl, rfl, -, -, rfl⟩ := mkConverted_eq_ok.mp hn
    intro hforms hcalls
    rw [forms_converted] at hforms
    obtain ⟨hoperands, hconversion⟩ := List.forall_mem_append.mp hforms
    obtain ⟨hleft, hright⟩ := List.forall_mem_append.mp hoperands
    obtain ⟨hcoperands, hcconversion⟩ := List.forall_mem_append.mp hcalls
    obtain ⟨hcleft, hcright⟩ := List.forall_mem_append.mp hcoperands
    rw [Transfer.encode_converted]
    refine (ihl hleft hcleft).bind fun _ _ => (ihr hright hcright).bind fun _ _ => ?_
    exact (ihc hconversion hcconversion).bind fun _ _ => .pure trivial
  | unary hn _ ht iho =>
    have hread := isRead_mkUnary hn ht
    obtain ⟨u, t, rfl, rfl⟩ := mkUnary_shape hn
    intro hforms hcalls
    obtain ⟨hoperand, htype⟩ := List.forall_mem_append.mp hforms
    exact (iho hoperand hcalls).bind fun _ _ => (typeText_succeeds hread.formed htype).bind fun _ _ => .pure trivial
  | member hn _ _ ihe => exact isWritten_member hn ihe
  | call hn _ _ hm iht iha => exact isWritten_call hn iht iha hm

end

end Node

end ExprTree
