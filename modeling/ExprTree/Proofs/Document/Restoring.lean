import ExprTree.Proofs.Document.Guid
import ExprTree.Proofs.Document.Interning
import ExprTree.Proofs.Document.Portable
import ExprTree.Proofs.Document.Roles
import ExprTree.Proofs.Node.Congruence
import ExprTree.Proofs.Policy

/-!
# Reading back what was written

Reading runs after all has been written, and visits parameters in the order in
which they were written. What it knows at each point is linked to what writing
knew at the same point; from linked states every step of reading succeeds and
yields what corresponds to what was written.
-/

namespace ExprTree

open Ty (Formed EquivalentAll)

/-- A node that was written, as far as reading it back depends on it: its parameters, each of
which its number tells apart, and what was known at the end. -/
structure Transfer where
  library : Library
  policy : Policy
  /-- The names that are known when reading starts. -/
  names : Names
  parameters : List Parameter
  unique : ∀ p ∈ parameters, ∀ q ∈ parameters, p.number = q.number → p = q
  final : Interning
  sound : final.IsSound
  bounded : final.minted < 16 ^ 12

namespace Transfer

variable (c : Transfer)

def IsReadable (t : Ty) : Prop :=
  t.IsReadable c.library c.policy.loadsModules c.names

/-- The number of a parameter leads to the place where it was put. -/
def Corresponds (a i : Nat) : Prop :=
  c.final.slots.lookup a = some i

/-- Does reading know what was written so far, and nothing else? -/
structure Linked (s : Interning) (σ : DecodeState) : Prop where
  reaches : c.names.Reaches c.library c.policy.loadsModules σ.names
  next : σ.next = s.arena.length
  known : ∀ p ∈ c.parameters, ∀ i, s.slots.lookup p.number = some i → ∃ e q, s.arena[i]? = some e ∧
    σ.parameters.lookup e.guid = some q ∧ q.number = i ∧ p.type.equivalent q.type = true ∧ p.name = q.name
  given : ∀ guid q, σ.parameters.lookup guid = some q → ∃ k ≤ s.minted, guid = Guid.nth k

/-- Between two points of writing, does reading succeed with a result of this sort? -/
def Restores {α : Type} (s s' : Interning) (x : Decoding α) (Q : α → Prop) : Prop :=
  ∀ σ, c.Linked s σ → ∃ a σ', x.run σ = (.ok a, σ') ∧ c.Linked s' σ' ∧ Q a

variable {c} {s s₁ s' : Interning} {α β : Type}

namespace Restores

variable {x : Decoding α} {f : α → Decoding β} {P Q : α → Prop} {R : β → Prop}

theorem pure {a : α} (h : Q a) : c.Restores s s (Pure.pure a) Q :=
  fun σ hσ => ⟨a, σ, rfl, hσ, h⟩

theorem bind (hx : c.Restores s s₁ x Q) (hf : ∀ a, Q a → c.Restores s₁ s' (f a) R) : c.Restores s s' (x >>= f) R := by
  intro σ hσ
  obtain ⟨a, σ₁, hrun, hσ₁, ha⟩ := hx σ hσ
  obtain ⟨b, σ', hrun', hσ', hb⟩ := hf a ha σ₁ hσ₁
  exact ⟨b, σ', (Action.run_bind_ok hrun f).trans hrun', hσ', hb⟩

theorem imp (hx : c.Restores s s' x P) (h : ∀ a, P a → Q a) : c.Restores s s' x Q := by
  intro σ hσ
  obtain ⟨a, σ', hrun, hσ', ha⟩ := hx σ hσ
  exact ⟨a, σ', hrun, hσ', h a ha⟩

end Restores

/-! ## Types -/

/-- A resolution that succeeds however many look-ups came before. -/
theorem restores_resolving {r : Signature.Resolving α} {Q : α → Prop}
    (h : ∀ names, c.names.Reaches c.library c.policy.loadsModules names → ∃ a after, r.run names = (.ok a, after) ∧
      names.Reaches c.library c.policy.loadsModules after ∧ Q a) : c.Restores s s (Document.resolving r) Q := by
  intro σ hσ
  obtain ⟨a, after, hrun, hreach, ha⟩ := h σ.names hσ.reaches
  refine ⟨a, { σ with names := after }, ?_, ⟨hσ.reaches.trans hreach, hσ.next, hσ.known, hσ.given⟩, ha⟩
  rw [Document.resolving_run, hrun]
  rfl

theorem restores_type {t : Ty} {text : String} (ht : c.IsReadable t) (htext : Signature.encodeType t = .ok text) :
    c.Restores s s (Document.type c.library c.policy text) fun t' => t.equivalent t' = true ∧ Formed t' :=
  restores_resolving fun _ hr => Signature.decodeType_readable ht htext hr

theorem restores_demand {b : Bool} (fault : DecodeFault) (h : b = true) :
    c.Restores s s (Document.demand b fault) fun _ => True := by
  rw [Document.demand, if_pos h]
  exact .pure trivial

variable {d : Document}

theorem restores_typesUnder {role : String} {ts : List Ty} {texts : List String} (hts : ∀ t ∈ ts, c.IsReadable t)
    (h : Document.AreWritten ts texts) (k : Nat) (hd : ∀ i : Nat, d.value? (role ++ toString (k + i)) = texts[i]?) :
    c.Restores s s (Document.typesUnder c.library c.policy d role ts.length k)
      fun ts' => EquivalentAll ts ts' ∧ ∀ t ∈ ts', Formed t := by
  induction h generalizing k with
  | nil => exact .pure ⟨.nil, by simp⟩
  | @cons t text ts texts ht _ ih =>
    have hfirst : d.value? (role ++ toString k) = some text := hd 0
    have hrest : ∀ i : Nat, d.value? (role ++ toString (k + 1 + i)) = texts[i]? := by
      intro i
      rw [show k + 1 + i = k + (i + 1) by omega]
      exact hd (i + 1)
    rw [List.length_cons, Document.typesUnder, Document.value_eq hfirst, pure_bind]
    refine (restores_type (hts t (by simp)) ht).bind fun t' ht' => ?_
    refine (ih (fun u hu => hts u (by simp [hu])) (k + 1) hrest).bind fun ts' hts' => ?_
    exact .pure ⟨.cons ht'.1 hts'.1, by simpa using ⟨ht'.2, hts'.2⟩⟩

theorem restores_checkTypes {memberText : String} {ts ts' : List Ty} {texts : List String}
    (hts : ∀ t ∈ ts, c.IsReadable t) (h : Document.AreWritten ts texts) (hsame : EquivalentAll ts ts') (k : Nat)
    (hd : ∀ i : Nat, d.value? ("ArgumentType" ++ toString (k + i)) = texts[i]?) :
    c.Restores s s (Document.checkTypes c.library c.policy d memberText k ts') fun _ => True := by
  induction h generalizing k ts' with
  | nil =>
    cases hsame
    exact .pure trivial
  | @cons t text ts texts ht _ ih =>
    cases hsame with | cons htt' hrest =>
    have hfirst : d.value? ("ArgumentType" ++ toString k) = some text := hd 0
    have hmore : ∀ i : Nat, d.value? ("ArgumentType" ++ toString (k + 1 + i)) = texts[i]? := by
      intro i
      rw [show k + 1 + i = k + (i + 1) by omega]
      exact hd (i + 1)
    rw [Document.checkTypes, Document.value_eq hfirst, pure_bind]
    refine (restores_type (hts t (by simp)) ht).bind fun written hwritten => ?_
    refine (restores_demand _ ?_).bind fun _ _ => ih (fun u hu => hts u (by simp [hu])) hrest (k + 1) hmore
    exact Ty.equivalent_trans (Ty.equivalent_symm hwritten.1) htt'

/-! ## Parameters -/

/-- The document of a parameter's entry. -/
def entryDocument (e : ParameterEntry) : Document :=
  .node Kind.parameter.tag [] [("Type", some e.type), ("Name", e.name), ("Guid", some e.guid)]

theorem encodeParameter_eq_ok {p : Parameter} (hs : s.IsSound) (h : (Node.encodeParameter p).run s = (.ok d, s')) :
    ∃ e, d = entryDocument e ∧
      ((s' = s ∧ ∃ i, s.slots.lookup p.number = some i ∧ s.arena[i]? = some e) ∨
        (s' = s.extended p.number e ∧ s.slots.lookup p.number = none ∧ e.guid = Guid.nth (s.minted + 1) ∧
          Signature.encodeType p.type = .ok e.type ∧ e.name = p.name)) := by
  rw [Node.run_encodeParameter] at h
  obtain ⟨i, e, hslot, he, hintern⟩ | ⟨hnew, ⟨fault, -, hintern⟩ | ⟨type, htype, hintern⟩⟩ := Interning.intern_cases hs p
  all_goals
    rw [hintern] at h
    cases h
  · exact ⟨e, rfl, .inl ⟨rfl, i, hslot, he⟩⟩
  · exact ⟨_, rfl, .inr ⟨rfl, hnew, rfl, htype, rfl⟩⟩

theorem decode_entryDocument {e : ParameterEntry} (h : Guid.isValid e.guid = true) :
    (entryDocument e).decode c.library c.policy =
      Document.parameterFor c.library c.policy e.guid e.type e.name >>= fun p => pure (.parameter p) := by
  have hdecode : Document.decodeParameter c.library c.policy (entryDocument e) =
      Document.parameterFor c.library c.policy e.guid e.type e.name := by
    have hguid : (entryDocument e).value? "Guid" = some e.guid := rfl
    have htype : (entryDocument e).value? "Type" = some e.type := rfl
    unfold Document.decodeParameter
    rw [Document.value_eq hguid, Document.value_eq htype, pure_bind]
    simp [h]
    rfl
  have hkind : Kind.ofTag? (entryDocument e).kind = some .parameter := Kind.ofTag_tag .parameter
  rw [Document.decode_parameter _ _ hkind, hdecode]

/-- An identifier that writing hands out is new to reading. -/
theorem Linked.lookup_new {σ : DecodeState} (hσ : c.Linked s σ) : σ.parameters.lookup (Guid.nth (s.minted + 1)) = none := by
  rw [Option.eq_none_iff_forall_ne_some]
  intro q hq
  obtain ⟨k, hk, heq⟩ := hσ.given _ q hq
  have := Guid.nth_injective heq
  omega

/-- Adding a parameter on both sides keeps them linked. -/
theorem Linked.extended {σ : DecodeState} (hσ : c.Linked s σ) (hs : s.IsSound) {p q : Parameter} {e : ParameterEntry}
    (hp : p ∈ c.parameters) (hguid : e.guid = Guid.nth (s.minted + 1)) (hq : q.number = σ.next)
    (hpq : p.type.equivalent q.type = true) (hname : p.name = q.name) :
    c.Linked (s.extended p.number e)
      { σ with parameters := (e.guid, q) :: σ.parameters, next := σ.next + 1 } := by
  have harena : (s.extended p.number e).arena = s.arena ++ [e] := rfl
  constructor
  · exact hσ.reaches
  · simp [harena, hσ.next]
  · intro p' hp' i hslot
    rw [Interning.lookup_extended] at hslot
    split at hslot
    · next hnumber =>
      obtain rfl := c.unique p' hp' p hp hnumber
      cases hslot
      refine ⟨e, q, by simp [harena], ?_, hq.trans hσ.next, hpq, hname⟩
      exact List.lookup_cons_self
    · obtain ⟨e', q', he', hlookup, hrest⟩ := hσ.known p' hp' i hslot
      have hne : e'.guid ≠ e.guid := by
        intro heq
        rw [heq, hguid, hσ.lookup_new] at hlookup
        cases hlookup
      refine ⟨e', q', ?_, ?_, hrest⟩
      · rw [harena, List.getElem?_append_left (hs.inside _ i hslot), he']
      · rw [List.lookup_cons, beq_eq_false_iff_ne.mpr hne]
        exact hlookup
  · intro guid q' hlookup
    rw [List.lookup_cons] at hlookup
    split at hlookup
    · next heq =>
      rw [beq_iff_eq] at heq
      exact ⟨s.minted + 1, le_refl _, heq.trans hguid⟩
    · obtain ⟨k, hk, heq⟩ := hσ.given guid q' hlookup
      exact ⟨k, hk.trans (Nat.le_succ _), heq⟩

/-- A parameter that was seen is looked up; a new one is added on both sides. -/
theorem restores_parameter {p : Parameter} (hp : p ∈ c.parameters) (ht : c.IsReadable p.type) (hs : s.IsSound)
    (h : (Node.encodeParameter p).run s = (.ok d, s')) (hfinal : s'.LeadsTo c.final) :
    c.Restores s s' (d.decode c.library c.policy) fun n => ∃ q, n = .parameter q ∧ Parameter.Iso c.Corresponds p q := by
  obtain ⟨e, rfl, ⟨rfl, i, hslot, he⟩ | ⟨rfl, hnew, hguid, htype, hname⟩⟩ := encodeParameter_eq_ok hs h
  · intro σ hσ
    obtain ⟨e', q, he', hlookup, hnumber, hpq, hnames⟩ := hσ.known p hp i hslot
    obtain rfl : e = e' := Option.some.inj (he.symm.trans he')
    obtain ⟨k, hk, hvalid⟩ := hσ.given e.guid q hlookup
    have hbound : k < 16 ^ 12 := lt_of_le_of_lt (hk.trans hfinal.minted) c.bounded
    refine ⟨.parameter q, σ, ?_, hσ, q, rfl, ?_, hpq, hnames⟩
    · rw [decode_entryDocument (hvalid ▸ Guid.isValid_nth hbound)]
      exact Action.run_bind_ok (Document.parameterFor_known _ _ hlookup _ _) _
    · rw [hnumber]
      exact hfinal.slots _ _ hslot
  · intro σ hσ
    have hbound : s.minted + 1 < 16 ^ 12 := lt_of_le_of_lt hfinal.minted c.bounded
    obtain ⟨t, σ₁, hrun, hσ₁, hpt, -⟩ := restores_type (s := s) ht htype σ hσ
    have hlinked := hσ₁.extended (q := ⟨σ₁.next, t, e.name⟩) hs hp hguid rfl hpt hname.symm
    refine ⟨.parameter ⟨σ₁.next, t, e.name⟩, _, ?_, hlinked, _, rfl, ?_, hpt, hname.symm⟩
    · rw [decode_entryDocument (hguid ▸ Guid.isValid_nth hbound)]
      refine Action.run_bind_ok (t := ?_) ?_ _
      rw [Document.parameterFor_new _ _ (hguid ▸ hσ.lookup_new), hrun]
    · refine hfinal.slots _ _ ?_
      rw [Interning.lookup_extended, if_pos rfl, hσ₁.next]

theorem restores_parametersFrom {ps : List Parameter} {ds : List Document} (hps : ∀ p ∈ ps, p ∈ c.parameters)
    (hts : ∀ p ∈ ps, c.IsReadable p.type) (hs : s.IsSound) (h : (Node.encodeParameters ps).run s = (.ok ds, s'))
    (hfinal : s'.LeadsTo c.final) (k : Nat) (hd : ∀ i : Nat, d.child? ("Parameter" ++ toString (k + i)) = ds[i]?) :
    c.Restores s s' (Document.parametersFrom d (Document.decodedUnder c.library c.policy d) ps.length k)
      fun ns => ∃ qs : List Parameter, ns = qs.map .parameter ∧ List.Forall₂ (Parameter.Iso c.Corresponds) ps qs := by
  induction ps generalizing s ds k with
  | nil =>
    cases h
    exact .pure ⟨[], rfl, .nil⟩
  | cons p ps ih =>
    obtain ⟨first, s₁, hfirst, h₁⟩ := Action.run_bind_eq_ok h
    obtain ⟨rest, s₂, hrest, h₂⟩ := Action.run_bind_eq_ok h₁
    cases h₂
    obtain ⟨hs₁, -⟩ := Node.encodeParameter_grows p s _ s₁ hs hfirst
    obtain ⟨-, hlater⟩ := Node.encodeParameters_grows ps s₁ _ s' hs₁ hrest
    have hchild : d.child? ("Parameter" ++ toString k) = some first := hd 0
    have hchildren : ∀ i : Nat, d.child? ("Parameter" ++ toString (k + 1 + i)) = rest[i]? := by
      intro i
      rw [show k + 1 + i = k + (i + 1) by omega]
      exact hd (i + 1)
    rw [List.length_cons, Document.parametersFrom, Document.decodedChild_eq _ _ hchild]
    refine (restores_parameter (hps p (by simp)) (hts p (by simp)) hs hfirst (hlater.trans hfinal)).bind fun n hn => ?_
    obtain ⟨q, rfl, hpq⟩ := hn
    refine (ih (fun p' hp' => hps p' (by simp [hp'])) (fun p' hp' => hts p' (by simp [hp'])) hs₁ hrest
      (k + 1) hchildren).bind fun ns hns => ?_
    obtain ⟨qs, rfl, hqs⟩ := hns
    exact .pure ⟨q :: qs, rfl, .cons hpq hqs⟩

/-! ## Constants -/

theorem given?_formed {t : Ty} (ht : Formed t) : Node.given? (some t) = some t := by
  cases ht with
  | members h => cases t <;> first | rfl | cases h
  | _ => rfl

theorem isInstance_scalar {l : Library} {h : Heap} {v : Value} {cls : ClassName} (hv : v.scalarClass? = some cls) :
    Arithmetic.isInstance l h v cls = .ok true := by
  have hname : h.className v = cls := by simp only [Heap.className, hv]
  have hne : cls ≠ .anything := by
    rintro rfl
    cases v with
    | float k => cases k <;> simp +decide [Value.scalarClass?] at hv
    | _ => simp +decide [Value.scalarClass?, ClassName.ofIntType, ClassName.anything] at hv
  rw [Arithmetic.isInstance, if_neg hne, hname]
  simp [Library.isSubclass]

theorem constantType_given {h : Heap} {v : Value} {t : Ty} (ht : Formed t) : Node.constantType h v (some t) = t := by
  rw [Node.constantType, given?_formed ht, Option.getD_some]

/-- A constant is accepted by the class that it is written for. -/
theorem mkConstant_exact {l : Library} {h : Heap} {v : Value} {t : Ty} (ht : Formed t) (hv : ConstantText.IsExact v t) :
    Node.mkConstant l h v (some t) = .ok (.constant v t) := by
  refine Node.mkConstant_eq_ok.mpr ⟨?_, by rw [constantType_given ht]⟩
  obtain rfl | ⟨cls, hcls, htarget, -⟩ := hv
  · exact .inl rfl
  · refine .inr fun cls' hcls' => ?_
    have hsame : Node.constantClass? t = some cls := by
      unfold ConstantText.target at htarget
      unfold Node.constantClass?
      cases hi : t.optionalInner? with
      | none =>
        rw [hi, Option.getD_none] at htarget
        subst htarget
        rfl
      | some i =>
        rw [hi, Option.getD_some] at htarget
        subst htarget
        rfl
    rw [constantType_given ht, hsame] at hcls'
    cases hcls'
    exact isInstance_scalar hcls

/-- What a type accepts as a constant, equivalent types do. -/
theorem mkConstant_congr {l : Library} {h : Heap} {v : Value} {t t' : Ty} (ht : Formed t) (ht' : Formed t')
    (hsame : t.equivalent t' = true) (hn : Node.mkConstant l h v (some t) = .ok (.constant v t)) :
    Node.mkConstant l h v (some t') = .ok (.constant v t') := by
  obtain ⟨hinstance, -⟩ := Node.mkConstant_eq_ok.mp hn
  rw [constantType_given ht, Ty.constantClass?_congr hsame, ← constantType_given (h := h) (v := v) ht'] at hinstance
  exact Node.mkConstant_eq_ok.mpr ⟨hinstance, by rw [constantType_given ht']⟩

theorem encodeConstant_eq_ok {h : Heap} {v : Value} {t : Ty} (hrun : (Node.encodeConstant h v t).run s = (.ok d, s')) :
    s' = s ∧ ∃ type text, Signature.encodeType t = .ok type ∧
      d = .node Kind.constant.tag [] [("Type", some type), ("Value", text)] ∧
      ((v.isNone = true ∧ text = none) ∨
        (v.isNone = false ∧ (ConstantText.formOf? (ConstantText.target t)).isSome = true ∧
          ∃ word, ConstantText.write? h v = some word ∧ text = some word)) := by
  have htext {text : Option String} (h : (do
      return .node Kind.constant.tag [] [("Type", some (← Node.typeText t)), ("Value", text)] : Encoding Document).run s =
        (.ok d, s')) : s' = s ∧ ∃ type, Signature.encodeType t = .ok type ∧
          d = .node Kind.constant.tag [] [("Type", some type), ("Value", text)] := by
    obtain ⟨type, s₁, htype, hpure⟩ := Action.run_bind_eq_ok h
    cases hpure
    obtain ⟨rfl, hencoded⟩ := Node.typeText_eq_ok htype
    exact ⟨rfl, type, hencoded, rfl⟩
  unfold Node.encodeConstant at hrun
  cases hv : v.isNone with
  | true =>
    simp only [hv, if_true, pure_bind] at hrun
    obtain ⟨hs, type, htype, hd⟩ := htext hrun
    exact ⟨hs, type, none, htype, hd, .inl ⟨rfl, rfl⟩⟩
  | false =>
    cases hform : (ConstantText.formOf? (ConstantText.target t)).isNone with
    | true =>
      simp only [hv, hform, Bool.false_eq_true, if_false, if_true] at hrun
      cases hrun
    | false =>
      simp only [hv, hform, Bool.false_eq_true, if_false] at hrun
      cases hword : ConstantText.write? h v with
      | none =>
        simp only [hword] at hrun
        cases hrun
      | some word =>
        simp only [hword, pure_bind] at hrun
        obtain ⟨hs, type, htype, hd⟩ := htext hrun
        refine ⟨hs, type, some word, htype, hd, .inr ⟨rfl, ?_, word, rfl, rfl⟩⟩
        rwa [← Option.not_isNone, Bool.not_eq_true']

theorem restores_constant {h : Heap} {v : Value} {t : Ty} (ht : c.IsReadable t)
    (hn : Node.mkConstant c.library Document.noHeap v (some t) = .ok (.constant v t)) (hv : ConstantText.Rereads v t)
    (hrun : (Node.encodeConstant h v t).run s = (.ok d, s')) :
    c.Restores s s' (d.decode c.library c.policy) (Node.Iso c.Corresponds (.constant v t)) := by
  obtain ⟨rfl, type, text, htype, rfl, hcases⟩ := encodeConstant_eq_ok hrun
  have hkind : Kind.ofTag? (Document.node Kind.constant.tag [] [("Type", some type), ("Value", text)]).kind =
    some .constant := Kind.ofTag_tag .constant
  have hvalue : (Document.node Kind.constant.tag [] [("Type", some type), ("Value", text)]).value? "Type" = some type := rfl
  rw [Document.decode_constant _ _ hkind, Document.decodeConstant, Document.value_eq hvalue, pure_bind]
  refine (restores_type ht htype).bind fun t' ht' => ?_
  obtain ⟨hsame, hformed⟩ := ht'
  have hbuild : Document.build (.node Kind.constant.tag [] [("Type", some type), ("Value", text)])
      (Node.mkConstant c.library Document.noHeap v (some t')) = pure (.constant v t') := by
    rw [mkConstant_congr ht.formed hformed hsame hn]
    rfl
  have htext : (Document.node Kind.constant.tag [] [("Type", some type), ("Value", text)]).value? "Value" = text := rfl
  rw [htext]
  obtain ⟨hnone, rfl⟩ | ⟨hsome, hform, word, hword, rfl⟩ := hcases
  · obtain rfl : v = .none := by cases v <;> first | rfl | cases hnone
    rw [hbuild]
    exact .pure (.constant hsame)
  · obtain rfl | hreads := hv.congr hsame
    · cases hsome
    · obtain ⟨f, hf⟩ := Option.isSome_iff_exists.mp hform
      rw [ConstantText.formOf?_congr (ConstantText.target_equivalent hsame)] at hf
      simp only [hf, hreads f hf h word hword, hbuild]
      exact .pure (.constant hsame)

/-! ## Members and methods -/

theorem restores_decodeMember {m : DataMember} {text : String} (hm : c.library.HasMember m)
    (hc : c.IsReadable (.cls m.declaring)) (htext : Signature.encodeType (.cls m.declaring) = .ok text)
    (htype : d.value? "Type" = some text) (hname : d.value? "Member" = some m.name)
    (hflag : d.value? "IsProperty" = some (if m.isProperty then "true" else "false")) :
    c.Restores s s (Document.decodeMember c.library c.policy d) fun m' => m' = m := by
  unfold Document.decodeMember
  rw [Document.value_eq htype, pure_bind]
  refine (restores_type hc htext).bind fun t ht => ?_
  obtain rfl := Ty.eq_cls_of_equivalent ht.1
  rw [Document.value_eq hname, Document.flag_eq hflag, pure_bind, pure_bind]
  have hclass : (Ty.cls m.declaring).runtimeForm.className? = some m.declaring := rfl
  simp only [hclass, hm.found]
  exact .pure rfl

/-- The definition of a method is closed again over types that are equivalent to its arguments. -/
theorem closeOver_equivalent {l : Library} {m : Method} {as : List Ty} (hm : l.Declares m) (hclosed : m.isDefinition = false)
    (hs : EquivalentAll m.arguments as) (memberText : String) :
    Document.closeOver memberText m.definition as = pure { m with arguments := as } := by
  unfold Document.closeOver
  obtain ⟨k, hmem, rfl | ⟨bs, hbs⟩⟩ := hm
  · have harguments := (Library.declaring_of_mem_methodsNamed hmem).2.2
    rw [harguments] at hs
    cases hs
    have hdefinition : m.definition = m := by rw [Method.definition, ← harguments]
    have hempty : (m.arguments.isEmpty && !m.isDefinition) = true := by rw [hclosed, harguments]; rfl
    rw [hdefinition, ← harguments, if_pos hempty]
  · obtain ⟨hopen, hlength, hall, rfl⟩ := Method.close_eq_ok.mp hbs
    have harguments := (Library.declaring_of_mem_methodsNamed hmem).2.2
    have hdefinition : Method.definition { k with arguments := bs } = k := by
      rw [Method.definition, ← harguments]
    have hclose : k.close as = .ok { k with arguments := as } := by
      refine Method.close_eq_ok.mpr ⟨hopen, hs.length_eq.symm.trans hlength, fun a ha => ?_, rfl⟩
      obtain ⟨b, hb, hba⟩ := forall₂_mem hs.flip ha
      rw [← Ty.isOpen_congr hba, hall b hb]
    rw [hdefinition, hopen, hclose]
    simp

/-- A method that no other is taken for is found and closed again. -/
theorem restores_namedMethod {m : Method} (hm : m.IsNameable c.library c.policy.loadsModules c.names)
    (honly : c.library.namesakes m = [m.definition]) (hclosed : m.isDefinition = false)
    (hnames : Document.NamesMethod d.values m m.parameterTypes.length) :
    c.Restores s s (Document.namedMethod c.library c.policy d) fun m' => ∃ as, m' = { m with arguments := as } ∧
      EquivalentAll m.arguments as ∧ ∀ a ∈ as, Formed a := by
  obtain ⟨member, hmember, hmember'⟩ := hnames.method
  obtain ⟨declaring, hdeclaring, hdeclaring'⟩ := hnames.declaring
  obtain ⟨given, hgiven, hgiven'⟩ := hnames.argumentCount
  obtain ⟨count, hcount, hcount'⟩ := hnames.genericCount
  obtain ⟨types, htypes, htypes'⟩ := hnames.parameterTypes
  obtain ⟨generics, hgenerics, hgenerics'⟩ := hnames.arguments
  have harguments : ∀ a ∈ m.arguments, Ty.Tidy a := fun a ha => (hm.types a (by simp [ha])).formed.tidy
  have hfound : c.Restores s s (Document.resolving (Signature.decodeMember c.library c.policy.loadsModules member))
      fun k => k = m.definition := by
    refine restores_resolving fun names hr => ?_
    obtain ⟨after, hreach, hone, -⟩ := Signature.decodeMember_readable hm.readable hmember' hr
    exact ⟨m.definition, after, hone _ honly, hreach, rfl⟩
  have hclass : c.IsReadable (.cls m.declaring) := Ty.isReadable_cls hm.readable.declaring
  unfold Document.namedMethod
  rw [Document.value_eq hmember, pure_bind]
  refine hfound.bind fun k hk => ?_
  subst hk
  rw [Document.value_eq hdeclaring, pure_bind]
  refine (restores_type hclass hdeclaring').bind fun t ht => ?_
  obtain rfl := Ty.eq_cls_of_equivalent ht.1
  refine (restores_demand _ ?_).bind fun _ _ => ?_
  · exact decide_eq_true (rfl : m.declaring = m.declaring)
  rw [Document.count_eq hcount hcount', pure_bind]
  refine (restores_typesUnder (fun a ha => hm.types a (by simp [ha])) hgenerics 0 ?_).bind fun as has => ?_
  · exact fun i => (Nat.zero_add i).symm ▸ hgenerics' i
  rw [closeOver_equivalent hm.declares hclosed has.1, pure_bind, Document.count_eq hgiven hgiven', pure_bind]
  have hsame := Method.parameterTypes_congr has.1 harguments fun a ha => (has.2 a ha).tidy
  refine (restores_demand _ ?_).bind fun _ _ => ?_
  · simpa using hsame.length_eq
  refine (restores_checkTypes (fun t ht => hm.types t (by simp [ht])) htypes hsame 0 ?_).bind fun _ _ => ?_
  · exact fun i => (Nat.zero_add i).symm ▸ htypes' i
  exact .pure ⟨as, rfl, has⟩

/-- It is allowed again, since the policy takes methods over equivalent arguments for the same. -/
theorem restores_decodeMethod {m : Method} (hm : m.IsNameable c.library c.policy.loadsModules c.names)
    (honly : c.library.namesakes m = [m.definition]) (hallowed : c.policy.allows m = true) (hclosed : m.isDefinition = false)
    (hnames : Document.NamesMethod d.values m m.parameterTypes.length) :
    c.Restores s s (Document.decodeMethod c.library c.policy d) fun m' => ∃ as, m' = { m with arguments := as } ∧
      EquivalentAll m.arguments as ∧ ∀ a ∈ as, Formed a := by
  unfold Document.decodeMethod
  refine (restores_namedMethod hm honly hclosed hnames).bind fun m' hm' => ?_
  obtain ⟨as, rfl, hs, has⟩ := hm'
  have harguments : ∀ a ∈ m.arguments, Ty.Tidy a := fun a ha => (hm.types a (by simp [ha])).formed.tidy
  have hsame := Method.same_reclosed hs harguments fun a ha => (has a ha).tidy
  refine (restores_demand _ ?_).bind fun _ _ => .pure ⟨as, rfl, hs, has⟩
  rw [← Policy.allows_same hsame rfl, hallowed]

end Transfer

end ExprTree
