import ExprTree.Proofs.Document.Writing

/-!
# Writing again what was read

`decode_reencodes`: whatever document a tree was decoded from, it is written,
and what is written is decoded as an isomorphic tree, as long as the classes
and forms in it resolve to themselves. All that decoding yields was read, so it
has a text that is read back the same.
-/

namespace ExprTree

variable {l : Library} {policy : Policy}

/-! ## Reading back -/

theorem Ty.IsRead.isReadable {loads : Bool} {names : Names} {t : Ty} (h : t.IsRead)
    (hforms : ∀ form ∈ t.forms, form.ResolvesToItself l loads names) : t.IsReadable l loads names :=
  ⟨h.formed, fun form hform => (hforms form hform).isKnown, h.short⟩

theorem Method.IsRead.isNameable {loads : Bool} {names : Names} {m : Method} (hm : m.IsRead l)
    (hforms : ∀ form ∈ m.forms, form.ResolvesToItself l loads names) : m.IsNameable l loads names := by
  obtain ⟨hclass, hmentioned⟩ := Method.forall_forms.mp hforms
  refine ⟨hm.found.declares, ⟨hm.found.name, hm.found.arity, hclass.isKnown, fun t ht => ?_⟩, fun t ht => ?_⟩
  · exact (hm.found.parameters t ht).isReadable (hmentioned t (by simp [ht]))
  · obtain ht | ht := List.mem_append.mp ht
    · exact (hm.found.types hm.arguments t ht).isReadable (hmentioned t (by simp [ht]))
    · exact (hm.arguments t ht).isReadable (hmentioned t (by simp [ht]))

namespace Node

/-- A tree that was read is recovered from what is written of it. -/
theorem IsRead.recovers {c : Transfer} {h : Heap} {gate : Option Policy} {n : Node} (hn : n.IsRead c.library)
    (hforms : ∀ form ∈ n.forms, form.ResolvesToItself c.library c.policy.loadsModules c.names) :
    c.Recovers h gate n := by
  induction hn with
  | @constant v t n hn ht hv =>
    have hshape := hn
    obtain ⟨-, rfl⟩ := mkConstant_eq_ok.mp hshape
    rw [Transfer.constantType_given ht.formed] at hn hforms ⊢
    have hreads : ConstantText.Rereads v t := by
      obtain rfl | ⟨f, text, hf, hread⟩ := hv
      · exact .inl rfl
      · exact ConstantText.rereads_of_read hf hread
    intro _ _ s s' d _ hrun _
    exact (Transfer.restores_constant (ht.isReadable hforms) hn hreads hrun).imp fun _ hiso => ⟨hiso, by cases hiso; exact .nil⟩
  | parameter ht => exact Transfer.recovers_parameter (ht.isReadable hforms)
  | lambda hn hps _ _ _ ihb =>
    obtain ⟨ps, rfl, -, rfl⟩ := mkLambda_eq_ok.mp hn
    obtain ⟨htypes, hbody⟩ := List.forall_mem_append.mp hforms
    refine Transfer.recovers_lambda hn (fun p hp => ?_) (ihb hbody)
    have hmem : p ∈ ps := by simpa using hp
    have hread : p.type.IsRead := (hps _ hp).parameters p (List.mem_singleton.mpr rfl)
    exact hread.isReadable (List.forall_mem_flatMap.mp htypes p hmem)
  | binary hn _ _ ihl ihr =>
    have hshape := hn
    obtain ⟨b, t, rfl, -, rfl⟩ := mkBinary_eq_ok.mp hshape
    obtain ⟨hleft, hright⟩ := List.forall_mem_append.mp hforms
    exact Transfer.recovers_binary hn (ihl hleft) (ihr hright)
  | converted hn _ _ _ ihl ihr ihc =>
    have hshape := hn
    obtain ⟨p, body, rfl, rfl, -, -, rfl⟩ := mkConverted_eq_ok.mp hshape
    rw [forms_converted] at hforms
    obtain ⟨hoperands, hconversion⟩ := List.forall_mem_append.mp hforms
    obtain ⟨hleft, hright⟩ := List.forall_mem_append.mp hoperands
    exact Transfer.recovers_converted hn (ihl hleft) (ihr hright) (ihc hconversion)
  | unary hn _ ht iho =>
    have hread := isRead_mkUnary hn ht
    have hshape := hn
    obtain ⟨u, t, rfl, rfl⟩ := mkUnary_shape hshape
    obtain ⟨hoperand, htype⟩ := List.forall_mem_append.mp hforms
    exact Transfer.recovers_unary hn (iho hoperand) (hread.isReadable htype)
  | @member e n m hn _ hm ihe =>
    have hshape := hn
    obtain ⟨-, rfl⟩ := mkMember_eq_ok.mp hshape
    have hclass : (Ty.cls m.declaring).ResolvesToItself c.library c.policy.loadsModules c.names :=
      hforms _ (by simp [forms])
    exact Transfer.recovers_member hn (ihe (List.forall_mem_append.mp hforms).1) hm (Ty.isReadable_cls hclass.isKnown)
  | call hn _ _ hm iht iha =>
    have hshape := hn
    obtain ⟨-, -, -, rfl⟩ := mkCall_eq_ok.mp hshape
    refine Transfer.recovers_call hn (fun t ht => iht t ht fun form hform => ?_)
      (fun a ha => iha a ha fun form hform => ?_) (hm.isNameable fun form hform => ?_)
    · exact hforms form (mem_forms_callOf.mpr (.inr (.inl ⟨t, ht, hform⟩)))
    · exact hforms form (mem_forms_callOf.mpr (.inr (.inr ⟨a, ha, hform⟩)))
    · exact hforms form (mem_forms_callOf.mpr (.inl hform))

theorem IsRead.calls {n : Node} (hn : n.IsRead l) : n.Calls (Method.IsRead l) := by
  induction hn with
  | constant hn => exact .mkConstant hn
  | parameter => exact calls_leaf rfl
  | lambda hn _ _ _ _ ihb => exact ihb.mkLambda hn
  | binary hn _ _ ihl ihr => exact ihl.mkBinary ihr hn
  | converted hn _ _ _ ihl ihr ihc => exact ihl.mkConverted ihr ihc hn
  | unary hn _ _ iho => exact iho.mkUnary hn
  | member hn _ _ ihe => exact ihe.mkMember hn
  | call hn _ _ hm iht iha => exact .mkCall hm iht iha hn

end Node

namespace Document

variable {d : Document} {n : Node} {names names' : Names} {next : Nat} {t : DecodeState}

/-- Parameters of a decoded tree are told apart by their numbers. -/
theorem decode_unique (h : (d.decode l policy).run ⟨names, [], next⟩ = (.ok n, t)) :
    ∀ p ∈ n.parameters, ∀ q ∈ n.parameters, p.number = q.number → p = q := by
  obtain ⟨ps, rfl, hmeets, -, -⟩ := (Redescribed.refl d).reads _ n t h
  have hnode {p : Parameter} (hp : p ∈ n.parameters) : ∃ e, (e, p) ∈ d.parameterNodes.zip n.parameters := by
    rw [← List.map_snd_zip hmeets.length_eq.ge] at hp
    obtain ⟨⟨e, q⟩, hmem, rfl⟩ := List.mem_map.mp hp
    exact ⟨e, hmem⟩
  intro p hp q hq hnumber
  obtain ⟨e, he⟩ := hnode hp
  obtain ⟨f, hf⟩ := hnode hq
  exact (hmeets.same_iff (DecodeState.isNumbered_start names next) he hf).2 hnumber

/-- A lambda whose document names a class by its aliases, with and without hints and blanks, writes a number with a sign
and an underscore, describes a parameter in two ways, and says more than is asked for. -/
def respelled : Document :=
  let guid := "00000000-0000-4000-8000-000000000001"
  let parameter (type name : String) : Document :=
    .node "Parameter" [] [("Type", some type), ("Name", some name), ("Guid", some guid), ("Comment", some "none")]
  let seven := Document.node "Constant" [] [("Type", some "\x7bhostlib.np.int16\x7d"), ("Value", some " +0_7 ")]
  let sum := Document.node "Add" [("Left", some (parameter "\x7bnowhere.Missing\x7d" "m")), ("Right", some seven), ("Extra", some seven)] []
  .node "Lambda" [("Parameter0", some (parameter " \x7b numpy.short , numpy \x7d " "n")), ("Body", some sum)]
    [("ParameterCount", some "01")]

end Document

end ExprTree
