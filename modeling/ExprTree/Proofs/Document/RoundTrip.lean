import ExprTree.Proofs.Document.Restoring
import ExprTree.Proofs.Document.Safety
import ExprTree.Proofs.Node.Copies
import ExprTree.Proofs.Policy.Reload

/-!
# Round trip

A portable node that was written is read back as an isomorphic one, kind by
kind: what is read of its parts is isomorphic to them, and so the typing rules
build an isomorphic node of what is read.
-/

namespace ExprTree

namespace Transfer

open Ty (Formed)
open Node (Iso Copies)

variable {c : Transfer} {h : Heap} {policy : Option Policy} {s s₁ s' : Interning} {d : Document} {n : Node}

/-! ## Parts -/

variable (c h policy) in
/-- Whatever was written before it, is what is written of the node read back as a copy? -/
def Recovers (n : Node) : Prop :=
  (∀ p ∈ n.parameters, p ∈ c.parameters) →
    (∀ m ∈ n.methods, c.policy.allows m = true ∧ c.library.namesakes m = [m.definition]) →
    ∀ s s' d, s.IsSound → (n.encode h policy).run s = (.ok d, s') → s'.LeadsTo c.final →
      c.Restores s s' (d.decode c.library c.policy) (Copies c.Corresponds n)

theorem restores_build {node : Built Node} {Q : Node → Prop} (hn : ∃ n, node = .ok n ∧ Q n) :
    c.Restores s s (d.build node) Q := by
  obtain ⟨n, rfl, hQ⟩ := hn
  exact .pure hQ

theorem restores_childrenUnder {ns : List Node} {ds : List Document} (hns : ∀ n ∈ ns, c.Recovers h policy n)
    (hps : ∀ n ∈ ns, ∀ p ∈ n.parameters, p ∈ c.parameters)
    (hms : ∀ n ∈ ns, ∀ m ∈ n.methods, c.policy.allows m = true ∧ c.library.namesakes m = [m.definition])
    (hs : s.IsSound) (hrun : (Node.encodeAll h policy ns).run s = (.ok ds, s')) (hfinal : s'.LeadsTo c.final) (k : Nat)
    (hd : ∀ i : Nat, d.child? ("Argument" ++ toString (k + i)) = ds[i]?) :
    c.Restores s s' (Document.childrenUnder d (Document.decodedUnder c.library c.policy d) "Argument" ns.length k)
      (List.Forall₂ (Copies c.Corresponds) ns) := by
  induction ns generalizing s ds k with
  | nil =>
    cases hrun
    exact .pure .nil
  | cons n ns ih =>
    obtain ⟨first, s₁, hfirst, h₁⟩ := Action.run_bind_eq_ok hrun
    obtain ⟨rest, s₂, hrest, h₂⟩ := Action.run_bind_eq_ok h₁
    cases h₂
    obtain ⟨hs₁, -⟩ := Node.encode_grows h policy n s _ s₁ hs hfirst
    obtain ⟨-, hlater⟩ := Node.encodeAll_grows h policy ns s₁ _ s' hs₁ hrest
    have hchild : d.child? ("Argument" ++ toString k) = some first := hd 0
    have hchildren : ∀ i : Nat, d.child? ("Argument" ++ toString (k + 1 + i)) = rest[i]? := by
      intro i
      rw [show k + 1 + i = k + (i + 1) by omega]
      exact hd (i + 1)
    rw [List.length_cons, Document.childrenUnder, Document.decodedChild_eq _ _ hchild]
    refine (hns n (by simp) (hps n (by simp)) (hms n (by simp)) s s₁ first hs hfirst (hlater.trans hfinal)).bind
      fun n' hn' => ?_
    refine (ih (fun a ha => hns a (by simp [ha])) (fun a ha => hps a (by simp [ha])) (fun a ha => hms a (by simp [ha]))
      hs₁ hrest (k + 1) hchildren).bind fun ns' hns' => ?_
    exact .pure (.cons hn' hns')

/-! ## Kinds -/

theorem recovers_parameter {p : Parameter} (ht : c.IsReadable p.type) : c.Recovers h policy (.parameter p) := by
  intro hps _ s s' d hs hrun hfinal
  refine (restores_parameter (hps p (by simp [Node.parameters])) ht hs hrun hfinal).imp ?_
  rintro _ ⟨q, rfl, hpq⟩
  exact ⟨.parameter hpq, .nil⟩

theorem recovers_binary {k : Kind} {left right : Node} (hn : Node.mkBinary c.library k left right = .ok n)
    (hl : c.Recovers h policy left) (hr : c.Recovers h policy right) : c.Recovers h policy n := by
  intro hps hms s s' d hs hrun hfinal
  obtain ⟨b, t, rfl, -, rfl⟩ := Node.mkBinary_eq_ok.mp hn
  obtain ⟨dl, s₁, hleft, h₁⟩ := Action.run_bind_eq_ok hrun
  obtain ⟨dr, s₂, hright, h₂⟩ := Action.run_bind_eq_ok h₁
  cases h₂
  obtain ⟨hs₁, -⟩ := Node.encode_grows h policy left s _ s₁ hs hleft
  obtain ⟨-, hlater⟩ := Node.encode_grows h policy right s₁ _ s' hs₁ hright
  have hkind : Kind.ofTag? (Document.node (Kind.binary b).tag [("Left", some dl), ("Right", some dr)] []).kind =
    some (.binary b) := Kind.ofTag_tag (.binary b)
  rw [Document.decode_binary _ _ hkind, Document.decodedChild_eq (c := dl) _ _ rfl, Document.decodedChild_eq (c := dr) _ _ rfl,
    Document.decodedChild?_none _ _ rfl]
  refine (hl (fun p hp => hps p (List.mem_append_left _ hp)) (fun m hm => hms m (List.mem_append_left _ hm)) s s₁ dl hs hleft
    (hlater.trans hfinal)).bind fun left' hleft' => ?_
  refine (hr (fun p hp => hps p (List.mem_append_right _ hp)) (fun m hm => hms m (List.mem_append_right _ hm)) s₁ s' dr hs₁
    hright hfinal).bind fun right' hright' => ?_
  rw [pure_bind]
  exact restores_build (Node.mkBinary_copies hleft' hright' hn)

/-- The conversion is written as the lambda that it is. -/
theorem encode_converted (left right : Node) (p : Parameter) (body : Node) :
    (Node.converted left right p body).encode h policy = (do
      let left ← left.encode h policy
      let right ← right.encode h policy
      let conversion ← (Node.lambda [p] body).encode h policy
      return .node (Kind.binary .coalesce).tag
        [("Left", some left), ("Right", some right), ("Conversion", some conversion)] []) := by
  simp only [Node.encode, Node.encodeParameters, bind_assoc, pure_bind]

theorem recovers_converted {k : Kind} {left right conversion : Node}
    (hn : Node.mkConverted k left right conversion = .ok n) (hl : c.Recovers h policy left)
    (hr : c.Recovers h policy right) (hc : c.Recovers h policy conversion) : c.Recovers h policy n := by
  intro hps hms s s' d hs hrun hfinal
  obtain ⟨p, body, rfl, rfl, -, -, rfl⟩ := Node.mkConverted_eq_ok.mp hn
  rw [encode_converted] at hrun
  obtain ⟨dl, s₁, hleft, h₁⟩ := Action.run_bind_eq_ok hrun
  obtain ⟨dr, s₂, hright, h₂⟩ := Action.run_bind_eq_ok h₁
  obtain ⟨dc, s₃, hconversion, h₃⟩ := Action.run_bind_eq_ok h₂
  cases h₃
  obtain ⟨hs₁, -⟩ := Node.encode_grows h policy left s _ s₁ hs hleft
  obtain ⟨hs₂, hlater⟩ := Node.encode_grows h policy right s₁ _ s₂ hs₁ hright
  obtain ⟨-, hlater'⟩ := Node.encode_grows h policy _ s₂ _ s' hs₂ hconversion
  have hkind : Kind.ofTag? (Document.node (Kind.binary .coalesce).tag
    [("Left", some dl), ("Right", some dr), ("Conversion", some dc)] []).kind = some (.binary .coalesce) :=
      Kind.ofTag_tag (.binary .coalesce)
  rw [Document.decode_binary _ _ hkind, Document.decodedChild_eq (c := dl) _ _ rfl, Document.decodedChild_eq (c := dr) _ _ rfl,
    Document.decodedChild?_some (c := dc) _ _ rfl]
  have hparts : ∀ q ∈ left.parameters ++ right.parameters ++ p :: body.parameters, q ∈ c.parameters := hps
  have hcalls : ∀ m ∈ left.methods ++ right.methods ++ body.methods,
    c.policy.allows m = true ∧ c.library.namesakes m = [m.definition] := hms
  refine (hl (fun q hq => hparts q (by simp [hq])) (fun m hm => hcalls m (by simp [hm])) s s₁ dl hs hleft
    (hlater.trans (hlater'.trans hfinal))).bind fun left' hleft' => ?_
  refine (hr (fun q hq => hparts q (by simp [hq])) (fun m hm => hcalls m (by simp [hm])) s₁ s₂ dr hs₁ hright
    (hlater'.trans hfinal)).bind fun right' hright' => ?_
  rw [bind_assoc]
  refine (hc (fun q hq => hparts q (List.mem_append_right _ hq)) (fun m hm => hcalls m (List.mem_append_right _ hm)) s₂ s' dc hs₂
    hconversion hfinal).bind fun conversion' hconversion' => ?_
  rw [pure_bind]
  obtain ⟨qs, body', rfl⟩ : ∃ qs body', conversion' = .lambda qs body' := by
    cases hconversion'.iso
    exact ⟨_, _, rfl⟩
  exact restores_build (Node.mkConverted_copies hleft' hright' hconversion' hn)

theorem recovers_unary {k : Kind} {operand : Node} {type : Option Ty} (hn : Node.mkUnary k operand type = .ok n)
    (ho : c.Recovers h policy operand) (ht : c.IsReadable n.type) : c.Recovers h policy n := by
  intro hps hms s s' d hs hrun hfinal
  obtain ⟨u, t, rfl, rfl⟩ := Node.mkUnary_shape hn
  obtain ⟨de, s₁, hoperand, h₁⟩ := Action.run_bind_eq_ok hrun
  obtain ⟨text, s₂, htext, h₂⟩ := Action.run_bind_eq_ok h₁
  cases h₂
  obtain ⟨rfl, htype⟩ := Node.typeText_eq_ok htext
  have hkind : Kind.ofTag? (Document.node (Kind.unary u).tag [("Operand", some de)] [("Type", some text)]).kind =
    some (.unary u) := Kind.ofTag_tag (.unary u)
  have hvalue : (Document.node (Kind.unary u).tag [("Operand", some de)] [("Type", some text)]).value? "Type" =
    some text := rfl
  rw [Document.decode_unary _ _ hkind, Document.decodedChild_eq (c := de) _ _ rfl, Document.value_eq hvalue]
  refine (ho hps hms s s' de hs hoperand hfinal).bind fun operand' hoperand' => ?_
  rw [pure_bind]
  refine (restores_type ht htype).bind fun t' ht' => ?_
  exact restores_build (Node.mkUnary_copies hoperand' hn ht'.1 (given?_formed ht'.2))

theorem recovers_member {e : Node} {m : DataMember} (hn : Node.mkMember c.library e m = .ok n)
    (he : c.Recovers h policy e) (hm : c.library.HasMember m) (hc : c.IsReadable (.cls m.declaring)) :
    c.Recovers h policy n := by
  intro hps hms s s' d hs hrun hfinal
  obtain ⟨-, rfl⟩ := Node.mkMember_eq_ok.mp hn
  rw [Node.encode] at hrun
  split at hrun
  · cases hrun
  obtain ⟨de, s₁, hexpression, h₁⟩ := Action.run_bind_eq_ok hrun
  obtain ⟨text, s₂, htext, h₂⟩ := Action.run_bind_eq_ok h₁
  cases h₂
  obtain ⟨rfl, htype⟩ := Node.typeText_eq_ok htext
  have hkind : Kind.ofTag? (Document.node Kind.memberAccess.tag [("Expression", some de)]
    [("Type", some text), ("Member", some m.name),
      ("IsProperty", some (if m.isProperty then "true" else "false"))]).kind = some .memberAccess :=
        Kind.ofTag_tag .memberAccess
  rw [Document.decode_member _ _ hkind, Document.decodedChild_eq (c := de) _ _ rfl]
  refine (restores_decodeMember hm hc htype rfl rfl rfl).bind fun m' hm' => ?_
  subst hm'
  refine (he hps hms s s' de hs hexpression hfinal).bind fun e' he' => ?_
  exact restores_build (Node.mkMember_copies he' hn)

/-- Parameters that correspond to distinct ones are distinct. -/
theorem areDistinct_iso {ps qs : List Parameter} (h : List.Forall₂ (Parameter.Iso c.Corresponds) ps qs)
    (hps : Node.areDistinct ps = true) : Node.areDistinct qs = true := by
  induction h with
  | nil => rfl
  | @cons p q ps qs hpq hrest ih =>
    simp only [Node.areDistinct, Bool.and_eq_true, List.all_eq_true, decide_eq_true_eq] at hps ⊢
    refine ⟨fun q' hq' heq => ?_, ih hps.2⟩
    obtain ⟨p', hp', hpq'⟩ := forall₂_mem hrest.flip hq'
    refine hps.1 p' hp' (c.sound.separate _ _ q.number ?_ hpq.number)
    exact heq ▸ hpq'.number

theorem recovers_lambda {parameters : List Node} {body : Node} (hn : Node.mkLambda parameters body = .ok n)
    (hts : ∀ p, Node.parameter p ∈ parameters → c.IsReadable p.type) (hb : c.Recovers h policy body) :
    c.Recovers h policy n := by
  intro hps hms s s' d hs hrun hfinal
  obtain ⟨ps, rfl, hdistinct, rfl⟩ := Node.mkLambda_eq_ok.mp hn
  obtain ⟨ds, s₁, hparameters, h₁⟩ := Action.run_bind_eq_ok hrun
  obtain ⟨db, s₂, hbody, h₂⟩ := Action.run_bind_eq_ok h₁
  obtain ⟨rfl, hlambda⟩ := Node.lambdaDocument_eq_ok h₂
  obtain ⟨hs₁, -⟩ := Node.encodeParameters_grows ps s _ s₁ hs hparameters
  obtain ⟨-, hlater⟩ := Node.encode_grows h policy body s₁ _ s' hs₁ hbody
  rw [Document.decode_lambda _ _ hlambda.kind, hlambda.count, pure_bind, Node.length_encodeParameters hparameters,
    Document.decodedChild_eq _ _ hlambda.body]
  refine (restores_parametersFrom (fun p hp => hps p (List.mem_append_left _ hp))
    (fun p hp => hts p (List.mem_map.mpr ⟨p, hp, rfl⟩)) hs hparameters (hlater.trans hfinal) 0
    fun i => (Nat.zero_add i).symm ▸ hlambda.parameter i).bind fun ns hns => ?_
  obtain ⟨qs, rfl, hqs⟩ := hns
  refine (hb (fun p hp => hps p (List.mem_append_right _ hp)) hms s₁ s' db hs₁ hbody hfinal).bind fun body' hbody' => ?_
  refine restores_build ⟨.lambda qs body', ?_, .lambda hqs hbody'.iso, hbody'.declared⟩
  exact Node.mkLambda_eq_ok.mpr ⟨qs, rfl, areDistinct_iso hqs hdistinct, rfl⟩

/-- Writes the instance of a call, if there is one. -/
def encodeTarget (h : Heap) (policy : Option Policy) : Option Node → Encoding (Option Document)
  | some n => return some (← n.encode h policy)
  | none => return none

theorem encode_callOf (m : Method) (arguments : List Node) (target : Option Node) :
    (Node.callOf m arguments target).encode h policy = (do
      let texts ← Node.callTexts policy m arguments.length
      let target ← encodeTarget h policy target
      let arguments ← Node.encodeAll h policy arguments
      return .node Kind.call.tag
        (("Object", target) :: (Node.numbered "Argument" arguments).map fun (r, d) => (r, some d)) texts) := by
  cases target with
  | none => simp only [Node.callOf, Node.encode, encodeTarget, pure_bind]
  | some t => simp only [Node.callOf, Node.encode, encodeTarget, bind_assoc, pure_bind]

theorem encodeTarget_grows (target : Option Node) : Node.Grows (encodeTarget h policy target) := by
  cases target with
  | none => exact .pure _
  | some t => exact (Node.encode_grows h policy t).bind fun _ => .pure _

theorem restores_target {target : Option Node} {dt : Option Document}
    (hn : ∀ n, target = some n → c.Recovers h policy n ∧ (∀ p ∈ n.parameters, p ∈ c.parameters) ∧
      ∀ m ∈ n.methods, c.policy.allows m = true ∧ c.library.namesakes m = [m.definition])
    (hs : s.IsSound) (hrun : (encodeTarget h policy target).run s = (.ok dt, s')) (hfinal : s'.LeadsTo c.final)
    (hd : d.child? "Object" = dt) :
    c.Restores s s' (Document.decodedChild? (Document.decodedUnder c.library c.policy d) "Object")
      (Option.Rel (Copies c.Corresponds) target) := by
  cases target with
  | none =>
    cases hrun
    rw [Document.decodedChild?_none _ _ hd]
    exact .pure .none
  | some n =>
    obtain ⟨first, s₁, hfirst, h₁⟩ := Action.run_bind_eq_ok hrun
    cases h₁
    obtain ⟨hreads, hps, hms⟩ := hn n rfl
    rw [Document.decodedChild?_some _ _ hd]
    exact (hreads hps hms s s' first hs hfirst hfinal).bind fun n' hn' => .pure (.some hn')

theorem recovers_call {target : Option Node} {m : Method} {arguments : List Node}
    (hn : Node.mkCall c.library target m arguments = .ok n) (ht : ∀ t, target = some t → c.Recovers h policy t)
    (ha : ∀ a ∈ arguments, c.Recovers h policy a) (hm : m.IsNameable c.library c.policy.loadsModules c.names) :
    c.Recovers h policy n := by
  intro hps hms s s' d hs hrun hfinal
  obtain ⟨hclosed, -, haccepts, rfl⟩ := Node.mkCall_eq_ok.mp hn
  have hcount : m.parameterTypes.length = arguments.length := haccepts.length_eq
  have htarget : ∀ t, target = some t → c.Recovers h policy t ∧ (∀ p ∈ t.parameters, p ∈ c.parameters) ∧
      ∀ m ∈ t.methods, c.policy.allows m = true ∧ c.library.namesakes m = [m.definition] := fun t hsome =>
    ⟨ht t hsome, fun p hp => hps p (Node.mem_parameters_callOf.mpr (.inl ⟨t, hsome, hp⟩)),
      fun k hk => hms k (Node.mem_methods_callOf.mpr (.inr (.inl ⟨t, hsome, hk⟩)))⟩
  have hps' : ∀ a ∈ arguments, ∀ p ∈ a.parameters, p ∈ c.parameters := fun a hmem p hp =>
    hps p (Node.mem_parameters_callOf.mpr (.inr ⟨a, hmem, hp⟩))
  have hms' : ∀ a ∈ arguments, ∀ k ∈ a.methods, c.policy.allows k = true ∧ c.library.namesakes k = [k.definition] :=
    fun a hmem k hk => hms k (Node.mem_methods_callOf.mpr (.inr (.inr ⟨a, hmem, hk⟩)))
  rw [encode_callOf] at hrun
  obtain ⟨texts, s₁, htexts, h₁⟩ := Action.run_bind_eq_ok hrun
  obtain ⟨dt, s₂, hdt, h₂⟩ := Action.run_bind_eq_ok h₁
  obtain ⟨ds, s₃, hds, h₃⟩ := Action.run_bind_eq_ok h₂
  cases h₃
  obtain ⟨rfl, hnames⟩ := Node.callTexts_eq_ok htexts
  obtain ⟨hs₂, -⟩ := encodeTarget_grows target s₁ _ s₂ hs hdt
  obtain ⟨-, hlater⟩ := Node.encodeAll_grows h policy arguments s₂ _ s' hs₂ hds
  have hcall := Node.isCall_document texts dt ds
  have harguments : ∀ a ∈ m.arguments, Ty.Tidy a := fun a ha => (hm.types a (by simp [ha])).formed.tidy
  obtain ⟨hallowed, honly⟩ := hms m (Node.mem_methods_callOf.mpr (.inl rfl))
  rw [Document.decode_call _ _ hcall.kind]
  refine (restores_decodeMethod hm honly hallowed hclosed (hcount ▸ hnames)).bind fun m' hm' => ?_
  obtain ⟨as, rfl, hsame, hformed⟩ := hm'
  have htidy : ∀ a ∈ as, Ty.Tidy a := fun a ha => (hformed a ha).tidy
  have hparameters := Method.parameterTypes_congr hsame harguments htidy
  refine (restores_target htarget hs hdt (hlater.trans hfinal) hcall.target).bind fun target' htarget' => ?_
  rw [← hparameters.length_eq, hcount]
  refine (restores_childrenUnder ha hps' hms' hs₂ hds hfinal 0 fun i => (Nat.zero_add i).symm ▸ hcall.argument i).bind
    fun arguments' harguments' => ?_
  exact restores_build (Node.mkCall_copies (Method.same_reclosed hsame harguments htidy) rfl
    (Method.isDefinition_congr hsame) hparameters (Method.instantiate_congr hsame harguments htidy _)
    htarget' harguments' hn)

/-! ## Trees -/

theorem isReadable_parameter {l : Library} {loads : Bool} {names : Names} {p : Parameter}
    (hp : (Node.parameter p).IsPortable l loads names h) : p.type.IsReadable l loads names := by
  generalize hx : Node.parameter p = n at hp
  cases hp with
  | parameter ht =>
    cases hx
    exact ht
  | constant hn =>
    obtain ⟨-, rfl⟩ := Node.mkConstant_eq_ok.mp hn
    cases hx
  | lambda hn =>
    obtain ⟨_, -, -, rfl⟩ := Node.mkLambda_eq_ok.mp hn
    cases hx
  | binary hn =>
    obtain ⟨_, _, -, -, rfl⟩ := Node.mkBinary_eq_ok.mp hn
    cases hx
  | converted hn =>
    obtain ⟨_, _, -, -, -, -, rfl⟩ := Node.mkConverted_eq_ok.mp hn
    cases hx
  | unary hn =>
    obtain ⟨_, _, -, rfl⟩ := Node.mkUnary_shape hn
    cases hx
  | member hn =>
    obtain ⟨-, rfl⟩ := Node.mkMember_eq_ok.mp hn
    cases hx
  | @call target _ _ _ hn =>
    obtain ⟨-, -, -, rfl⟩ := Node.mkCall_eq_ok.mp hn
    cases target <;> cases hx

/-- What is written of a portable node is read back, whatever was written before it. -/
theorem recovers (hn : n.IsPortable c.library c.policy.loadsModules c.names h) : c.Recovers h policy n := by
  induction hn with
  | constant hn ht hv =>
    intro _ _ s s' d _ hrun _
    obtain ⟨-, rfl⟩ := Node.mkConstant_eq_ok.mp hn
    exact (restores_constant ht (mkConstant_exact ht.formed hv) hv.rereads hrun).imp
      fun _ hiso => ⟨hiso, by cases hiso; exact .nil⟩
  | parameter ht => exact recovers_parameter ht
  | lambda hn hps _ _ ih => exact recovers_lambda hn (fun p hp => isReadable_parameter (hps _ hp)) ih
  | binary hn _ _ ihl ihr => exact recovers_binary hn ihl ihr
  | converted hn _ _ _ ihl ihr ihc => exact recovers_converted hn ihl ihr ihc
  | unary hn _ ht ih => exact recovers_unary hn ih ht
  | member hn _ hm hc ih => exact recovers_member hn ih hm (Ty.isReadable_cls hc)
  | call hn _ _ hm iht iha => exact recovers_call hn iht iha hm.isNameable

/-- Every parameter has one place, and places of different parameters are different. -/
theorem corresponds_biUnique (c : Transfer) : Relator.BiUnique c.Corresponds :=
  ⟨fun _ _ _ ha hb => c.sound.separate _ _ _ ha hb, fun _ _ _ hi hj => Option.some.inj (hi.symm.trans hj)⟩

end Transfer

namespace Node

variable {l : Library} {p : Policy} {names : Names} {h : Heap} {gate : Option Policy} {n : Node} {d : Document} {s : Interning}

/-- The document of a node that is recovered is read back as a copy, if the policy allows its calls and no method of the
same signature is taken for the one that is called. -/
theorem decode_recovered (hn : ∀ c : Transfer, c.library = l → c.policy = p → c.names = names → c.Recovers h gate n)
    (hunique : ∀ q ∈ n.parameters, ∀ r ∈ n.parameters, q.number = r.number → q = r)
    (hcalls : n.Calls fun m => p.allows m = true ∧ l.namesakes m = [m.definition])
    {minted : Nat} (hrun : (n.encode h gate).run (Interning.start minted) = (.ok d, s)) (hbound : s.minted < 16 ^ 12) :
    ∃ n' σ R, (d.decode l p).run ⟨names, [], 0⟩ = (.ok n', σ) ∧ Relator.BiUnique R ∧ Copies R n n' := by
  obtain ⟨hsound, -⟩ := encode_grows h gate n (Interning.start minted) _ s (Interning.isSound_start minted) hrun
  let c : Transfer := ⟨l, p, names, n.parameters, hunique, s, hsound, hbound⟩
  have hstart : c.Linked (Interning.start minted) ⟨names, [], 0⟩ :=
    ⟨.refl, rfl, fun _ _ i hi => by simp [Interning.start] at hi, fun guid q hq => by simp at hq⟩
  obtain ⟨n', σ, hdecode, -, hcopy⟩ := hn c rfl rfl rfl (fun _ => id) hcalls (Interning.start minted) s d
    (Interning.isSound_start minted) hrun (.refl s) _ hstart
  exact ⟨n', σ, c.Corresponds, hdecode, c.corresponds_biUnique, hcopy⟩

/-- The document of a portable node is read back as a copy. -/
theorem decode_copies (hn : n.IsPortable l p.loadsModules names h)
    (hunique : ∀ q ∈ n.parameters, ∀ r ∈ n.parameters, q.number = r.number → q = r)
    (hcalls : n.Calls fun m => p.allows m = true ∧ l.namesakes m = [m.definition])
    {minted : Nat} (hrun : (n.encode h gate).run (Interning.start minted) = (.ok d, s)) (hbound : s.minted < 16 ^ 12) :
    ∃ n' σ R, (d.decode l p).run ⟨names, [], 0⟩ = (.ok n', σ) ∧ Relator.BiUnique R ∧ Copies R n n' := by
  refine decode_recovered (fun c hl hp hnames => Transfer.recovers ?_) hunique hcalls hrun hbound
  rw [hl, hp, hnames]
  exact hn

/-- Nothing but what is loaded from the start. -/
def sampleNames : Names := ⟨Sample.library.preloaded, []⟩

theorem isKnown_sample {c : ClassName} (hname : Signature.IsTypeWord c.dotted)
    (hhint : Signature.IsWord (Ty.packageOf c.module))
    (hfind : (Sample.library.find c.dotted (some (Ty.packageOf c.module)) false
      Sample.library.preloaded).1.bind Ty.className? = some c) :
    (Ty.cls c).IsKnown Sample.library false sampleNames :=
  Ty.isKnown_cls (Library.loadsNothing_of_not _ _) (Names.isFaithful_fresh _ _ _) hname hhint hfind

theorem isReadable_sample_int : Ty.int.IsReadable Sample.library false sampleNames :=
  Ty.isReadable_cls (isKnown_sample (by decide) (by decide) (by decide))

theorem isKnown_counter : (Ty.cls Sample.counter).IsKnown Sample.library false sampleNames :=
  isKnown_sample (by decide) (by decide) (by decide)

/-- A whole number as it is written in a program. -/
theorem isPortable_int (i : Int) : IsPortable Sample.library false sampleNames .empty (.constant (.int i) .int) :=
  .constant (Transfer.mkConstant_exact (.cls _) (.inr ⟨_, rfl, rfl, trivial⟩)) isReadable_sample_int
    (.inr ⟨_, rfl, rfl, trivial⟩)

theorem isPortable_wrapOver : (Policy.wrapOver [.int]).IsPortable Sample.library false sampleNames where
  declares := Policy.declares_wrapOver (by decide)
  readable := by
    refine ⟨by decide, Signature.lt_digitBound Nat.le.refl, isKnown_counter, fun t ht => ?_⟩
    obtain rfl : t = .parameter 0 "T" := List.mem_singleton.mp ht
    refine ⟨.parameter 0 _, fun form hform => absurd hform List.not_mem_nil, fun p hp => ?_⟩
    obtain rfl : p = 0 := List.mem_singleton.mp hp
    exact Signature.lt_digitBound (Nat.zero_le 1)
  types t ht := by
    obtain rfl | rfl : t = .int ∨ t = .int := List.mem_pair.mp ht
    · exact isReadable_sample_int
    · exact isReadable_sample_int
  result := .generic (by simp) (by simpa using .parameter 0 _)

/-- The counter that is wrapped. -/
def wrapped : Parameter := ⟨7, .cls Sample.counter, some "c"⟩

/-- A call of a generic method on the counter. -/
def wrapCall : Node :=
  .callOn (.parameter wrapped) (Policy.wrapOver [.int]) [.constant (.int 5) .int]

theorem isPortable_wrapper : (Node.lambda [wrapped] wrapCall).IsPortable Sample.library false sampleNames .empty := by
  have hparameter : (Node.parameter wrapped).IsPortable Sample.library false sampleNames .empty :=
    .parameter (Ty.isReadable_cls isKnown_counter)
  have htarget : takesTarget Sample.library (Policy.wrapOver [.int]) (some (.parameter wrapped)) = true := by decide
  have hargument : Sample.library.accepts .int .int = true := by decide
  have hcall : mkCall Sample.library (some (.parameter wrapped)) (Policy.wrapOver [.int]) [.constant (.int 5) .int] =
      .ok wrapCall := mkCall_eq_ok.mpr ⟨rfl, htarget, .cons hargument .nil, rfl⟩
  have hlambda : mkLambda [.parameter wrapped] wrapCall = .ok (.lambda [wrapped] wrapCall) := rfl
  refine .lambda hlambda (by simpa using hparameter) (.call hcall ?_ ?_ isPortable_wrapOver)
  · rintro _ ⟨⟩
    exact hparameter
  · simpa using isPortable_int 5

/-- The wrapper is written. -/
theorem exists_wrapper :
    ∃ d s, ((Node.lambda [wrapped] wrapCall).encode .empty none).run (Interning.start 0) = (.ok d, s) ∧
      s.minted < 16 ^ 12 := by
  obtain ⟨d, s, hrun, -⟩ := Action.exists_of_toOption
    (show ((((Node.lambda [wrapped] wrapCall).encode .empty none).run (Interning.start 0)).1.toOption.map
      (·.kind)) = some "Lambda" by decide +kernel)
  have hminted : (((Node.lambda [wrapped] wrapCall).encode .empty none).run (Interning.start 0)).2.minted < 16 ^ 12 := by
    decide +kernel
  exact ⟨d, s, hrun, by rwa [hrun] at hminted⟩

theorem unique_wrapper : ∀ q ∈ (Node.lambda [wrapped] wrapCall).parameters,
    ∀ r ∈ (Node.lambda [wrapped] wrapCall).parameters, q.number = r.number → q = r := by
  have hsame : ∀ q ∈ [wrapped, wrapped], q = wrapped := by simp
  exact fun q hq r hr _ => (hsame q hq).trans (hsame r hr).symm

theorem calls_wrapper : (Node.lambda [wrapped] wrapCall).Calls fun m =>
    Document.counterPolicy.allows m = true ∧ Sample.library.namesakes m = [m.definition] := by
  intro m hm
  obtain rfl : m = Policy.wrapOver [.int] := List.mem_singleton.mp hm
  exact ⟨by decide, rfl⟩

/-- A method of this name that takes a whole number and needs no instance. -/
def pick (name : String) : Method :=
  ⟨⟨Sample.ambiguous, name, [("value", .int)], .int, true, []⟩, []⟩

def pickCall (name : String) : Node :=
  .call (pick name) [.constant (.int 1) .int]

/-- The sample library with a method of this name as the only one of its class. -/
def renamed (name : String) : Library :=
  { Sample.library with
    classes := Sample.library.classes.map fun i =>
      if i.name = Sample.ambiguous then
        { i with attributes := [(name, .method .free [⟨[("value", .resolved .int rfl)], .resolved .int rfl, none⟩])] }
      else i }

/-- Allows every call and loads nothing. -/
def lenient : Policy := { Policy.strict with allowsAllCalls := true }

theorem isPortable_pickCall : (pickCall "pick").IsPortable Sample.library false sampleNames .empty := by
  have hmem : pick "pick" ∈ Sample.library.methodsNamed Sample.ambiguous "pick" := by
    rw [show Sample.library.methodsNamed Sample.ambiguous "pick" =
      [pick "pick", ⟨⟨Sample.ambiguous, "pick", [("value", .int)], .str, true, []⟩, []⟩] by rfl]
    simp
  have hpick : (pick "pick").IsPortable Sample.library false sampleNames := by
    have hint : ∀ t ∈ [Ty.int], t.IsReadable Sample.library false sampleNames := by simpa using isReadable_sample_int
    exact ⟨Library.declares_of_mem hmem,
      ⟨by decide, Signature.lt_digitBound (Nat.zero_le 1), isKnown_sample (by decide) (by decide) (by decide), hint⟩, hint, .cls _⟩
  have hargument : Sample.library.accepts .int .int = true := by decide
  have hcall : mkCall Sample.library none (pick "pick") [.constant (.int 1) .int] = .ok (pickCall "pick") :=
    mkCall_eq_ok.mpr ⟨rfl, rfl, .cons hargument .nil, rfl⟩
  exact .call hcall (by simp) (by simpa using isPortable_int 1) hpick

/-- How many methods a reader found where it looked for one. -/
def overloads : Except DecodeFault Node → Nat
  | .error (.signature (.memberNotFound _ (.several k))) => k
  | _ => 0

theorem eq_of_overloads {r : Except DecodeFault Node} {k : Nat} (h : overloads r = k + 1) :
    ∃ text, r = .error (.signature (.memberNotFound text (.several (k + 1)))) := by
  unfold overloads at h
  split at h
  · next text _ => exact ⟨text, by rw [h]⟩
  · cases h

/-- Did a reader stop at a text that is no signature? -/
def isMisspelt : Except DecodeFault Node → Bool
  | .error (.signature (.invalid _ _)) => true
  | _ => false

theorem eq_of_isMisspelt {r : Except DecodeFault Node} (h : isMisspelt r = true) :
    ∃ text fault, r = .error (.signature (.invalid text fault)) := by
  unfold isMisspelt at h
  split at h
  · next text fault => exact ⟨text, fault, rfl⟩
  · cases h

end Node

end ExprTree
