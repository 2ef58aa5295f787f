import ExprTree.Proofs.Document.Meeting
import ExprTree.Proofs.Document.Safety
import ExprTree.Proofs.Document.Steps
import ExprTree.Proofs.Node.Isomorphism

/-!
# Which parameters are the same

Decoding comes across the Parameter nodes in their order, so parameters are the
same iff the nodes say the same identifier. Two documents that differ only in
what later Parameter nodes say about an identifier are decoded alike.
-/

namespace ExprTree

open Action (Yields)

namespace Document

variable {l : Library} {policy : Policy}

/-! ## Documents that differ in descriptors -/

/-- The documents are the same but for what their Parameter nodes say besides the identifier. -/
inductive Redescribed : Document → Document → Prop where
  | intro {d d' : Document} (kind : d'.kind = d.kind)
      (values : Kind.ofTag? d.kind ≠ some .parameter → ∀ role, d'.value? role = d.value? role)
      (guid : d'.value? "Guid" = d.value? "Guid") (typed : (d'.value? "Type").isSome = (d.value? "Type").isSome)
      (children : ∀ role, (d'.child? role).isSome = (d.child? role).isSome)
      (child : ∀ role c c', d.child? role = some c → d'.child? role = some c' → Redescribed c c') : Redescribed d d'

theorem Redescribed.refl (d : Document) : d.Redescribed d := by
  induction d using induct_child with
  | step d ih =>
    refine .intro rfl (fun _ _ => rfl) rfl rfl (fun _ => rfl) fun role c c' hc hc' => ?_
    obtain rfl := Option.some.inj (hc.symm.trans hc')
    exact ih role c hc

/-- Do the documents say the same, apart from their children? -/
structure SaysSame (d d' : Document) : Prop where
  kind : d'.kind = d.kind
  value? : ∀ role, d'.value? role = d.value? role

namespace SaysSame

variable {d d' : Document} (h : d.SaysSame d')

include h

theorem value : d'.value = d.value := by
  funext role
  simp only [Document.value, Document.malformed, h.kind, h.value?]

theorem count : d'.count = d.count := by
  funext role
  simp only [Document.count, Document.malformed, h.kind, h.value]

theorem flag : d'.flag = d.flag := by
  funext role
  simp only [Document.flag, Document.malformed, h.kind, h.value]

theorem build : d'.build = d.build := by
  funext node
  simp only [Document.build, Document.malformed, h.kind]

theorem number : d'.number = d.number := by
  funext role
  simp only [Document.number, h.value?]

theorem visited : d'.visited = d.visited := by
  simp only [Document.visited, h.kind, h.number]

theorem decodeConstant : decodeConstant l policy d' = decodeConstant l policy d := by
  simp only [Document.decodeConstant, h.value, h.value?, h.build]

theorem decodeMember : decodeMember l policy d' = decodeMember l policy d := by
  simp only [Document.decodeMember, h.value, h.flag]

theorem typesUnder (role : String) (n i : Nat) : typesUnder l policy d' role n i = typesUnder l policy d role n i := by
  induction n generalizing i with
  | zero => rfl
  | succ n ih => simp only [Document.typesUnder, h.value, ih]

theorem checkTypes (memberText : String) (i : Nat) (ts : List Ty) :
    checkTypes l policy d' memberText i ts = checkTypes l policy d memberText i ts := by
  induction ts generalizing i with
  | nil => rfl
  | cons t ts ih => simp only [Document.checkTypes, h.value, ih]

theorem decodeMethod : decodeMethod l policy d' = decodeMethod l policy d := by
  simp only [Document.decodeMethod, namedMethod, h.value, h.count, h.typesUnder, h.checkTypes]

end SaysSame

/-! ## Reading them -/

/-- Does the first computation change the names only, and only by looking some up? -/
def OnlyLooksUp (l : Library) (policy : Policy) {α : Type} (x : Decoding α) : Prop :=
  ∀ s r t, x.run s = (r, t) →
    t.parameters = s.parameters ∧ t.next = s.next ∧ s.names.Reaches l policy.loadsModules t.names

theorem resolving_onlyLooksUp {α : Type} {r : Signature.Resolving α}
    (h : ∀ names a names', r.run names = (a, names') → names.Reaches l policy.loadsModules names') :
    OnlyLooksUp l policy (resolving r) := by
  intro s a t hrun
  rw [resolving_run] at hrun
  cases hrun
  exact ⟨rfl, rfl, h s.names _ _ rfl⟩

theorem onlyLooksUp_isSteady (policy : Policy) (Said : String → Prop) :
    IsSteady l policy Said fun _ x => OnlyLooksUp l policy x where
  pure a := by
    rintro s r t ⟨⟩
    exact ⟨rfl, rfl, .refl⟩
  bind {_ _ x f} hx hf := by
    intro s r u hrun
    rcases hxs : x.run s with ⟨e | a, t⟩
    · rw [Action.run_bind_error hxs] at hrun
      cases hrun
      exact hx s _ _ hxs
    · rw [Action.run_bind_ok hxs] at hrun
      obtain ⟨hparameters, hnext, hnames⟩ := hx s _ t hxs
      obtain ⟨hparameters', hnext', hnames'⟩ := hf a t r u hrun
      exact ⟨hparameters'.trans hparameters, hnext'.trans hnext, hnames.trans hnames'⟩
  throw _ := by
    rintro s r t ⟨⟩
    exact ⟨rfl, rfl, .refl⟩
  long _ _ := by
    rintro s r t ⟨⟩
    exact ⟨rfl, rfl, .refl⟩
  type _ := resolving_onlyLooksUp fun _ _ _ h => Signature.decodeType_reaches _ h
  method _ := resolving_onlyLooksUp fun _ _ _ h => Signature.decodeMember_reaches _ h

theorem type_onlyLooksUp (text : String) : OnlyLooksUp l policy (type l policy text) :=
  resolving_onlyLooksUp fun _ _ _ h => Signature.decodeType_reaches _ h

/-- When the first computation succeeds, it comes across these nodes, which stand for the parameters that it gives;
and the second one, which comes across the others, ends the same way if the first nodes are described the same. -/
def Reads (l : Library) (policy : Policy) {α : Type} (es es' : List Document) (Gives : α → List Parameter → Prop)
    (x x' : Decoding α) : Prop :=
  ∀ s a t, x.run s = (.ok a, t) → ∃ ps, Gives a ps ∧ Meets l policy.loadsModules s es ps t ∧ es'.length = es.length ∧
    (SameFirsts s.known (es.zip es') → x'.run s = (.ok a, t))

namespace Reads

variable {α β : Type} {x x' : Decoding α} {f f' : α → Decoding β} {es es' es₂ es₂' : List Document} {P : α → Prop}
  {Gives Gives' : α → List Parameter → Prop} {Gives₂ : β → List Parameter → Prop}

theorem throw {e : DecodeFault} : Reads l policy es es' Gives (MonadExcept.throw e) x' := by
  rintro s a t ⟨⟩

theorem imp (hx : Reads l policy es es' Gives x x') (h : ∀ a ps, Gives a ps → Gives' a ps) :
    Reads l policy es es' Gives' x x' := by
  intro s a t hrun
  obtain ⟨ps, hps, hmeets⟩ := hx s a t hrun
  exact ⟨ps, h a ps hps, hmeets⟩

theorem steady (hx : OnlyLooksUp l policy x) (hP : Yields x P) :
    Reads l policy [] [] (fun a ps => ps = [] ∧ P a) x x := by
  intro s a t hrun
  obtain ⟨hparameters, hnext, hnames⟩ := hx s _ t hrun
  exact ⟨[], ⟨rfl, hP s a t hrun⟩, .done hparameters hnext hnames, rfl, fun _ => hrun⟩

theorem pure {a : α} (h : Gives a []) : Reads l policy [] [] Gives (Pure.pure a) (Pure.pure a) := by
  rintro s b t ⟨⟩
  exact ⟨[], h, .refl s, rfl, fun _ => rfl⟩

theorem bind (hx : Reads l policy es es' Gives x x')
    (hf : ∀ a ps, Gives a ps → Reads l policy es₂ es₂' (fun b ps' => Gives₂ b (ps ++ ps')) (f a) (f' a)) :
    Reads l policy (es ++ es₂) (es' ++ es₂') Gives₂ (x >>= f) (x' >>= f') := by
  intro s b u hrun
  obtain ⟨a, t, hxs, hfa⟩ := Action.run_bind_eq_ok hrun
  obtain ⟨ps, hps, hmeets, hlength, hsame⟩ := hx s a t hxs
  obtain ⟨ps', hps', hmeets', hlength', hsame'⟩ := hf a ps hps t b u hfa
  refine ⟨ps ++ ps', hps', hmeets.append hmeets', by simp [hlength, hlength'], fun hfirsts => ?_⟩
  rw [List.zip_append hlength.symm] at hfirsts
  obtain ⟨hbefore, hafter⟩ := hfirsts.append
  rw [Action.run_bind_ok (hsame hbefore)]
  have hzip : (es.zip es').map (·.1.value? "Guid") = es.map (·.value? "Guid") := by
    have hfst : (es.zip es').map Prod.fst = es := List.map_fst_zip hlength.ge
    calc (es.zip es').map (·.1.value? "Guid") = ((es.zip es').map Prod.fst).map (·.value? "Guid") := by
          rw [List.map_map]
          rfl
      _ = es.map (·.value? "Guid") := by rw [hfst]
  rw [hzip] at hafter
  exact hsame' (hafter.mono hmeets.known_subset)

/-- The last step may come across nothing. -/
theorem last (hx : Reads l policy es es' Gives x x')
    (hf : ∀ a ps, Gives a ps → Reads l policy [] [] (fun b ps' => Gives₂ b (ps ++ ps')) (f a) (f' a)) :
    Reads l policy es es' Gives₂ (x >>= f) (x' >>= f') := by
  have := hx.bind hf
  rwa [List.append_nil, List.append_nil] at this

theorem map {g : α → β} (hx : Reads l policy es es' Gives x x') (h : ∀ a ps, Gives a ps → Gives₂ (g a) ps) :
    Reads l policy es es' Gives₂ (x >>= fun a => Pure.pure (g a)) (x' >>= fun a => Pure.pure (g a)) :=
  hx.last fun a ps ha => .pure (by rw [List.append_nil]; exact h a ps ha)

/-- What only looks names up comes across no node. -/
theorem after (hx : OnlyLooksUp l policy x) (hP : Yields x P)
    (hf : ∀ a, P a → Reads l policy es₂ es₂' Gives₂ (f a) (f' a)) :
    Reads l policy es₂ es₂' Gives₂ (x >>= f) (x >>= f') :=
  (steady hx hP).bind fun a _ h => by
    rw [h.1]
    exact hf a h.2

end Reads

theorem build_reads {d d' : Document} (h : d.SaysSame d') {node : Built Node} (ps : List Parameter)
    (hnode : ∀ n, node = .ok n → n.parameters = ps) :
    Reads l policy [] [] (fun n ps' => ps ++ ps' = n.parameters) (d.build node) (d'.build node) := by
  rw [h.build]
  unfold build
  cases node with
  | error fault => exact .throw
  | ok n => exact .pure (by rw [hnode n rfl, List.append_nil])

theorem count_yields (d : Document) (role : String) : Yields (d.count role) fun n => n = d.number role := by
  unfold count
  refine .bind (P := fun text => d.value? role = some text) ?_ fun text htext => ?_
  · unfold value
    split
    · next text htext => exact .pure htext
    · exact .throw
  · dsimp only
    split
    · exact .throw
    · split
      · exact .throw
      · exact .pure (by rw [number, htext, Option.getD_some])

/-- A call has as many arguments as its method has parameters. -/
theorem decodeMethod_counts (d : Document) :
    Yields (decodeMethod l policy d) fun m => m.parameterTypes.length = d.number "ArgumentCount" := by
  unfold decodeMethod namedMethod
  refine .bind (P := fun m : Method => m.parameterTypes.length = d.number "ArgumentCount") ?_ fun m hm =>
    .after fun _ => .pure hm
  refine .after fun text => .after fun m => .after fun typeText => .after fun declaring => .after fun _ => ?_
  refine .after fun count => .after fun arguments => .after fun m => .bind (count_yields d _) fun given hgiven => ?_
  refine .bind (demand_yields _ _) fun _ hcount => .after fun _ => .pure ?_
  rw [← hgiven, eq_comm]
  simpa using hcount

theorem decodeParameter_eq_ok {d : Document} {s t : DecodeState} {p : Parameter} :
    (decodeParameter l policy d).run s = (.ok p, t) ↔ ∃ guid text, d.value? "Guid" = some guid ∧
      Guid.isValid guid = true ∧ d.value? "Type" = some text ∧
      (parameterFor l policy guid text (d.value? "Name")).run s = (.ok p, t) := by
  unfold decodeParameter value
  cases hguid : d.value? "Guid" with
  | none => simpa [malformed] using nofun
  | some guid =>
    cases hvalid : Guid.isValid guid with
    | false => simpa [hvalid, malformed] using nofun
    | true =>
      cases htext : d.value? "Type" with
      | none => simpa [hvalid, malformed] using nofun
      | some text => simp [hvalid]

/-- A Parameter node whose identifier is known is read without regard to what else it says. -/
theorem decodeParameter_reads {d d' : Document} (hguid : d'.value? "Guid" = d.value? "Guid")
    (htyped : (d'.value? "Type").isSome = (d.value? "Type").isSome) :
    Reads l policy [d] [d'] (fun p ps => ps = [p]) (decodeParameter l policy d) (decodeParameter l policy d') := by
  intro s p t hrun
  obtain ⟨guid, text, hd, hvalid, htext, hp⟩ := decodeParameter_eq_ok.mp hrun
  obtain ⟨text', htext'⟩ := Option.isSome_iff_exists.mp (htyped.trans (by rw [htext]; rfl))
  refine ⟨[p], rfl, ?_⟩
  cases hlookup : s.parameters.lookup guid with
  | some q =>
    rw [parameterFor_known l policy hlookup] at hp
    cases hp
    refine ⟨.again hd hlookup (.refl s), rfl, fun _ => ?_⟩
    exact decodeParameter_eq_ok.mpr ⟨guid, text', hguid.trans hd, hvalid, htext', parameterFor_known l policy hlookup _ _⟩
  | none =>
    have hp' := hp
    rw [parameterFor_new l policy hlookup] at hp'
    rcases htype : (type l policy text).run s with ⟨fault | u, s'⟩
    · rw [htype] at hp'
      cases hp'
    rw [htype] at hp'
    cases hp'
    have hresolved := htype
    rw [type, resolving_run] at hresolved
    rcases hnames : (Signature.decodeType l policy.loadsModules text).run s.names with ⟨fault | u', names'⟩
    · rw [hnames] at hresolved
      cases hresolved
    rw [hnames] at hresolved
    cases hresolved
    refine ⟨.first hd hlookup htext .refl hnames (.done rfl rfl .refl), rfl, fun hfirsts => ?_⟩
    obtain ⟨htypes, hnames'⟩ := hfirsts.1 (hd ▸ lookup_eq_none_iff_known.mp hlookup)
    exact decodeParameter_eq_ok.mpr ⟨guid, text, hguid.trans hd, hvalid, htypes.trans htext, hnames' ▸ hp⟩

section

variable {d d' : Document} (hchildren : ∀ role, (d'.child? role).isSome = (d.child? role).isSome)
  (ih : ∀ role c c', d.child? role = some c → d'.child? role = some c' →
    Reads l policy c.parameterNodes c'.parameterNodes (fun n ps => ps = n.parameters) (c.decode l policy) (c'.decode l policy))

include hchildren ih

theorem decodedChild_reads (role : String) :
    Reads l policy (d.nodesUnder role) (d'.nodesUnder role) (fun n ps => ps = n.parameters)
      (decodedChild d (decodedUnder l policy d) role) (decodedChild d' (decodedUnder l policy d') role) := by
  have hboth := hchildren role
  unfold decodedChild decodedUnder
  cases hc : d.child? role with
  | none => exact .throw
  | some c =>
    rw [hc] at hboth
    obtain ⟨c', hc'⟩ := Option.isSome_iff_exists.mp hboth
    rw [hc', nodesUnder_some hc, nodesUnder_some hc']
    exact ih role c c' hc hc'

theorem decodedChild?_reads (role : String) :
    Reads l policy (d.nodesUnder role) (d'.nodesUnder role) (fun n ps => ps = (n.map Node.parameters).getD [])
      (decodedChild? (decodedUnder l policy d) role) (decodedChild? (decodedUnder l policy d') role) := by
  have hboth := hchildren role
  unfold decodedChild? decodedUnder
  cases hc : d.child? role with
  | none =>
    rw [hc] at hboth
    have hc' : d'.child? role = none := by simpa using hboth
    rw [hc', nodesUnder_none hc, nodesUnder_none hc']
    exact .pure rfl
  | some c =>
    rw [hc] at hboth
    obtain ⟨c', hc'⟩ := Option.isSome_iff_exists.mp hboth
    rw [hc', nodesUnder_some hc, nodesUnder_some hc']
    exact (ih role c c' hc hc').map fun n ps h => h

theorem childrenUnder_reads (stem : String) (n i : Nat) :
    Reads l policy ((numberedRoles stem i n).flatMap d.nodesUnder) ((numberedRoles stem i n).flatMap d'.nodesUnder)
      (fun ns ps => ps = Node.parametersOfAll ns) (childrenUnder d (decodedUnder l policy d) stem n i)
      (childrenUnder d' (decodedUnder l policy d') stem n i) := by
  induction n generalizing i with
  | zero => exact .pure rfl
  | succ n ihn =>
    rw [numberedRoles_succ, List.flatMap_cons, List.flatMap_cons]
    refine (decodedChild_reads hchildren ih _).bind fun first ps h => (ihn (i + 1)).map fun rest ps' h' => ?_
    rw [h, h', Node.parametersOfAll]

theorem parametersFrom_reads (n i : Nat) :
    Reads l policy ((numberedRoles "Parameter" i n).flatMap d.nodesUnder) ((numberedRoles "Parameter" i n).flatMap d'.nodesUnder)
      (fun ns ps => ns = ps.map Node.parameter) (parametersFrom d (decodedUnder l policy d) n i)
      (parametersFrom d' (decodedUnder l policy d') n i) := by
  induction n generalizing i with
  | zero => exact .pure rfl
  | succ n ihn =>
    rw [numberedRoles_succ, List.flatMap_cons, List.flatMap_cons]
    refine (decodedChild_reads hchildren ih _).bind fun first ps h => ?_
    cases first with
    | parameter p => exact (ihn (i + 1)).map fun rest ps' h' => by rw [h, h', Node.parameters, List.map_append]; rfl
    | _ => exact .throw

end

theorem decodeConstant_parameters (d : Document) : Yields (decodeConstant l policy d) fun n => n.parameters = [] := by
  have hbuild (t : Ty) (v : Value) :
      Yields (d.build (Node.mkConstant l noHeap v (some t))) fun n => n.parameters = [] := by
    refine build_yields d fun n hn => ?_
    obtain ⟨-, rfl⟩ := Node.mkConstant_eq_ok.mp hn
    rfl
  unfold decodeConstant
  refine .after fun text => .after fun t => ?_
  split
  · exact hbuild t .none
  · dsimp only
    split
    · exact .throw
    · split
      · exact .throw
      · exact hbuild t _

theorem joinBinary_reads {d d' : Document} (h : d.SaysSame d') (k : Kind) (left right : Node)
    (conversion : Option Node) : Reads l policy [] []
      (fun n ps => left.parameters ++ (right.parameters ++ ((conversion.map Node.parameters).getD [] ++ ps)) = n.parameters)
      (joinBinary l d k left right conversion) (joinBinary l d' k left right conversion) := by
  unfold joinBinary
  split
  · refine (build_reads h (left.parameters ++ right.parameters) fun n hn => ?_).imp fun n ps hps => by simpa using hps
    obtain ⟨b, t, rfl, -, rfl⟩ := Node.mkBinary_eq_ok.mp hn
    rfl
  · next ps body =>
    refine (build_reads h (left.parameters ++ right.parameters ++ (ps ++ body.parameters)) fun n hn => ?_).imp
      fun n ps' hps => by simpa [Node.parameters] using hps
    obtain ⟨p, body', rfl, hlambda, -, -, rfl⟩ := Node.mkConverted_eq_ok.mp hn
    cases hlambda
    rfl
  · exact .throw

theorem Redescribed.reads {d d' : Document} (h : d.Redescribed d') :
    Reads l policy d.parameterNodes d'.parameterNodes (fun n ps => ps = n.parameters) (d.decode l policy)
      (d'.decode l policy) := by
  induction h with
  | @intro d d' kind values guid typed children _ ih =>
    by_cases hparameter : Kind.ofTag? d.kind = some .parameter
    · have hparameter' : Kind.ofTag? d'.kind = some .parameter := kind ▸ hparameter
      rw [decode_parameter l policy hparameter, decode_parameter l policy hparameter', parameterNodes_eq, parameterNodes_eq,
        if_pos hparameter, if_pos hparameter']
      exact (decodeParameter_reads guid typed).map fun p ps h => h
    have hsame : d.SaysSame d' := ⟨kind, values hparameter⟩
    have hchild := decodedChild_reads children ih
    have hchild? := decodedChild?_reads children ih
    rw [parameterNodes_eq, parameterNodes_eq, if_neg hparameter, if_neg (kind ▸ hparameter), hsame.visited, visited]
    have hsteady := onlyLooksUp_isSteady (l := l) policy d.Says
    cases d.tagged with
    | unsupported hk =>
      rw [decode_unsupported l policy hk]
      exact .throw
    | parameter hk => exact absurd hk hparameter
    | constant hk =>
      simp only [hk, List.flatMap_nil]
      rw [decode_constant l policy hk, decode_constant l policy (kind ▸ hk), hsame.decodeConstant]
      exact (Reads.steady hsteady.constant (decodeConstant_parameters d)).imp fun n ps h => by rw [h.1, h.2]
    | unary u hk =>
      simp only [hk, List.flatMap_cons, List.flatMap_nil, List.append_nil]
      rw [decode_unary l policy hk, decode_unary l policy (kind ▸ hk), hsame.value]
      refine (hchild "Operand").last fun operand ps h => .after (hsteady.value _) .any fun text _ => ?_
      refine .after (type_onlyLooksUp text) .any fun t _ => build_reads hsame ps fun n hn => ?_
      obtain ⟨u, t, -, rfl⟩ := Node.mkUnary_shape hn
      exact h.symm
    | binary b hk =>
      simp only [hk, List.flatMap_cons, List.flatMap_nil, List.append_nil]
      rw [decode_binary l policy hk, decode_binary l policy (kind ▸ hk)]
      refine (hchild "Left").bind fun left ps h => (hchild "Right").bind fun right ps' h' => ?_
      refine (hchild? "Conversion").last fun conversion ps'' h'' => ?_
      subst h h' h''
      exact joinBinary_reads hsame _ left right conversion
    | memberAccess hk =>
      simp only [hk, List.flatMap_cons, List.flatMap_nil, List.append_nil]
      rw [decode_member l policy hk, decode_member l policy (kind ▸ hk), hsame.decodeMember]
      refine .after hsteady.decodeMember .any fun m _ => (hchild "Expression").last fun e ps h => ?_
      refine build_reads hsame ps fun n hn => ?_
      obtain ⟨-, rfl⟩ := Node.mkMember_eq_ok.mp hn
      exact h.symm
    | lambda hk =>
      simp only [hk, List.flatMap_append, List.flatMap_cons, List.flatMap_nil, List.append_nil]
      rw [decode_lambda l policy hk, decode_lambda l policy (kind ▸ hk), hsame.count]
      refine .after (hsteady.count _) (count_yields d _) fun count hcount => ?_
      subst hcount
      refine (parametersFrom_reads children ih _ _).bind fun parameters ps h => (hchild "Body").last fun body ps' h' => ?_
      subst h h'
      refine (build_reads hsame (ps ++ body.parameters) fun n hn => ?_).imp fun n ps' hps => by simpa using hps
      obtain ⟨qs, hqs, -, rfl⟩ := Node.mkLambda_eq_ok.mp hn
      obtain rfl : ps = qs := List.map_injective_iff.mpr (fun _ _ => Node.parameter.inj) hqs
      rfl
    | call hk =>
      simp only [hk, List.flatMap_cons]
      rw [decode_call l policy hk, decode_call l policy (kind ▸ hk), hsame.decodeMethod]
      refine .after hsteady.decodeMethod (decodeMethod_counts d) fun m hm => ?_
      rw [hm]
      refine (hchild? "Object").bind fun target ps h => ?_
      refine (childrenUnder_reads children ih _ _ _).last fun arguments ps' h' => ?_
      subst h h'
      refine (build_reads hsame ((target.map Node.parameters).getD [] ++ Node.parametersOfAll arguments) fun n hn => ?_).imp
        fun n ps' hps => by simpa using hps
      obtain ⟨-, -, -, rfl⟩ := Node.mkCall_eq_ok.mp hn
      exact Node.parameters_callOf m arguments target

/-- In a decoded tree, parameters are the same iff the nodes that they were decoded from say the same identifier. Type
and name of each are those of the first node with its identifier; what later nodes with it say changes nothing. -/
theorem decode_identifies {d : Document} {n : Node} {names : Names} {next : Nat} {t : DecodeState}
    (h : (d.decode l policy).run ⟨names, [], next⟩ = (.ok n, t)) :
    d.parameterNodes.length = n.parameters.length ∧
    (∀ e p e' p', (e, p) ∈ d.parameterNodes.zip n.parameters → (e', p') ∈ d.parameterNodes.zip n.parameters →
      (p.number = p'.number ↔ e.value? "Guid" = e'.value? "Guid") ∧ (p.number = p'.number → p = p')) ∧
    (∀ e p, (e, p) ∈ d.parameterNodes.zip n.parameters → ∃ first,
      d.parameterNodes.find? (fun f => f.value? "Guid" = e.value? "Guid") = some first ∧
        Describes l policy.loadsModules first p names t.names) ∧
    ∀ d', d.Redescribed d' → SameFirsts [] (d.parameterNodes.zip d'.parameterNodes) →
      (d'.decode l policy).run ⟨names, [], next⟩ = (.ok n, t) := by
  obtain ⟨ps, rfl, hmeets, -, -⟩ := (Redescribed.refl d).reads _ n t h
  refine ⟨hmeets.length_eq, fun e p e' p' hp hp' => ?_, fun e p hp => ?_, fun d' hd hfirsts => ?_⟩
  · exact hmeets.same_iff (DecodeState.isNumbered_start names next) hp hp'
  · obtain ⟨guid, -, hlookup⟩ | hfirst := hmeets.described e p hp
    · cases hlookup
    · exact hfirst
  · obtain ⟨_, -, -, -, hsame⟩ := hd.reads _ n t h
    exact hsame hfirsts

/-- A lambda that adds its parameters, where the sum misdescribes the first of them. -/
def misdescribed : Document :=
  let int := "{builtins.int,builtins}"
  let parameter (type name guid : String) : Document :=
    .node "Parameter" [] [("Type", some type), ("Name", some name), ("Guid", some guid)]
  let first := "00000000-0000-4000-8000-000000000001"
  let second := "00000000-0000-4000-8000-000000000002"
  let sum := Document.node "Add" [("Left", some (parameter "{nowhere.Missing}" "z" first)),
    ("Right", some (parameter int "y" second))] []
  .node "Lambda" [("Parameter0", some (parameter int "x" first)), ("Parameter1", some (parameter int "y" second)),
    ("Body", some sum)] [("ParameterCount", some "2")]

theorem misdescribed_identifies :
    ∃ n t, (misdescribed.decode Sample.library .strict).run ⟨⟨Sample.library.preloaded, []⟩, [], 0⟩ = (.ok n, t) ∧
      n.parameters.map (·.number) = [0, 1, 0, 1] ∧
      misdescribed.parameterNodes.length = n.parameters.length ∧
      (∀ e p e' p', (e, p) ∈ misdescribed.parameterNodes.zip n.parameters →
        (e', p') ∈ misdescribed.parameterNodes.zip n.parameters →
        (p.number = p'.number ↔ e.value? "Guid" = e'.value? "Guid") ∧ (p.number = p'.number → p = p')) ∧
      (∀ e p, (e, p) ∈ misdescribed.parameterNodes.zip n.parameters → ∃ first,
        misdescribed.parameterNodes.find? (fun f => f.value? "Guid" = e.value? "Guid") = some first ∧
          Describes Sample.library Policy.strict.loadsModules first p ⟨Sample.library.preloaded, []⟩ t.names) ∧
      ∀ d', misdescribed.Redescribed d' → SameFirsts [] (misdescribed.parameterNodes.zip d'.parameterNodes) →
        (d'.decode Sample.library .strict).run ⟨⟨Sample.library.preloaded, []⟩, [], 0⟩ = (.ok n, t) := by
  obtain ⟨n, t, hrun, hnumbers⟩ := Action.exists_of_toOption
    (show ((misdescribed.decode Sample.library .strict).run ⟨⟨Sample.library.preloaded, []⟩, [], 0⟩).1.toOption.map
      (·.parameters.map (·.number)) = some [0, 1, 0, 1] by decide +kernel)
  exact ⟨n, t, hrun, hnumbers, decode_identifies hrun⟩

end Document

end ExprTree
