import ExprTree.Host.Sample
import ExprTree.Proofs.Action
import ExprTree.Proofs.Document.Decoding
import ExprTree.Proofs.Member
import ExprTree.Proofs.Node.Calls
import ExprTree.Proofs.Signature.Lookup

/-!
# What a decoded tree can call

`decode_calls`: whatever a document says, every call in the tree that is
decoded from it is one that the policy allows, of a method that its class
declares, closed where it is generic, and with closed parameters. The strict
policy yields trees without calls.
-/

namespace ExprTree

open Action (Yields)

variable {l : Library} {policy : Policy}

/-! ## Resolved types and methods -/

namespace Signature

theorem resolveName_yields (loads : Bool) (name : String) (hint : Option String) :
    Yields (resolveName l loads name hint) Ty.IsForm := by
  intro names t names' hrun
  rw [resolveName_run] at hrun
  exact Ty.isForm_iff.mp (answer_eq_ok.mp (congrArg Prod.fst hrun)).2

mutual

theorem TypeSig.resolve_formed (loads : Bool) : ∀ s : TypeSig, Yields (s.resolve l loads) Ty.Formed
  | .parameter position => .pure (.parameter position "")
  | .named name arguments hint => by
    unfold TypeSig.resolve
    refine .bind (resolveName_yields loads name hint) fun origin horigin => ?_
    exact .bind (TypeSig.resolveAll_formed loads arguments) fun as has => .pure (.close horigin has)

theorem TypeSig.resolveAll_formed (loads : Bool) :
    ∀ ss : List TypeSig, Yields (TypeSig.resolveAll l loads ss) fun ts => ∀ t ∈ ts, Ty.Formed t
  | [] => .pure (by simp)
  | s :: ss => by
    unfold TypeSig.resolveAll
    refine .bind (TypeSig.resolve_formed loads s) fun t ht => ?_
    exact .bind (TypeSig.resolveAll_formed loads ss) fun ts hts => .pure (List.forall_mem_cons.mpr ⟨ht, hts⟩)

end

theorem decodeType_formed (loads : Bool) (text : String) : Yields (decodeType l loads text) Ty.Formed := by
  unfold decodeType
  split
  · exact TypeSig.resolve_formed loads _
  · exact .throw

theorem MemberSig.resolve_declared (loads : Bool) (s : MemberSig) :
    Yields (s.resolve l loads) fun m => ∃ c name, m ∈ l.methodsNamed c name := by
  unfold MemberSig.resolve
  refine .after fun declaring => .after fun types => ?_
  split
  · exact .throw
  · next c _ =>
    split
    · next m hm =>
      have hmem : m ∈ (l.methodsNamed c s.name).filter (isCandidate s.arity types) := by simp [hm]
      exact .pure ⟨c, s.name, List.mem_of_mem_filter hmem⟩
    · exact .throw
    · exact .throw

theorem decodeMember_declared (loads : Bool) (text : String) :
    Yields (decodeMember l loads text) fun m => ∃ c name, m ∈ l.methodsNamed c name := by
  unfold decodeMember
  split
  · exact MemberSig.resolve_declared loads _
  · exact .throw

end Signature

namespace Document

theorem resolving_yields {α : Type} {P : α → Prop} {r : Signature.Resolving α} (h : Yields r P) :
    Yields (resolving r) P := by
  intro s a t hrun
  rcases hr : r.run s.names with ⟨_ | b, names⟩
  · simp [resolving, Action.run_bind, hr] at hrun
    cases hrun
  · simp [resolving, Action.run_bind, hr] at hrun
    cases hrun
    exact h _ _ _ hr

/-! ## The gate -/

theorem demand_yields (b : Bool) (fault : DecodeFault) : Yields (demand b fault) fun _ => b = true := by
  unfold demand
  cases b with
  | true => exact .pure rfl
  | false => exact .throw

theorem typesUnder_formed (d : Document) (role : String) (n i : Nat) :
    Yields (typesUnder l policy d role n i) fun ts => ∀ t ∈ ts, Ty.Formed t := by
  induction n generalizing i with
  | zero => exact .pure (by simp)
  | succ n ih =>
    refine .after fun text => .bind (resolving_yields (Signature.decodeType_formed _ text)) fun t ht => ?_
    exact .bind (ih (i + 1)) fun ts hts => .pure (List.forall_mem_cons.mpr ⟨ht, hts⟩)

theorem closeOver_yields {d : Method} {name : String} {c : ClassName} (hd : d ∈ l.methodsNamed c name)
    (text : String) {arguments : List Ty} (harguments : ∀ a ∈ arguments, Ty.Formed a) :
    Yields (closeOver text d arguments) fun m =>
      l.Declares m ∧ m.isDefinition = false ∧ ∀ a ∈ m.arguments, Ty.Formed a := by
  unfold closeOver
  split
  · next h =>
    simp only [Bool.and_eq_true, Bool.not_eq_eq_eq_not, Bool.not_true] at h
    exact .pure ⟨Library.declares_of_mem hd, h.2, by simp [(Library.declaring_of_mem_methodsNamed hd).2.2]⟩
  · split
    · next m hm =>
      refine .pure ⟨Library.declares_close hd hm, Method.isDefinition_of_close hm, ?_⟩
      obtain ⟨-, -, -, rfl⟩ := Method.close_eq_ok.mp hm
      exact harguments
    · exact .throw

theorem namedMethod_yields (d : Document) : Yields (namedMethod l policy d) fun m =>
    l.Declares m ∧ m.isDefinition = false ∧ ∀ a ∈ m.arguments, Ty.Formed a := by
  unfold namedMethod
  refine .after fun text => .bind (resolving_yields (Signature.decodeMember_declared _ text)) ?_
  rintro m ⟨c, name, hm⟩
  refine .after fun typeText => .after fun declaring => .after fun _ => .after fun count => ?_
  refine .bind (typesUnder_formed d _ count 0) fun arguments harguments => ?_
  refine .bind (closeOver_yields hm text harguments) fun m hm => ?_
  exact .after fun given => .after fun _ => .after fun _ => .pure hm

/-- May the method stand in a decoded call? -/
structure IsSafe (l : Library) (policy : Policy) (m : Method) : Prop where
  allowed : policy.allows m = true
  declared : l.Declares m
  closed : m.isDefinition = false
  closedParameters : ∀ t ∈ m.parameterTypes, t.isOpen = false

theorem decodeMethod_yields (d : Document) : Yields (decodeMethod l policy d) (IsSafe l policy) := by
  unfold decodeMethod
  refine .bind (namedMethod_yields d) ?_
  rintro m ⟨hdeclared, hclosed, harguments⟩
  refine .bind (demand_yields _ _) fun _ hallowed => .pure ?_
  exact ⟨hallowed, hdeclared, hclosed,
    fun _ => hdeclared.closedParameters (fun a ha => (harguments a ha).isNull_eq) hclosed⟩

/-! ## The tree -/

/-- Does every call that is decoded from a document satisfy the gate? -/
def DecodesSafely (l : Library) (policy : Policy) (d : Document) : Prop :=
  Yields (d.decode l policy) (Node.Calls (IsSafe l policy))

section

variable {d : Document} (ih : ∀ role c, d.child? role = some c → DecodesSafely l policy c)

include ih

theorem decodedChild_yields (role : String) :
    Yields (decodedChild d (decodedUnder l policy d) role) (Node.Calls (IsSafe l policy)) := by
  unfold decodedChild decodedUnder
  cases hc : d.child? role with
  | none => exact .throw
  | some c => exact ih role c hc

theorem decodedChild?_yields (role : String) :
    Yields (decodedChild? (decodedUnder l policy d) role) fun n => ∀ c, n = some c → c.Calls (IsSafe l policy) := by
  unfold decodedChild? decodedUnder
  cases hc : d.child? role with
  | none => exact .pure (by simp)
  | some c => exact .bind (ih role c hc) fun n hn => .pure (by rintro c ⟨⟩; exact hn)

theorem childrenUnder_yields (role : String) (n i : Nat) :
    Yields (childrenUnder d (decodedUnder l policy d) role n i) fun ns => ∀ n ∈ ns, n.Calls (IsSafe l policy) := by
  induction n generalizing i with
  | zero => exact .pure (by simp)
  | succ n ihn =>
    refine .bind (decodedChild_yields ih _) fun first hfirst => ?_
    refine .bind (ihn (i + 1)) fun rest hrest => .pure ?_
    simpa using ⟨hfirst, hrest⟩

end

theorem joinBinary_yields {d : Document} {k : Kind} {left right : Node} {conversion : Option Node}
    (hl : left.Calls (IsSafe l policy)) (hr : right.Calls (IsSafe l policy))
    (hc : ∀ c, conversion = some c → c.Calls (IsSafe l policy)) :
    Yields (joinBinary l d k left right conversion) (Node.Calls (IsSafe l policy)) := by
  unfold joinBinary
  split
  · exact build_yields d fun n hn => hl.mkBinary hr hn
  · exact build_yields d fun n hn => hl.mkConverted hr (hc _ rfl) hn
  · exact .throw

theorem decodesSafely (d : Document) : DecodesSafely l policy d := by
  induction d using induct_child with
  | step d ih =>
    unfold DecodesSafely
    cases d.tagged with
    | unsupported hk =>
      rw [decode_unsupported l policy hk]
      exact .throw
    | constant hk =>
      rw [decode_constant l policy hk]
      unfold decodeConstant
      refine .after fun text => .after fun t => ?_
      split
      · exact build_yields d fun n hn => .mkConstant hn
      · dsimp only
        split
        · exact .throw
        · split
          · exact .throw
          · exact build_yields d fun n hn => .mkConstant hn
    | parameter hk =>
      rw [decode_parameter l policy hk]
      exact .after fun p => .pure (Node.calls_leaf rfl)
    | unary u hk =>
      rw [decode_unary l policy hk]
      refine .bind (decodedChild_yields ih _) fun operand ho => ?_
      exact .after fun text => .after fun t => build_yields d fun n hn => ho.mkUnary hn
    | binary b hk =>
      rw [decode_binary l policy hk]
      refine .bind (decodedChild_yields ih _) fun left hl => ?_
      refine .bind (decodedChild_yields ih _) fun right hr => ?_
      exact .bind (decodedChild?_yields ih _) fun conversion hc => joinBinary_yields hl hr hc
    | memberAccess hk =>
      rw [decode_member l policy hk]
      refine .after fun m => .bind (decodedChild_yields ih _) fun e he => ?_
      exact build_yields d fun n hn => he.mkMember hn
    | lambda hk =>
      rw [decode_lambda l policy hk]
      refine .after fun count => .after fun ps => .bind (decodedChild_yields ih _) fun body hb => ?_
      exact build_yields d fun n hn => hb.mkLambda hn
    | call hk =>
      rw [decode_call l policy hk]
      refine .bind (decodeMethod_yields d) fun m hm => ?_
      refine .bind (decodedChild?_yields ih _) fun target ht => ?_
      refine .bind (childrenUnder_yields ih _ _ 0) fun arguments ha => ?_
      exact build_yields d fun n hn => .mkCall hm ht ha hn

theorem not_strict_allows (m : Method) : Policy.strict.allows m = false := by
  simp [Policy.allows, Policy.strict, Policy.listsMethod, Policy.listsType]

/-- A decoded tree calls only what is allowed, declared, closed and without open parameters;
under the strict policy it calls nothing. -/
theorem decode_calls (d : Document) (s t : DecodeState) (n : Node) (h : (d.decode l policy).run s = (.ok n, t)) :
    (∀ m ∈ n.methods, policy.allows m = true ∧ l.Declares m ∧ m.isDefinition = false ∧
      ∀ u ∈ m.parameterTypes, u.isOpen = false) ∧
    (policy = .strict → n.methods = []) := by
  have hsafe := decodesSafely d s n t h
  refine ⟨fun m hm => ?_, ?_⟩
  · obtain ⟨hallowed, hdeclared, hclosed, hparameters⟩ := hsafe m hm
    exact ⟨hallowed, hdeclared, hclosed, hparameters⟩
  · rintro rfl
    rw [List.eq_nil_iff_forall_not_mem]
    intro m hm
    have := (hsafe m hm).allowed
    simp [not_strict_allows] at this

/-- A lambda over a counter whose body calls a generic method on it. -/
def wrapping : Document :=
  let int := "\x7bbuiltins.int,builtins\x7d"
  let counter := "\x7bhostlib.Counter,hostlib\x7d"
  let parameter := Document.node "Parameter" []
    [("Type", some counter), ("Name", some "c"), ("Guid", some "00000000-0000-4000-8000-000000000001")]
  let argument := Document.node "Constant" [] [("Type", some int), ("Value", some "5")]
  let call := Document.node "Call" [("Object", some parameter), ("Argument0", some argument)]
    [("Method", some ("wrap<1>@" ++ counter ++ "(\x7b!!0\x7d)")), ("MethodType", some counter),
      ("ArgumentCount", some "1"), ("GenericArgumentCount", some "1"), ("ArgumentType0", some int),
      ("GenericArgument0", some int)]
  .node "Lambda" [("Parameter0", some parameter), ("Body", some call)] [("ParameterCount", some "1")]

def counterPolicy : Policy := { Policy.strict with instanceTypes := [.cls Sample.counter] }

theorem wrapping_calls :
    ∃ n t, (wrapping.decode Sample.library counterPolicy).run ⟨⟨Sample.library.preloaded, []⟩, [], 0⟩ = (.ok n, t) ∧
      n.methods.length = 1 ∧
      (∀ m ∈ n.methods, counterPolicy.allows m = true ∧ Sample.library.Declares m ∧ m.isDefinition = false ∧
        ∀ u ∈ m.parameterTypes, u.isOpen = false) ∧
      (counterPolicy = .strict → n.methods = []) := by
  obtain ⟨n, t, hrun, hcalls⟩ := Action.exists_of_toOption
    (show ((wrapping.decode Sample.library counterPolicy).run ⟨⟨Sample.library.preloaded, []⟩, [], 0⟩).1.toOption.map
      (·.methods.length) = some 1 by decide +kernel)
  exact ⟨n, t, hrun, hcalls, decode_calls wrapping _ t n hrun⟩

end Document

end ExprTree
