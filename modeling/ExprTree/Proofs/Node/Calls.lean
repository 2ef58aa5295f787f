import ExprTree.Proofs.Node.Building

/-!
# The calls in a node

The methods that a node calls, wherever in it: in operands, bodies,
conversions, instances and arguments. A builder adds no call but the one that
it is asked for.
-/

namespace ExprTree

namespace Node

mutual

/-- The methods a node calls, in the order they are written. -/
def methods : Node → List Method
  | .constant .. | .parameter _ | .bare .. => []
  | .lambda _ body => body.methods
  | .binary _ left right _ => left.methods ++ right.methods
  | .converted left right _ body => left.methods ++ right.methods ++ body.methods
  | .unary _ operand _ => operand.methods
  | .member e _ => e.methods
  | .call m args => m :: methodsOfAll args
  | .callOn target m args => m :: (target.methods ++ methodsOfAll args)
  | .conditional test ifTrue ifFalse => test.methods ++ ifTrue.methods ++ ifFalse.methods
termination_by structural n => n

def methodsOfAll : List Node → List Method
  | [] => []
  | n :: ns => n.methods ++ methodsOfAll ns
termination_by structural ns => ns

end

variable {l : Library} {P : Method → Prop} {n : Node}

/-- Does every call in the node satisfy a property? -/
def Calls (P : Method → Prop) (n : Node) : Prop :=
  ∀ m ∈ n.methods, P m

theorem mem_methodsOfAll {m : Method} {ns : List Node} : m ∈ methodsOfAll ns ↔ ∃ n ∈ ns, m ∈ n.methods := by
  induction ns with
  | nil => simp [methodsOfAll]
  | cons n ns ih => simp [methodsOfAll, ih]

/-- A call comes before what its instance and arguments call. -/
theorem methods_callOf (m : Method) (arguments : List Node) (target : Option Node) :
    (callOf m arguments target).methods = m :: ((target.map methods).getD [] ++ methodsOfAll arguments) := by
  cases target with
  | none => rfl
  | some t => rfl

theorem mem_methods_callOf {m k : Method} {arguments : List Node} {target : Option Node} :
    k ∈ (callOf m arguments target).methods ↔
      k = m ∨ (∃ t, target = some t ∧ k ∈ t.methods) ∨ ∃ a ∈ arguments, k ∈ a.methods := by
  cases target with
  | none => simp [methods_callOf, mem_methodsOfAll]
  | some t => simp [methods_callOf, mem_methodsOfAll]

/-! ## What a builder adds -/

theorem methods_mkConstant {h : Heap} {v : Value} {type : Option Ty} (hn : mkConstant l h v type = .ok n) :
    n.methods = [] := by
  obtain ⟨-, rfl⟩ := mkConstant_eq_ok.mp hn
  rfl

theorem methods_mkBinary {k : Kind} {left right : Node} (hn : mkBinary l k left right = .ok n) :
    n.methods = left.methods ++ right.methods := by
  obtain ⟨b, t, rfl, -, rfl⟩ := mkBinary_eq_ok.mp hn
  rfl

theorem methods_mkConverted {k : Kind} {left right conversion : Node} (hn : mkConverted k left right conversion = .ok n) :
    n.methods = left.methods ++ right.methods ++ conversion.methods := by
  obtain ⟨p, body, rfl, rfl, -, -, rfl⟩ := mkConverted_eq_ok.mp hn
  rfl

theorem methods_mkUnary {k : Kind} {operand : Node} {type : Option Ty} (hn : mkUnary k operand type = .ok n) :
    n.methods = operand.methods := by
  obtain ⟨u, t, rfl, rfl⟩ := mkUnary_shape hn
  rfl

theorem methods_mkLambda {parameters : List Node} {body : Node} (hn : mkLambda parameters body = .ok n) :
    n.methods = body.methods := by
  obtain ⟨ps, -, -, rfl⟩ := mkLambda_eq_ok.mp hn
  rfl

theorem methods_mkMember {e : Node} {d : DataMember} (hn : mkMember l e d = .ok n) : n.methods = e.methods := by
  obtain ⟨-, rfl⟩ := mkMember_eq_ok.mp hn
  rfl

theorem methods_mkCall {target : Option Node} {m : Method} {arguments : List Node}
    (hn : mkCall l target m arguments = .ok n) :
    n.methods = m :: ((target.map methods).getD [] ++ methodsOfAll arguments) := by
  obtain ⟨-, -, -, rfl⟩ := mkCall_eq_ok.mp hn
  exact methods_callOf m arguments target

/-! ## What holds of every call -/

theorem calls_leaf (h : n.methods = []) : n.Calls P := by
  simp [Calls, h]

theorem Calls.mkConstant {h : Heap} {v : Value} {type : Option Ty} (hn : mkConstant l h v type = .ok n) :
    n.Calls P :=
  calls_leaf (methods_mkConstant hn)

theorem Calls.mkBinary {k : Kind} {left right : Node} (hl : left.Calls P) (hr : right.Calls P)
    (hn : mkBinary l k left right = .ok n) : n.Calls P := by
  rw [Calls, methods_mkBinary hn]
  exact List.forall_mem_append.mpr ⟨hl, hr⟩

theorem Calls.mkConverted {k : Kind} {left right conversion : Node} (hl : left.Calls P) (hr : right.Calls P)
    (hc : conversion.Calls P) (hn : mkConverted k left right conversion = .ok n) : n.Calls P := by
  rw [Calls, methods_mkConverted hn]
  exact List.forall_mem_append.mpr ⟨List.forall_mem_append.mpr ⟨hl, hr⟩, hc⟩

theorem Calls.mkUnary {k : Kind} {operand : Node} {type : Option Ty} (ho : operand.Calls P)
    (hn : mkUnary k operand type = .ok n) : n.Calls P := by
  rw [Calls, methods_mkUnary hn]
  exact ho

theorem Calls.mkLambda {parameters : List Node} {body : Node} (hb : body.Calls P)
    (hn : mkLambda parameters body = .ok n) : n.Calls P := by
  rw [Calls, methods_mkLambda hn]
  exact hb

theorem Calls.mkMember {e : Node} {d : DataMember} (he : e.Calls P) (hn : mkMember l e d = .ok n) :
    n.Calls P := by
  rw [Calls, methods_mkMember hn]
  exact he

theorem Calls.mkCall {target : Option Node} {m : Method} {arguments : List Node} (hm : P m)
    (ht : ∀ e, target = some e → e.Calls P) (ha : ∀ a ∈ arguments, a.Calls P)
    (hn : mkCall l target m arguments = .ok n) : n.Calls P := by
  obtain ⟨-, -, -, rfl⟩ := mkCall_eq_ok.mp hn
  intro k hk
  obtain rfl | ⟨e, he, hk⟩ | ⟨a, hmem, hk⟩ := mem_methods_callOf.mp hk
  · exact hm
  · exact ht e he k hk
  · exact ha a hmem k hk

end Node

end ExprTree
