import ExprTree.Node.Build
import ExprTree.Proofs.Document.Constant
import ExprTree.Proofs.Signature.Resolution

/-!
# Nodes that documents can hold

Trees built by the typing rules, of kinds that documents hold, whose types can
be read, whose constants are of the class their type names, and whose members
and methods are declared.
-/

namespace ExprTree

/-- Can documents name the method and the types that it is called with? -/
structure Method.IsPortable (l : Library) (loads : Bool) (names : Names) (m : Method) : Prop where
  declares : l.Declares m
  readable : m.IsReadable l loads names
  types : ∀ t ∈ m.parameterTypes ++ m.arguments, t.IsReadable l loads names
  result : Ty.Formed m.declaration.result

/-- Can documents name the method and the types of its parameters? -/
structure Method.IsNameable (l : Library) (loads : Bool) (names : Names) (m : Method) : Prop where
  declares : l.Declares m
  readable : m.IsReadable l loads names
  types : ∀ t ∈ m.parameterTypes ++ m.arguments, t.IsReadable l loads names

theorem Method.IsPortable.isNameable {l : Library} {loads : Bool} {names : Names} {m : Method}
    (h : m.IsPortable l loads names) : m.IsNameable l loads names :=
  ⟨h.declares, h.readable, h.types⟩

namespace Node

/-- Is the tree built by the typing rules of parts that documents can hold? What constants refer to is in the heap. -/
inductive IsPortable (l : Library) (loads : Bool) (names : Names) (h : Heap) : Node → Prop where
  | constant {v : Value} {type : Option Ty} {n : Node} (hn : mkConstant l h v type = .ok n)
      (ht : n.type.IsReadable l loads names) (hv : ConstantText.IsExact v n.type) : IsPortable l loads names h n
  | parameter {p : Parameter} (ht : p.type.IsReadable l loads names) : IsPortable l loads names h (.parameter p)
  | lambda {parameters : List Node} {body n : Node} (hn : mkLambda parameters body = .ok n)
      (hps : ∀ p ∈ parameters, IsPortable l loads names h p) (hb : IsPortable l loads names h body) :
      IsPortable l loads names h n
  | binary {k : Kind} {left right n : Node} (hn : mkBinary l k left right = .ok n)
      (hl : IsPortable l loads names h left) (hr : IsPortable l loads names h right) : IsPortable l loads names h n
  | converted {k : Kind} {left right conversion n : Node} (hn : mkConverted k left right conversion = .ok n)
      (hl : IsPortable l loads names h left) (hr : IsPortable l loads names h right)
      (hc : IsPortable l loads names h conversion) : IsPortable l loads names h n
  | unary {k : Kind} {operand n : Node} {type : Option Ty} (hn : mkUnary k operand type = .ok n)
      (ho : IsPortable l loads names h operand) (ht : n.type.IsReadable l loads names) : IsPortable l loads names h n
  | member {e n : Node} {m : DataMember} (hn : mkMember l e m = .ok n) (he : IsPortable l loads names h e)
      (hm : l.HasMember m) (hc : (Ty.cls m.declaring).IsKnown l loads names) : IsPortable l loads names h n
  | call {target : Option Node} {m : Method} {arguments : List Node} {n : Node}
      (hn : mkCall l target m arguments = .ok n) (ht : ∀ t, target = some t → IsPortable l loads names h t)
      (ha : ∀ a ∈ arguments, IsPortable l loads names h a) (hm : m.IsPortable l loads names) : IsPortable l loads names h n

end Node

theorem Ty.isReadable_cls {l : Library} {loads : Bool} {names : Names} {c : ClassName}
    (h : (Ty.cls c).IsKnown l loads names) : (Ty.cls c).IsReadable l loads names := by
  refine ⟨.cls c, fun form hform => ?_, by simp [Ty.positions]⟩
  obtain rfl : form = .cls c := by simpa [Ty.forms] using hform
  exact h

end ExprTree
