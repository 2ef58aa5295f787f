import ExprTree.Proofs.Eval.Scopes
import ExprTree.Proofs.Node.Isomorphism
import ExprTree.Proofs.Scalar.Operators

/-!
# Scalar expressions

Trees of constants, parameters, operators and conditionals over scalar types,
and what the builders have made sure of in each of their nodes. Such a tree
runs its parts in a fixed order; how a fault of a conversion comes out of it is
said by following that order.
-/

namespace ExprTree

namespace Node

/-- Is a tree one of constants, parameters, operators and conditionals over scalar types, with operations that stay in
the type of their left operand? -/
inductive IsScalar : Node → Prop where
  | constant {v : Value} {t : Ty} (hv : v.IsScalar) (ht : t.IsScalar)
      (hnone : v.isNone = true → t.optionalInner?.isSome = true) : IsScalar (.constant v t)
  | parameter {p : Parameter} (hp : p.type.IsScalar) : IsScalar (.parameter p)
  | conditional {test ifTrue ifFalse : Node} (htest : IsScalar test) (hifTrue : IsScalar ifTrue)
      (hifFalse : IsScalar ifFalse) : IsScalar (.conditional test ifTrue ifFalse)
  | unary {k : UnaryKind} {operand : Node} {t : Ty} (hoperand : IsScalar operand) (ht : t.IsScalar) :
      IsScalar (.unary (.unary k) operand t)
  | binary {k : BinaryKind} {left right : Node} {t : Ty} (hleft : IsScalar left) (hright : IsScalar right)
      (ht : t.IsScalar) (hstays : ∀ o, k = .operation o ∨ k = .compound o → o.Stays left.type right.type t) :
      IsScalar (.binary (.binary k) left right t)
  | converted {left right body : Node} {p : Parameter} (hleft : IsScalar left) (hright : IsScalar right)
      (hp : p.type.IsScalar) (hbody : IsScalar body) : IsScalar (.converted left right p body)

theorem IsScalar.type {n : Node} (h : n.IsScalar) : n.type.IsScalar := by
  induction h with
  | constant _ ht => exact ht
  | parameter hp => exact hp
  | conditional _ _ _ _ ih => exact ih
  | unary _ ht => exact ht
  | binary _ _ ht => exact ht
  | converted _ _ _ _ _ ih => exact ih

/-! ## What the builders have checked -/

variable {l : Library} {n : Node}

/-- Have the typing rules been followed in a node, its parts apart? -/
def IsTyped (l : Library) : Node → Prop
  | .constant v t => v.isNone = true ∨
      ∀ c d, constantClass? t = some c → v.scalarClass? = some d → l.isSubclass d c = true
  | .binary (.binary b) left right t => binaryType l b left right = .ok t
  | .converted left right p body => convertsFrom left.type p = true ∧ body.type.equivalent right.type = true
  | .unary (.unary u) operand t => (∀ checked, u ≠ .convert checked) → unaryType u operand = .ok t
  | .conditional test ifTrue ifFalse => test.type.isBool = true ∧ ifTrue.type.equivalent ifFalse.type = true
  | _ => True

theorem isSubclass_of_isInstance {h : Heap} {v : Value} {c d : ClassName}
    (hv : Arithmetic.isInstance l h v c = .ok true) (hd : v.scalarClass? = some d) : l.isSubclass d c = true := by
  unfold Arithmetic.isInstance Heap.className at hv
  split at hv
  · cases hv
  · rw [hd] at hv
    exact Except.ok.inj hv

theorem IsMade.isTyped (hn : n.IsMade l) : n.IsTyped l := by
  cases hn with
  | constant hn =>
    obtain ⟨hinstance, rfl⟩ := mkConstant_eq_ok.mp hn
    exact hinstance.imp id fun hall c d hc hd => isSubclass_of_isInstance (hall c hc) hd
  | parameter p => trivial
  | lambda _ hn =>
    obtain ⟨ps, -, -, rfl⟩ := mkLambda_eq_ok.mp hn
    trivial
  | binary _ _ hn =>
    obtain ⟨b, t, rfl, htype, rfl⟩ := mkBinary_eq_ok.mp hn
    exact htype
  | converted _ _ _ hn =>
    obtain ⟨p, body, -, -, haccepts, hreturns, rfl⟩ := mkConverted_eq_ok.mp hn
    exact ⟨haccepts, hreturns⟩
  | unary _ hn =>
    obtain ⟨u, t, rfl, rfl, htype⟩ := mkUnary_typed hn
    exact htype
  | member _ hn =>
    obtain ⟨-, rfl⟩ := mkMember_eq_ok.mp hn
    trivial
  | call _ hn =>
    obtain ⟨-, -, -, rfl⟩ := mkCall_eq_ok.mp hn
    trivial
  | callOn _ _ hn =>
    obtain ⟨-, -, -, rfl⟩ := mkCall_eq_ok.mp hn
    trivial
  | conditional _ _ _ hn =>
    obtain ⟨htest, hbranches, rfl⟩ := mkConditional_eq_ok.mp hn
    exact ⟨htest, hbranches⟩

/-- What a scalar expression assigns to is a parameter. -/
theorem IsScalar.eq_parameter (hn : n.IsScalar) (h : requireWritable n = .ok ()) : ∃ p, n = .parameter p := by
  cases hn with
  | parameter => exact ⟨_, rfl⟩
  | _ => cases h

end Node

/-! ## Parts that run -/

/-- After the left operand has this value, does an operator run the right one? -/
def BinaryKind.goesOn (k : BinaryKind) (h : Heap) (v : Value) : Bool :=
  match k with
  | .andAlso => h.isTrue v
  | .orElse => !h.isTrue v
  | .coalesce => v.isNone
  | _ => true

namespace Node

open Run

variable (host : Host) (apply : Apply)

/-- Does a scalar expression that runs in a frame, from a heap, run this part in this frame, from this heap? -/
inductive RunsPart : Frame → Heap → Node → Frame → Heap → Node → Prop where
  | operand {frame : Frame} {h : Heap} {k : UnaryKind} {operand : Node} {t : Ty} :
      RunsPart frame h (.unary (.unary k) operand t) frame h operand
  | left {frame : Frame} {h : Heap} {k : BinaryKind} {left right : Node} {t : Ty} (hk : k ≠ .assign) :
      RunsPart frame h (.binary (.binary k) left right t) frame h left
  | right {frame : Frame} {h m : Heap} {k : BinaryKind} {left right : Node} {t : Ty} {v : Value} (hk : k ≠ .assign)
      (hleft : (eval host apply frame left).run h = (.ok v, m)) (hv : k.goesOn m v = true) :
      RunsPart frame h (.binary (.binary k) left right t) frame m right
  | assigned {frame : Frame} {h : Heap} {left right : Node} {t : Ty} :
      RunsPart frame h (.binary (.binary .assign) left right t) frame h right
  | source {frame : Frame} {h : Heap} {left right body : Node} {p : Parameter} :
      RunsPart frame h (.converted left right p body) frame h left
  | fallback {frame : Frame} {h m : Heap} {left right body : Node} {p : Parameter} {v : Value}
      (hleft : (eval host apply frame left).run h = (.ok v, m)) (hv : v.isNone = true) :
      RunsPart frame h (.converted left right p body) frame m right
  | body {frame inner : Frame} {h m m' : Heap} {left right body : Node} {p : Parameter} {v : Value}
      (hleft : (eval host apply frame left).run h = (.ok v, m)) (hv : v.isNone = false)
      (hopened : (opened frame [p] [v]).run m = (.ok inner, m')) :
      RunsPart frame h (.converted left right p body) inner m' body
  | test {frame : Frame} {h : Heap} {test ifTrue ifFalse : Node} :
      RunsPart frame h (.conditional test ifTrue ifFalse) frame h test
  | branch {frame : Frame} {h m : Heap} {test ifTrue ifFalse : Node} {v : Value}
      (htest : (eval host apply frame test).run h = (.ok v, m)) :
      RunsPart frame h (.conditional test ifTrue ifFalse) frame m (if m.isTrue v then ifTrue else ifFalse)

/-- Does a scalar expression come to a conversion that fails with this fault? -/
inductive FailsConverting (f : Fault) : Frame → Heap → Node → Prop where
  | here {frame : Frame} {h m : Heap} {checked : Bool} {operand : Node} {t : Ty} {v : Value}
      (hoperand : (eval host apply frame operand).run h = (.ok v, m))
      (hf : Arithmetic.convert host.library m t checked v = .error f) :
      FailsConverting f frame h (.unary (.unary (.convert checked)) operand t)
  | part {frame inner : Frame} {h m : Heap} {n part : Node} (hpart : RunsPart host apply frame h n inner m part)
      (hf : FailsConverting f inner m part) : FailsConverting f frame h n

/-- Is a fault one of arithmetic, or a value of the wrong type in a conversion? -/
def Expects (frame : Frame) (h : Heap) (n : Node) (f : Fault) : Prop :=
  f.isArithmetic = true ∨ f.kind = .type ∧ FailsConverting host apply f frame h n

variable {host apply}

/-- What is to be expected of a part is to be expected of the whole. -/
theorem Expects.part {frame inner : Frame} {h m : Heap} {n part : Node} {f : Fault}
    (hf : Expects host apply inner m part f) (hpart : RunsPart host apply frame h n inner m part) :
    Expects host apply frame h n f :=
  hf.imp id fun ⟨hkind, hfails⟩ => ⟨hkind, .part hpart hfails⟩

end Node

end ExprTree
