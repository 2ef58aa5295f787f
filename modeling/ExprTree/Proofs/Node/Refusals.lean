import ExprTree.Node.Build

/-!
# How builders refuse

A builder that is given parts which do not fit says so with a fault of types or
values. Only a look-up by name and a conversion that is no lambda end in other
faults, and neither stands between a document and its node.
-/

namespace ExprTree

/-- Is it a fault of types or values? -/
def BuildFault.isMismatch (f : BuildFault) : Bool :=
  match f.kind with
  | .type | .value | .host .type | .host .value | .host .encoding => true
  | .lookup | .host _ => false

namespace Node

/-- Does a builder fail with faults of types or values only? -/
def Refuses {α : Type} (x : Built α) : Prop :=
  ∀ f, x = .error f → f.isMismatch = true

namespace Refuses

variable {α β : Type} {x y : Built α}

theorem ok (a : α) : Refuses (.ok a : Built α) := by
  rintro f ⟨⟩

theorem error {f : BuildFault} (h : f.isMismatch = true) : Refuses (.error f : Built α) := by
  rintro _ ⟨⟩
  exact h

theorem bind {f : α → Built β} (hx : Refuses x) (hf : ∀ a, Refuses (f a)) : Refuses (x >>= f) := by
  cases x with
  | ok a => exact hf a
  | error e => exact error (hx e rfl)

theorem ite {p : Prop} [Decidable p] (hx : Refuses x) (hy : Refuses y) : Refuses (if p then x else y) := by
  split
  · exact hx
  · exact hy

/-- What comes after a check is reached only past it. -/
theorem check {p : Prop} [Decidable p] {f : BuildFault} {rest : β → Built α} (h : f.isMismatch = true) (hy : Refuses y) :
    Refuses (if p then (throw f >>= rest) else y) :=
  ite (error h) hy

end Refuses

variable {l : Library}

/-! ## Operators -/

theorem operationType_refuses (k : BinaryKind) (o : Operation) (s t : Ty) : Refuses (operationType k o s t) := by
  cases o with
  | shift => exact .ite (.ok _) (.error rfl)
  | bitwise => exact .ite (.error rfl) (.ite (.ok _) (.error rfl))
  | arithmetic => exact .ite (.error rfl) (.ite (.ok _) (.error rfl))

theorem requireWritable_refuses (n : Node) : Refuses n.requireWritable := by
  cases n with
  | parameter => exact .ok _
  | member e m => exact .ite (.ok _) (.error rfl)
  | _ => exact .error rfl

theorem coalesceType_refuses (s t : Ty) : Refuses (coalesceType l s t) := by
  unfold coalesceType
  split
  · exact .ite (.ok _) (.ite (.ok _) (.error rfl))
  · exact .ite (.ok _) (.error rfl)

theorem binaryType_refuses (b : BinaryKind) (left right : Node) : Refuses (binaryType l b left right) := by
  cases b with
  | coalesce => exact coalesceType_refuses _ _
  | assign => exact .bind (requireWritable_refuses left) fun _ => .ite (.ok _) (.error rfl)
  | compound o =>
    refine .bind (requireWritable_refuses left) fun _ => ?_
    exact .bind (operationType_refuses _ o _ _) fun _ => .ite (.ok _) (.error rfl)
  | operation o => exact operationType_refuses _ o _ _
  | equal => exact .ok _
  | notEqual => exact .ok _
  | andAlso => exact .ite (.ok _) (.error rfl)
  | orElse => exact .ite (.ok _) (.error rfl)
  | ordering o => exact .check rfl (.ite (.ok _) (.error rfl))

theorem mkBinary_refuses (k : Kind) (left right : Node) : Refuses (mkBinary l k left right) := by
  cases k with
  | binary b => exact .bind (binaryType_refuses b left right) fun _ => .ok _
  | _ => exact .error rfl

/-- A conversion that is a lambda is refused as one that does not fit at worst. -/
theorem mkConverted_refuses (k : Kind) (left right : Node) (ps : List Parameter) (body : Node) :
    Refuses (mkConverted k left right (.lambda ps body)) := by
  unfold mkConverted
  split
  · split
    · exact .check rfl (.check rfl (.ok _))
    · exact .error rfl
    · next hno => exact (hno ps body rfl).elim
  · exact .error rfl
  · exact .error rfl

theorem unaryType_refuses (u : UnaryKind) (operand : Node) : Refuses (unaryType u operand) := by
  unfold unaryType
  cases u with
  | step => exact .bind (requireWritable_refuses operand) fun _ => .ite (.ok _) (.error rfl)
  | _ => exact .ite (.ok _) (.error rfl)

theorem mkUnary_refuses (k : Kind) (operand : Node) (type : Option Ty) : Refuses (mkUnary k operand type) := by
  unfold mkUnary
  split
  · split
    · exact .ok _
    · exact .error rfl
    · refine .bind (unaryType_refuses _ operand) fun _ => ?_
      split
      · exact .ite (.ok _) (.error rfl)
      · exact .ok _
  · exact .error rfl

/-! ## Leaves and lambdas -/

/-- The host refuses to be asked whether a value is an instance of one class only. -/
theorem isInstance_fault {h : Heap} {v : Value} {c : ClassName} {f : Fault}
    (hf : Arithmetic.isInstance l h v c = .error f) : f = .host .type := by
  unfold Arithmetic.isInstance at hf
  split at hf
  · cases hf
    rfl
  · cases hf

theorem mkConstant_refuses (h : Heap) (v : Value) (type : Option Ty) : Refuses (mkConstant l h v type) := by
  unfold mkConstant
  refine .ite (.ok _) ?_
  split
  · split
    · exact .ok _
    · exact .error rfl
    · next hf =>
      rw [isInstance_fault hf]
      exact .error rfl
  · exact .ok _

theorem mkLambda_refuses (parameters : List Node) (body : Node) : Refuses (mkLambda parameters body) := by
  unfold mkLambda
  refine .check rfl ?_
  split
  · exact .error rfl
  · exact .ok _

/-! ## Members and calls -/

theorem mkMember_refuses (expression : Node) (m : DataMember) : Refuses (mkMember l expression m) := by
  unfold mkMember
  split
  · exact .ite (.ok _) (.error rfl)
  · exact .error rfl

theorem checkArguments_refuses (method : String) (i : Nat) (ts : List Ty) (ns : List Node) :
    Refuses (checkArguments l method i ts ns) := by
  induction ts generalizing i ns with
  | nil => exact .ok _
  | cons t ts ih =>
    cases ns with
    | nil => exact .ok _
    | cons n ns => exact .ite (ih _ _) (.error rfl)

theorem mkCall_refuses (target : Option Node) (m : Method) (arguments : List Node) :
    Refuses (mkCall l target m arguments) := by
  unfold mkCall
  refine .check rfl ?_
  cases target with
  | some n =>
    exact .check rfl (.check rfl (.check rfl (.bind (checkArguments_refuses _ _ _ _) fun _ => .ok _)))
  | none => exact .check rfl (.check rfl (.bind (checkArguments_refuses _ _ _ _) fun _ => .ok _))

end Node

end ExprTree
