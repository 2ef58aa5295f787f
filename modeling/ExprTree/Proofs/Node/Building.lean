import ExprTree.Node.Build
import ExprTree.Proofs.Action
import Mathlib.Data.List.Forall2

/-!
# What the builders build

For each builder, exactly which parts it accepts and which node it makes of
them.
-/

namespace ExprTree

/-! ## Types that operators are defined for -/

namespace Ty

variable {t : Ty}

theorem eq_cls_of_isClass {c : ClassName} (h : t.isClass c = true) : t = .cls c := by
  cases t with
  | cls d => rw [of_decide_eq_true h]
  | _ => cases h

theorem exists_cls_of_isNumeric (h : t.isNumeric = true) : ∃ c, t = .cls c := by
  simp only [isNumeric, isInteger, isFloat, isFixed, Bool.or_eq_true, Option.isSome_iff_exists] at h
  obtain ((h | ⟨i, h⟩) | ⟨k, h⟩) | h := h
  · exact ⟨_, eq_cls_of_isClass h⟩
  · exact ⟨_, eq_cls_of_isClass (List.find?_some (p := fun i => t.isClass (.ofIntType i)) h)⟩
  · exact ⟨_, eq_cls_of_isClass (List.find?_some (p := fun k : FloatKind => t.isClass k.className) h)⟩
  · exact ⟨_, eq_cls_of_isClass h⟩

theorem isNumeric_of_isInteger (h : t.isInteger = true) : t.isNumeric = true := by
  simp [isNumeric, h]

end Ty

/-- Is an operation defined for operands of these types? -/
def Operation.IsFor (left right : Ty) : Operation → Prop
  | .arithmetic a => left.equivalent right = true ∧ (a = .add ∧ left.isStr = true ∨ left.isNumeric = true)
  | .bitwise _ => left.equivalent right = true ∧ (left.isInteger = true ∨ left.isBool = true)
  | .shift _ => left.isInteger = true ∧ right.isInteger = true

namespace UnaryKind

/-- Is an operator that is no conversion defined for an operand of this type? -/
def IsFor (t : Ty) : UnaryKind → Prop
  | .isTrue | .isFalse => t.isBool = true
  | .not => t.isBool = true ∨ t.isInteger = true
  | .onesComplement => t.isInteger = true
  | _ => t.isNumeric = true

/-- The type of an operator that is no conversion. -/
def resultType (t : Ty) : UnaryKind → Ty
  | .isTrue | .isFalse => .bool
  | _ => t

end UnaryKind

namespace Node

variable {l : Library} {n : Node}

/-! ## Operators -/

theorem operationType_eq_ok {k : BinaryKind} {o : Operation} {left right t : Ty} :
    operationType k o left right = .ok t ↔ o.IsFor left right ∧ t = left := by
  unfold operationType Operation.IsFor
  cases o with
  | shift _ => simp [ite_eq_iff, eq_comm (a := t)]
  | _ =>
    cases left.equivalent right
    · simp
    · simp [ite_eq_iff, eq_comm (a := t)]

theorem of_ite_eq_ok {p : Bool} {r t : Ty} {fault : BuildFault}
    (h : (if p then pure r else throw fault : Built Ty) = .ok t) : p = true ∧ t = r := by
  cases p <;> cases h
  exact ⟨rfl, rfl⟩

theorem binaryType_ordering {l : Library} {k : OrderingKind} {left right : Node} {t : Ty}
    (h : binaryType l (.ordering k) left right = .ok t) :
    left.type.equivalent right.type = true ∧
      (left.type.isNumeric = true ∨ left.type.isStr = true ∨ left.type.isChar = true) ∧ t = .bool := by
  unfold binaryType at h
  cases hsame : left.type.equivalent right.type with
  | false => simp [hsame] at h
  | true =>
    simp only [hsame, Bool.not_true, Bool.false_eq_true, if_false] at h
    obtain ⟨hdefined, rfl⟩ := of_ite_eq_ok h
    exact ⟨rfl, by simpa [or_assoc] using hdefined, rfl⟩

theorem coalesceType_of_ok {l : Library} {left right t : Ty} (h : coalesceType l left right = .ok t) :
    (t = left ∨ left.optionalInner? = some t) ∧ l.accepts t right = true := by
  unfold coalesceType at h
  split at h
  · next inner hinner =>
    split at h
    · next haccepts =>
      cases h
      exact ⟨.inr hinner, haccepts⟩
    · split at h
      · next haccepts =>
        cases h
        exact ⟨.inl rfl, haccepts⟩
      · cases h
  · split at h
    · next haccepts =>
      cases h
      exact ⟨.inl rfl, haccepts⟩
    · cases h

theorem unaryType_of_ok {u : UnaryKind} {operand : Node} {t : Ty} (h : unaryType u operand = .ok t) :
    u.IsFor operand.type ∧ t = u.resultType operand.type := by
  unfold unaryType at h
  cases u with
  | not =>
    obtain ⟨hp, ht⟩ := of_ite_eq_ok h
    exact ⟨Bool.or_eq_true_iff.mp hp, ht⟩
  | step k =>
    obtain ⟨_, -, h⟩ := bind_eq_ok.mp h
    exact of_ite_eq_ok h
  | _ => exact of_ite_eq_ok h

theorem mkBinary_eq_ok {k : Kind} {left right : Node} :
    mkBinary l k left right = .ok n ↔
      ∃ b t, k = .binary b ∧ binaryType l b left right = .ok t ∧ n = .binary k left right t := by
  unfold mkBinary
  cases k with
  | binary b => simp [bind_eq_ok, eq_comm (a := n)]
  | _ => simp

/-- An operation is built of operands for whose types it is defined, and has the type of the left one. -/
theorem mkBinary_operation {o : Operation} {left right : Node} : mkBinary l (.binary (.operation o)) left right = .ok n ↔
    o.IsFor left.type right.type ∧ n = .binary (.binary (.operation o)) left right left.type := by
  constructor
  · intro hn
    obtain ⟨b, t, hb, ht, rfl⟩ := mkBinary_eq_ok.mp hn
    cases hb
    obtain ⟨hdefined, rfl⟩ := operationType_eq_ok.mp ht
    exact ⟨hdefined, rfl⟩
  · rintro ⟨hdefined, rfl⟩
    exact mkBinary_eq_ok.mpr ⟨_, _, rfl, operationType_eq_ok.mpr ⟨hdefined, rfl⟩, rfl⟩

/-- Does the parameter of a conversion accept the left operand? -/
def convertsFrom (left : Ty) (p : Parameter) : Bool :=
  p.type.equivalent left || left.optionalInner?.any p.type.equivalent

theorem mkConverted_lambda (left right : Node) (p : Parameter) (body : Node) :
    mkConverted (.binary .coalesce) left right (.lambda [p] body) =
      if convertsFrom left.type p then
        if body.type.equivalent right.type then .ok (.converted left right p body)
        else .error .conversionReturns
      else .error .conversionAccepts := by
  unfold mkConverted convertsFrom
  simp only
  split <;> split <;> simp_all

theorem mkConverted_eq_ok {k : Kind} {left right conversion : Node} :
    mkConverted k left right conversion = .ok n ↔
      ∃ p body, k = .binary .coalesce ∧ conversion = .lambda [p] body ∧ convertsFrom left.type p = true ∧
        body.type.equivalent right.type = true ∧ n = .converted left right p body := by
  constructor
  · intro h
    have h' := h
    unfold mkConverted at h
    split at h
    · split at h
      · next p body =>
        rw [mkConverted_lambda] at h'
        split at h'
        · split at h'
          · next hp hb =>
            cases h'
            exact ⟨p, body, rfl, rfl, hp, hb, rfl⟩
          · cases h'
        · cases h'
      · cases h
      · cases h
    · cases h
    · cases h
  · rintro ⟨p, body, rfl, rfl, hp, hb, rfl⟩
    rw [mkConverted_lambda, if_pos hp, if_pos hb]

theorem mkUnary_convert_eq_ok {checked : Bool} {operand : Node} {type : Option Ty} :
    mkUnary (.unary (.convert checked)) operand type = .ok n ↔
      ∃ t, given? type = some t ∧ n = .unary (.unary (.convert checked)) operand t := by
  unfold mkUnary
  cases h : given? type with
  | none => simp
  | some t => simp [eq_comm]

/-- Other operators infer their type, and one that is given is only compared with it. -/
theorem mkUnary_eq_ok {u : UnaryKind} (hu : ∀ c, u ≠ .convert c) {operand : Node} {type : Option Ty} :
    mkUnary (.unary u) operand type = .ok n ↔
      ∃ t, unaryType u operand = .ok t ∧ (∀ s, given? type = some s → s.equivalent t = true) ∧
        n = .unary (.unary u) operand t := by
  unfold mkUnary
  cases h : given? type with
  | none =>
    cases u <;> simp_all [bind_eq_ok, eq_comm (a := n)]
  | some s =>
    cases u <;> simp_all [bind_eq_ok, ite_eq_iff, eq_comm (a := n)]

theorem mkUnary_kind {k : Kind} {operand : Node} {type : Option Ty} (h : mkUnary k operand type = .ok n) :
    ∃ u, k = .unary u := by
  cases k with
  | unary u => exact ⟨u, rfl⟩
  | _ => cases h

/-- Operators but conversions yield what their operand determines. -/
theorem mkUnary_typed {k : Kind} {operand : Node} {type : Option Ty} (h : mkUnary k operand type = .ok n) :
    ∃ u t, k = .unary u ∧ n = .unary (.unary u) operand t ∧
      ((∀ checked, u ≠ .convert checked) → unaryType u operand = .ok t) := by
  obtain ⟨u, rfl⟩ := mkUnary_kind h
  by_cases hconvert : ∃ checked, u = .convert checked
  · obtain ⟨checked, rfl⟩ := hconvert
    obtain ⟨t, -, rfl⟩ := mkUnary_convert_eq_ok.mp h
    exact ⟨_, t, rfl, rfl, fun hne => absurd rfl (hne checked)⟩
  · obtain ⟨t, htype, -, rfl⟩ := (mkUnary_eq_ok fun checked hu => hconvert ⟨checked, hu⟩).mp h
    exact ⟨u, t, rfl, rfl, fun _ => htype⟩

theorem mkUnary_shape {k : Kind} {operand : Node} {type : Option Ty} (h : mkUnary k operand type = .ok n) :
    ∃ u t, k = .unary u ∧ n = .unary (.unary u) operand t := by
  obtain ⟨u, t, hk, hn, -⟩ := mkUnary_typed h
  exact ⟨u, t, hk, hn⟩

/-! ## Leaves and lambdas -/

/-- The type of a constant for which none or the value none is given. -/
def constantType (h : Heap) (v : Value) (type : Option Ty) : Ty :=
  (given? type).getD (if v.isNone then .object else .cls (h.className v))

theorem mkConstant_eq_ok {h : Heap} {v : Value} {type : Option Ty} :
    mkConstant l h v type = .ok n ↔
      (v.isNone = true ∨ ∀ c, constantClass? (constantType h v type) = some c →
        Arithmetic.isInstance l h v c = .ok true) ∧ n = .constant v (constantType h v type) := by
  unfold mkConstant
  simp only [show (given? type).getD (if v.isNone = true then Ty.object else .cls (h.className v)) =
    constantType h v type from rfl]
  generalize constantType h v type = t
  cases v.isNone with
  | true => simp [eq_comm]
  | false =>
    cases hc : constantClass? t with
    | none => simp [eq_comm]
    | some c =>
      cases hi : Arithmetic.isInstance l h v c with
      | error e => simp [hi]
      | ok b =>
        cases b <;>
          simp [hi, eq_comm (a := n)]

theorem filterMap_parameters {f : Node → Option Parameter} (hf : ∀ p, f (.parameter p) = some p)
    (ps : List Parameter) : (ps.map Node.parameter).filterMap f = ps := by
  rw [List.filterMap_map, show f ∘ Node.parameter = some from funext hf, List.filterMap_some]

theorem eq_parameters {ns : List Node} (h : ∀ n ∈ ns, ∃ p, n = .parameter p) :
    ∃ ps : List Parameter, ns = ps.map .parameter := by
  induction ns with
  | nil => exact ⟨[], rfl⟩
  | cons n ns ih =>
    obtain ⟨p, rfl⟩ := h n (by simp)
    obtain ⟨ps, rfl⟩ := ih fun m hm => h m (by simp [hm])
    exact ⟨p :: ps, rfl⟩

theorem mkLambda_parameters (ps : List Parameter) (body : Node) :
    mkLambda (ps.map .parameter) body =
      if areDistinct ps then .ok (.lambda ps body) else .error .repeatedParameters := by
  unfold mkLambda
  rw [filterMap_parameters fun _ => rfl]
  rw [List.find?_eq_none.mpr (by simp)]
  cases h : areDistinct ps <;> simp [h]

theorem mkLambda_eq_ok {parameters : List Node} {body : Node} :
    mkLambda parameters body = .ok n ↔
      ∃ ps, parameters = ps.map Node.parameter ∧ areDistinct ps = true ∧ n = .lambda ps body := by
  constructor
  · intro h
    have hall : ∀ m ∈ parameters, ∃ p, m = .parameter p := by
      intro m hm
      unfold mkLambda at h
      split at h
      · simp at h
        split at h <;> cases h
      · next hnone =>
        have := List.find?_eq_none.mp hnone m hm
        cases m <;> simp_all
    obtain ⟨ps, rfl⟩ := eq_parameters hall
    rw [mkLambda_parameters] at h
    split at h
    · next hd =>
      cases h
      exact ⟨ps, rfl, hd, rfl⟩
    · cases h
  · rintro ⟨ps, rfl, hd, rfl⟩
    rw [mkLambda_parameters, if_pos hd]

/-! ## Members and calls -/

theorem mkMember_eq_ok {e : Node} {m : DataMember} :
    mkMember l e m = .ok n ↔
      (∃ c, e.type.runtimeForm.className? = some c ∧ l.isSubclass c m.declaring = true) ∧ n = .member e m := by
  unfold mkMember
  cases e.type.runtimeForm.className? with
  | none => simp
  | some c => cases hs : l.isSubclass c m.declaring <;> simp [hs, eq_comm (a := n)]

theorem checkArguments_eq_ok {method : String} {i : Nat} {ts : List Ty} {ns : List Node}
    (hlen : ns.length = ts.length) :
    checkArguments l method i ts ns = .ok () ↔ List.Forall₂ (fun t n => l.accepts t n.type = true) ts ns := by
  induction ts generalizing i ns with
  | nil =>
    obtain rfl := List.length_eq_zero_iff.mp hlen
    simp [checkArguments]
  | cons t ts ih =>
    cases ns with
    | nil => simp at hlen
    | cons n ns =>
      unfold checkArguments
      cases h : l.accepts t n.type with
      | false => simp [h]
      | true => simp [h, ih (Nat.succ.inj hlen)]

/-- Is the method one that is called this way, without an instance or on this one? -/
def takesTarget (l : Library) (m : Method) : Option Node → Bool
  | some n => !m.isStatic && l.accepts (.cls m.declaring) n.type
  | none => m.isStatic

/-- The call of a method, on an instance if there is one. -/
def callOf (m : Method) (arguments : List Node) : Option Node → Node
  | some n => .callOn n m arguments
  | none => .call m arguments

theorem mkCall_eq_ok {target : Option Node} {m : Method} {arguments : List Node} :
    mkCall l target m arguments = .ok n ↔
      m.isDefinition = false ∧ takesTarget l m target = true ∧
        List.Forall₂ (fun t n => l.accepts t n.type = true) m.parameterTypes arguments ∧
        n = callOf m arguments target := by
  have hlen : arguments.length = m.parameterTypes.length →
      (checkArguments l m.name 0 m.parameterTypes arguments = .ok () ↔
        List.Forall₂ (fun t n => l.accepts t n.type = true) m.parameterTypes arguments) :=
    checkArguments_eq_ok
  have hforall : List.Forall₂ (fun t n => l.accepts t (type n) = true) m.parameterTypes arguments →
      arguments.length = m.parameterTypes.length := fun h => h.length_eq.symm
  unfold mkCall takesTarget callOf
  cases m.isDefinition with
  | true => simp
  | false =>
    cases target with
    | some e =>
      cases hs : m.isStatic <;> cases ha : l.accepts (.cls m.declaring) e.type <;>
        by_cases hl : arguments.length = m.parameterTypes.length <;>
        simp_all [bind_eq_ok, eq_comm (a := n)]
    | none =>
      cases hs : m.isStatic <;> by_cases hl : arguments.length = m.parameterTypes.length <;>
        simp_all [bind_eq_ok, eq_comm (a := n)]

/-! ## Conditionals -/

theorem mkConditional_eq_ok {test ifTrue ifFalse : Node} :
    mkConditional test ifTrue ifFalse = .ok n ↔
      test.type.isBool = true ∧ ifTrue.type.equivalent ifFalse.type = true ∧ n = .conditional test ifTrue ifFalse := by
  unfold mkConditional
  cases test.type.isBool with
  | false => simp
  | true =>
    cases ifTrue.type.equivalent ifFalse.type with
    | false => simp
    | true => simp [eq_comm (a := n)]

end Node

end ExprTree
