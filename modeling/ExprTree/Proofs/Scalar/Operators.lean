import ExprTree.Proofs.Node.Building
import ExprTree.Proofs.Scalar.Arithmetic

/-!
# Operators between scalar types

What the typing rules let through, operator by operator: operands of one class
for most, and values that are instances of their types. Conversions are the
operators that may also fail because a value is of the wrong type.
-/

namespace ExprTree

/-! ## Types that operators are defined for -/

namespace Ty

variable {s : Scalar} {t : Ty}

/-- An optional type is no class. -/
theorem IsOf.eq_of_isClass {c : ClassName} (ht : t.IsOf s) (h : t.isClass c = true) : t = s.ty :=
  ht.eq_ty (c := c) (by rw [eq_cls_of_isClass h]; rfl)

theorem IsOf.eq_of_isNumeric (ht : t.IsOf s) (h : t.isNumeric = true) : t = s.ty := by
  obtain ⟨c, rfl⟩ := exists_cls_of_isNumeric h
  exact ht.eq_ty rfl

theorem IsOf.eq_of_isInteger (ht : t.IsOf s) (h : t.isInteger = true) : t = s.ty :=
  ht.eq_of_isNumeric (isNumeric_of_isInteger h)

end Ty

namespace Library.HasScalars

variable {l : Library} (hl : l.HasScalars) {t : Ty} {v : Value}
include hl

theorem exists_bool (ht : t.isBool = true) (hv : l.Has t v) : ∃ b, v = .bool b := by
  obtain rfl := Ty.eq_cls_of_isClass ht
  cases (hl.has_ty (s := .bool)).mp hv with
  | bool b => exact ⟨b, rfl⟩

theorem has_bool (b : Bool) : l.Has .bool (.bool b) :=
  (hl.has_ty (s := .bool)).mpr (.bool b)

end Library.HasScalars

/-! ## Operations -/

/-- Does an operation stay in the type of its left operand? A power of unbounded integers may be a fraction, and a shift
by a fixed-width count may be of fixed width. -/
def Operation.Stays (left right result : Ty) : Operation → Prop
  | .arithmetic .power => result.isInt = false
  | .shift _ => ¬(left.isInt = true ∧ right.isFixed = true)
  | _ => True

namespace Arithmetic

variable {l : Library} (hl : l.HasScalars) {s r : Scalar} {left right t : Ty} {v w : Value}
include hl

theorem has_computes {x : Except Fault Value} (h : Computes s.Holds x) : Computes (l.Has s.ty) x :=
  h.imp (fun _ => hl.has_ty.mpr) fun _ h => h

/-- An operation between instances of its types yields an instance of the left one. -/
theorem operate_computes {o : Operation} (hleft : left.IsOf s) (hright : right.IsOf r) (ho : o.IsFor left right)
    (hstays : o.Stays left right left) (hv : l.Has left v) (hw : l.Has right w) :
    Computes (l.Has left) (operate o left v w) := by
  cases o with
  | arithmetic a =>
    obtain ⟨hsame, hdefined⟩ := ho
    have hw : l.Has left w := (Library.has_congr hsame).mpr hw
    obtain rfl : left = s.ty := hdefined.elim (fun h => hleft.eq_of_isClass h.2) hleft.eq_of_isNumeric
    rw [hl.has_ty] at hv hw
    refine has_computes hl ?_
    obtain ⟨rfl, hstr⟩ | hs := hdefined
    · rw [Scalar.isStr_ty, decide_eq_true_iff] at hstr
      subst hstr
      exact add_texts hv hw false
    · cases a with
      | add => exact add_computes hs hv (.inl hw) false
      | addChecked => exact add_computes hs hv (.inl hw) true
      | subtract => exact subtract_computes hs hv (.inl hw) false
      | subtractChecked => exact subtract_computes hs hv (.inl hw) true
      | multiply => exact multiply_computes hs hv (.inl hw) false
      | multiplyChecked => exact multiply_computes hs hv (.inl hw) true
      | divide => exact divide_computes hs hv hw
      | modulo => exact modulo_computes hs hv hw
      | power =>
        have hne : s ≠ .int := by simpa [Operation.Stays, Scalar.isInt_ty] using hstays
        exact power_computes hs hne hv hw
  | bitwise k =>
    obtain ⟨hsame, hdefined⟩ := ho
    have hw : l.Has left w := (Library.has_congr hsame).mpr hw
    obtain rfl : left = s.ty := hdefined.elim hleft.eq_of_isInteger hleft.eq_of_isClass
    rw [hl.has_ty] at hv hw
    refine has_computes hl ?_
    exact bitwise_computes k (hdefined.imp id fun h => by simpa [Scalar.isBool_ty] using h) hv hw
  | shift k =>
    obtain rfl := hleft.eq_of_isInteger ho.1
    obtain rfl := hright.eq_of_isInteger ho.2
    rw [hl.has_ty] at hv hw
    refine has_computes hl ?_
    refine shift_computes k ho.1 ho.2 ?_ hv hw
    rintro rfl
    have hr := ho.2
    rw [Scalar.isInteger_ty] at hr
    cases r with
    | int => rfl
    | fixed i => exact (hstays ⟨by rw [Scalar.isInt_ty]; rfl, by rw [Ty.isFixed, Scalar.fixed?_ty]; rfl⟩).elim
    | _ => cases hr

theorem onesComplement_has (ht : t.IsOf s) (hint : t.isInteger = true) (hv : l.Has t v) :
    Computes (l.Has t) (onesComplement t v) := by
  obtain rfl := ht.eq_of_isInteger hint
  exact has_computes hl (onesComplement_computes hint (hl.has_ty.mp hv))

/-- The operators on numbers yield instances of the type of their operand. -/
theorem has_of_isNumeric (f : Ty → Value → Except Fault Value) (ht : t.IsOf s) (hnumeric : t.isNumeric = true)
    (hf : ∀ {s : Scalar} {v : Value}, s.ty.isNumeric = true → s.Holds v → Computes s.Holds (f s.ty v))
    (hv : l.Has t v) : Computes (l.Has t) (f t v) := by
  obtain rfl := ht.eq_of_isNumeric hnumeric
  exact has_computes hl (hf hnumeric (hl.has_ty.mp hv))

end Arithmetic

/-! ## Conversion -/

/-- Is the result as described, or a fault of arithmetic or of a value of the wrong type? -/
abbrev Converts {α : Type} (P : α → Prop) : Except Fault α → Prop :=
  Gives P fun f => f.isArithmetic = true ∨ f.kind = .type

theorem Computes.converts {α : Type} {P : α → Prop} {x : Except Fault α} (h : Computes P x) : Converts P x :=
  h.imp (fun _ h => h) fun _ => .inl

namespace Arithmetic

variable {l : Library} {s r : Scalar} {t : Ty} {v : Value}

theorem toNumber_converts (v : Value) : Converts (fun _ => True) (toNumber v) := by
  cases v with
  | str s => exact .error (.inr rfl)
  | _ => exact .ok trivial

theorem toInteger_converts (target : String) (checked : Bool) (v : Value) :
    Converts (fun _ => True) (toInteger target checked v) := by
  have hmissing (shown : String) :
      Converts (fun _ => True) (if checked then .error (.notFinite shown target) else .ok 0 : Except Fault Int) :=
    .ite (fun _ => .error (.inl rfl)) fun _ => .ok trivial
  refine .bind (toNumber_converts v) fun w _ => ?_
  cases w with
  | int n => exact .ok trivial
  | float k x =>
    refine .ite (fun _ => hmissing _) fun _ => ?_
    cases k with
    | general => exact .ok trivial
    | double => exact .ok trivial
    | _ => exact .error (.inr rfl)
  | decimal d =>
    dsimp only
    split
    · exact .error (.inl rfl)
    · exact .ite (fun _ => .ok trivial) fun _ => hmissing _
  | _ => exact .error (.inr rfl)

theorem float_converts (k : FloatKind) (v : Value) : Converts (fun _ => True) (float k v) := by
  cases v with
  | int n => exact (float_computes k rfl).converts
  | decimal d => exact (float_computes k rfl).converts
  | str s =>
    simp only [float]
    split
    · exact .ok trivial
    · exact .error (.inl rfl)
  | char c =>
    simp only [float]
    split
    · exact .ok trivial
    · exact .error (.inl rfl)
  | none => exact .ok trivial
  | bool b => exact .ok trivial
  | flag b => exact .ok trivial
  | fixed t n => exact .ok trivial
  | float j x => exact .ok trivial
  | _ => exact .error (.inr rfl)

theorem toDecimal_converts (h : Heap) (hv : v.scalar?.isSome = true) :
    Converts Scalar.decimal.Holds (toDecimal h v) := by
  cases v with
  | float k x =>
    simp only [toDecimal]
    split
    · exact .ok (.decimal _)
    · exact .error (.inl rfl)
  | str s => exact .error (.inr rfl)
  | bool b => exact .ok (.decimal _)
  | int n => exact .ok (.decimal _)
  | fixed t n => exact .ok (.decimal _)
  | decimal d => exact .ok (.decimal _)
  | char c => exact .ok (.decimal _)
  | _ => cases hv

theorem character_converts (n : Int) : Converts Scalar.char.Holds (character n) :=
  .ite (fun _ => .error (.inl rfl)) fun _ => .ite (fun _ => .error (.inl rfl)) fun _ => .ok (.char _)

/-- A conversion to a scalar class yields a value of it. -/
theorem convertTo_converts (l : Library) (h : Heap) (checked : Bool) (hv : v.IsScalar) :
    Converts s.Holds (convertTo l h s.ty checked v) := by
  unfold convertTo
  by_cases hnone : v.isNone = true
  · rw [if_pos hnone, Scalar.isObject_ty, Scalar.isNothing_ty]
    exact .error (.inr rfl)
  have hscalar := hv.resolve_left hnone
  have hgeneral : s.ty.isClass FloatKind.general.className = decide (s = .float .general) :=
    s.isClass_ty (.float .general)
  rw [if_neg hnone, Scalar.fixed?_ty, Scalar.fixedFloat?_ty, Scalar.isInt_ty, hgeneral, Scalar.isDecimal_ty,
    Scalar.isBool_ty, Scalar.isChar_ty, Scalar.isStr_ty]
  cases s with
  | fixed i => exact .bind (toInteger_converts _ checked v) fun _ _ => (narrow_computes i checked _).converts
  | float k =>
    cases k with
    | general =>
      exact .bind (toNumber_converts v) fun _ _ => .bind (float_converts _ _) fun _ _ => .ok (.float .general _)
    | _ => exact .bind (toNumber_converts v) fun _ _ => .bind (float_converts _ _) fun _ _ => .ok (.float _ _)
  | int => exact .bind (toInteger_converts _ checked v) fun _ _ => .ok (.int _)
  | decimal => exact toDecimal_converts h hscalar
  | bool => exact .ok (.bool _)
  | char => exact .bind (toInteger_converts _ checked v) fun _ _ => character_converts _
  | str =>
    cases h.textOf v with
    | some s => exact .ok (.str s)
    | none => exact .error (.inl rfl)

/-- A conversion of a scalar to a scalar type yields an instance of it. -/
theorem convert_converts (hl : l.HasScalars) (ht : t.IsOf s) (h : Heap) (checked : Bool) (hv : v.IsScalar) :
    Converts (l.Has t) (convert l h t checked v) := by
  have hto : Converts (l.Has t) (convertTo l h s.ty checked v) :=
    (convertTo_converts l h checked hv).imp (fun _ => hl.has_of_holds ht) fun _ h => h
  cases ht with
  | plain => exact hto
  | optional hinner =>
    rw [convert, hinner]
    exact .ite (fun _ => .ok ((hl.has_optional hinner).mpr (.inl rfl))) fun _ => hto

end Arithmetic

end ExprTree
