import ExprTree.Proofs.Eval.Runs
import ExprTree.Proofs.Ty.Congruence

/-!
# Operators in equivalent types

An operator looks at a type for the class it names and for what it says of
none. So it does the same in equivalent types; only the words of a fault may
name the type differently.
-/

namespace ExprTree

open Ty

variable {t u : Ty}

namespace Arithmetic

theorem apply_congr (h : t.equivalent u = true) (onInts : Int → Int → Int)
    (onFloats : Format → Binary → Binary → Binary) (onValues : Value → Value → Except Fault Value) (checked : Bool)
    (v w : Value) : apply onInts onFloats onValues t checked v w = apply onInts onFloats onValues u checked v w := by
  simp only [apply, fixed?_congr h, floatKind?_congr h]

theorem operate_congr (h : t.equivalent u = true) (o : Operation) (v w : Value) :
    operate o t v w = operate o u v w := by
  simp only [operate, add, subtract, multiply, divide, modulo, power, bitwise, shift, apply_congr h, fixed?_congr h,
    isInt_congr h, isInteger_congr h]

theorem negate_congr (h : t.equivalent u = true) (checked : Bool) (v : Value) :
    negate t checked v = negate u checked v := by
  simp only [negate, fixed?_congr h, fixedFloat?_congr h]

theorem onesComplement_congr (h : t.equivalent u = true) (v : Value) : onesComplement t v = onesComplement u v := by
  simp only [onesComplement, fixed?_congr h]

theorem increment_congr (h : t.equivalent u = true) (v : Value) : increment t v = increment u v :=
  apply_congr h _ _ _ _ _ _

theorem decrement_congr (h : t.equivalent u = true) (v : Value) : decrement t v = decrement u v :=
  apply_congr h _ _ _ _ _ _

theorem convertTo_congr (h : t.equivalent u = true) (l : Library) (k : Heap) (checked : Bool) (v : Value) :
    SameOutcome (convertTo l k t checked v) (convertTo l k u checked v) := by
  unfold convertTo
  simp only [fixed?_congr h, fixedFloat?_congr h, isInt_congr h, isDecimal_congr h, isObject_congr h, isBool_congr h,
    isNothing_congr h, isStr_congr h, isChar_congr h, isClass_congr _ h, runtimeClass_congr h]
  refine .ite (.ite (.refl _) (.error rfl)) ?_
  split
  · exact .refl _
  · exact .refl _
  refine .ite (.refl _) (.ite (.refl _) (.ite (.refl _) (.ite (.refl _) (.ite (.refl _) (.ite (.refl _) ?_)))))
  split
  · exact .bind (.refl _) fun b => .ite (.refl _) (.error rfl)
  · exact .error rfl

theorem convert_congr (h : t.equivalent u = true) (l : Library) (k : Heap) (checked : Bool) (v : Value) :
    SameOutcome (convert l k t checked v) (convert l k u checked v) := by
  have hinner := optionalInner?_congr h
  unfold convert
  generalize t.optionalInner? = i, u.optionalInner? = j at hinner
  cases hinner with
  | none => exact convertTo_congr h l k checked v
  | some hij =>
    cases v.isNone with
    | true => exact .ok Value.none
    | false => exact convertTo_congr hij l k checked v

end Arithmetic

end ExprTree
