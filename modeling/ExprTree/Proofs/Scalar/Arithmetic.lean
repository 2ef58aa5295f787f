import ExprTree.Proofs.Action
import ExprTree.Proofs.Scalar.Types

/-!
# Arithmetic of scalar types

The typing rules let an operator through where the values of its operands are
ones it is made for. It then yields a value of its own class, or fails for a
reason of arithmetic. Whole-number powers and the shifts of unbounded integers
by fixed-width counts are the exceptions: these leave the class of the left
operand.
-/

namespace ExprTree

/-- Is the fault one of arithmetic, and not one of operands of the wrong type? -/
def Fault.isArithmetic (f : Fault) : Bool :=
  match f.kind with
  | .overflow | .zeroDivision | .value | .decimal _ => true
  | _ => false

/-- Is the result as described, or a fault of arithmetic? -/
abbrev Computes {α : Type} (P : α → Prop) : Except Fault α → Prop :=
  Gives P fun f => f.isArithmetic = true

namespace Scalar

variable {s : Scalar} {v w : Value}

theorem isInteger_ty (s : Scalar) : s.ty.isInteger = match s with | .int | .fixed _ => true | _ => false := by
  rw [Ty.isInteger, Ty.isFixed, isInt_ty, fixed?_ty]
  cases s <;> rfl

theorem isNumeric_ty (s : Scalar) : s.ty.isNumeric = match s with
    | .int | .fixed _ | .float _ | .decimal => true
    | _ => false := by
  rw [Ty.isNumeric, Ty.isFloat, isInteger_ty, floatKind?_ty, isDecimal_ty]
  cases s <;> rfl

theorem Holds.number?_int (h : Scalar.int.Holds v) : ∃ n, v.number? = some (.int n) := by
  cases h <;> exact ⟨_, rfl⟩

theorem Holds.number?_decimal (h : Scalar.decimal.Holds v) : ∃ d, v.number? = some (.decimal d) := by
  cases h
  exact ⟨_, rfl⟩

theorem Holds.isNumber (h : s.Holds v) (hs : s.ty.isNumeric = true) : v.number?.isSome = true := by
  rw [isNumeric_ty] at hs
  cases h <;> first | rfl | cases hs

end Scalar

namespace Number

theorem liftDecimal_computes (r : Decimal.Result) :
    Computes (fun m => Scalar.decimal.Holds m.toValue) (liftDecimal r) := by
  cases r with
  | ok d => exact .ok (.decimal d)
  | error f => exact .error rfl

/-! ## Unbounded integers and decimals -/

/-- Does an operator on numbers stay within the unbounded integers? -/
def OnInts (f : Number → Number → Result) : Prop :=
  ∀ a b, Computes (fun m => Scalar.int.Holds m.toValue) (f (.int a) (.int b))

/-- Does an operator on numbers stay within the decimals, where a decimal meets a decimal or an integer? -/
def OnDecimals (f : Number → Number → Result) : Prop :=
  ∀ a n b, pair (.decimal a) n = .decimals a b → Computes (fun m => Scalar.decimal.Holds m.toValue) (f (.decimal a) n)

variable {onInts : Int → Int → Int} {onFloats : Format → Binary → Binary → Binary}
  {onDecimals : Decimal → Decimal → Decimal.Result}

theorem combine_onInts : OnInts (combine onInts onFloats onDecimals) :=
  fun _ _ => .ok (.int _)

theorem combine_onDecimals : OnDecimals (combine onInts onFloats onDecimals) := by
  intro a n b h
  rw [combine, h]
  exact liftDecimal_computes _

theorem div_onDecimals : OnDecimals div := by
  intro a n b h
  rw [div, h]
  exact liftDecimal_computes _

theorem mod_onDecimals : OnDecimals mod := by
  intro a n b h
  rw [mod, h]
  exact liftDecimal_computes _

theorem pow_onDecimals : OnDecimals pow := by
  intro a n b h
  rw [pow, h]
  exact liftDecimal_computes _

theorem onBits_onInts (f : Int → Int → Int) : OnInts (onBits fun m n => .ok (f m n)) :=
  fun _ _ => .ok (.int _)

theorem shiftLeft_onInts : OnInts shiftLeft := fun a b => by
  change Computes _ (if b < 0 then _ else _)
  exact .ite (fun _ => .error rfl) fun _ => .ite (fun _ => .error rfl) fun _ => .ok (.int _)

theorem shiftRight_onInts : OnInts shiftRight := fun a b => by
  change Computes _ (if b < 0 then _ else _)
  exact .ite (fun _ => .error rfl) fun _ => .ok (.int _)

end Number

namespace Arithmetic

open Scalar (Holds)

variable {α : Type} {s r : Scalar} {v w : Value}

/-! ## Operands -/

theorem narrow_computes (t : IntType) (checked : Bool) (n : Int) :
    Computes (Scalar.fixed t).Holds (narrow t checked n) :=
  .ite (fun _ => .ok (.fixed t n)) fun _ => .ite (fun _ => .error rfl) fun _ => .ok (.fixed t _)

theorem integer_computes (h : v.number?.isSome = true) : Computes (fun _ => True) (integer v) := by
  cases v with
  | float k x => cases x <;> first | exact .ok trivial | exact .error rfl
  | decimal d => cases d <;> first | exact .ok trivial | exact .error rfl
  | bool b => exact .ok trivial
  | flag b => exact .ok trivial
  | int n => exact .ok trivial
  | fixed t n => exact .ok trivial
  | _ => cases h

theorem doubleOfInt_computes (n : Int) : Computes (fun _ => True) (doubleOfInt n) := by
  unfold doubleOfInt
  split
  · exact .error rfl
  · exact .ok trivial

theorem float_computes (k : FloatKind) (h : v.number?.isSome = true) : Computes (fun _ => True) (float k v) := by
  cases v with
  | int n => exact .bind (doubleOfInt_computes n) fun _ _ => .ok trivial
  | decimal d =>
    simp only [float]
    split
    · exact .ok trivial
    · exact .error rfl
  | bool b => exact .ok trivial
  | flag b => exact .ok trivial
  | fixed t n => exact .ok trivial
  | float j x => exact .ok trivial
  | _ => cases h

/-- Both operands as integers, then what is made of them. -/
theorem integers_compute {P : α → Prop} {f : Int → Int → Except Fault α} (hv : v.number?.isSome = true)
    (hw : w.number?.isSome = true) (hf : ∀ a b, Computes P (f a b)) : Computes P (do f (← integer v) (← integer w)) :=
  .bind (integer_computes hv) fun a _ => .bind (integer_computes hw) fun b _ => hf a b

theorem truncatedQuotient_computes (a b : Int) : Computes (fun _ => True) (truncatedQuotient a b) :=
  .ite (fun _ => .error rfl) fun _ => .ok trivial

/-! ## Operators of the values themselves -/

theorem onNumbers_computes {f : Number → Number → Number.Result} {P : Value → Prop} {m n : Number}
    (hv : v.number? = some m) (hw : w.number? = some n) (hf : Computes (fun m => P m.toValue) (f m n)) :
    Computes P (onNumbers f v w) := by
  rw [onNumbers, hv, hw]
  exact hf.map fun _ h => h

theorem onNumbers_ints {f : Number → Number → Number.Result} (hf : Number.OnInts f) (hv : Scalar.int.Holds v)
    (hw : Scalar.int.Holds w) : Computes Scalar.int.Holds (onNumbers f v w) := by
  obtain ⟨a, ha⟩ := hv.number?_int
  obtain ⟨b, hb⟩ := hw.number?_int
  exact onNumbers_computes ha hb (hf a b)

theorem onNumbers_decimals {f : Number → Number → Number.Result} (hf : Number.OnDecimals f)
    (hv : Scalar.decimal.Holds v) (hw : Scalar.decimal.Holds w ∨ Scalar.int.Holds w) :
    Computes Scalar.decimal.Holds (onNumbers f v w) := by
  obtain ⟨a, ha⟩ := hv.number?_decimal
  obtain hw | hw := hw
  · obtain ⟨b, hb⟩ := hw.number?_decimal
    exact onNumbers_computes ha hb (hf a _ b rfl)
  · obtain ⟨b, hb⟩ := hw.number?_int
    exact onNumbers_computes ha hb (hf a _ (.ofInt b) rfl)

/-! ## Typed operators

The second operand is one of the same class, or, for the steps by one, a whole
number. -/

/-- Does an operator on values stay within the unbounded integers and within the decimals? -/
structure StaysExact (f : Value → Value → Except Fault Value) : Prop where
  ints {v w : Value} (hv : Scalar.int.Holds v) (hw : Scalar.int.Holds w) : Computes Scalar.int.Holds (f v w)
  decimals {v w : Value} (hv : Scalar.decimal.Holds v) (hw : Scalar.decimal.Holds w ∨ Scalar.int.Holds w) :
    Computes Scalar.decimal.Holds (f v w)

theorem StaysExact.onNumbers {f : Number → Number → Number.Result} (hints : Number.OnInts f)
    (hdecimals : Number.OnDecimals f) : StaysExact (onNumbers f) :=
  ⟨onNumbers_ints hints, onNumbers_decimals hdecimals⟩

theorem addValues_staysExact : StaysExact addValues where
  ints hv hw := by
    have h := onNumbers_ints (f := Number.add) Number.combine_onInts hv hw
    cases hv <;> cases hw <;> exact h
  decimals hv hw := by
    have h := onNumbers_decimals (f := Number.add) Number.combine_onDecimals hv hw
    obtain hw | hw := hw <;> cases hv <;> cases hw <;> exact h

theorem multiplyValues_staysExact : StaysExact multiplyValues where
  ints hv hw := by
    have h := onNumbers_ints (f := Number.mul) Number.combine_onInts hv hw
    cases hv <;> cases hw <;> exact h
  decimals hv hw := by
    have h := onNumbers_decimals (f := Number.mul) Number.combine_onDecimals hv hw
    obtain hw | hw := hw <;> cases hv <;> cases hw <;> exact h

/-- The second operand of an operator in a numeric class. -/
theorem isNumber_of_operand (hs : s.ty.isNumeric = true) (hw : s.Holds w ∨ Scalar.int.Holds w) :
    w.number?.isSome = true :=
  hw.elim (·.isNumber hs) (·.isNumber (by rw [Scalar.isNumeric_ty]))

theorem apply_computes {onInts : Int → Int → Int} {onFloats : Format → Binary → Binary → Binary}
    {onValues : Value → Value → Except Fault Value} (hs : s.ty.isNumeric = true) (hv : s.Holds v)
    (hw : s.Holds w ∨ Scalar.int.Holds w) (hints : s = .int → Computes s.Holds (onValues v w))
    (hdecimals : s = .decimal → Computes s.Holds (onValues v w)) (checked : Bool) :
    Computes s.Holds (apply onInts onFloats onValues s.ty checked v w) := by
  have hv' := hv.isNumber hs
  have hw' := isNumber_of_operand hs hw
  rw [Scalar.isNumeric_ty] at hs
  unfold apply
  rw [Scalar.fixed?_ty, Scalar.floatKind?_ty]
  cases s with
  | fixed t => exact integers_compute hv' hw' fun a b => narrow_computes t checked _
  | float k => exact .bind (float_computes k hv') fun _ _ => .bind (float_computes k hw') fun _ _ => .ok (.float k _)
  | int => exact hints rfl
  | decimal => exact hdecimals rfl
  | _ => cases hs

theorem apply_exact {onInts : Int → Int → Int} {onFloats : Format → Binary → Binary → Binary}
    {onValues : Value → Value → Except Fault Value} (h : StaysExact onValues) (hs : s.ty.isNumeric = true)
    (hv : s.Holds v) (hw : s.Holds w ∨ Scalar.int.Holds w) (checked : Bool) :
    Computes s.Holds (apply onInts onFloats onValues s.ty checked v w) := by
  refine apply_computes hs hv hw ?_ ?_ checked
  · rintro rfl
    exact h.ints hv (or_self_iff.mp hw)
  · rintro rfl
    exact h.decimals hv hw

theorem subtract_computes (hs : s.ty.isNumeric = true) (hv : s.Holds v) (hw : s.Holds w ∨ Scalar.int.Holds w)
    (checked : Bool) : Computes s.Holds (subtract s.ty checked v w) :=
  apply_exact (.onNumbers Number.combine_onInts Number.combine_onDecimals) hs hv hw checked

theorem add_computes (hs : s.ty.isNumeric = true) (hv : s.Holds v) (hw : s.Holds w ∨ Scalar.int.Holds w)
    (checked : Bool) : Computes s.Holds (add s.ty checked v w) :=
  apply_exact addValues_staysExact hs hv hw checked

theorem multiply_computes (hs : s.ty.isNumeric = true) (hv : s.Holds v) (hw : s.Holds w ∨ Scalar.int.Holds w)
    (checked : Bool) : Computes s.Holds (multiply s.ty checked v w) :=
  apply_exact multiplyValues_staysExact hs hv hw checked

/-- Texts are joined. -/
theorem add_texts (hv : Scalar.str.Holds v) (hw : Scalar.str.Holds w) (checked : Bool) :
    Computes Scalar.str.Holds (add Scalar.str.ty checked v w) := by
  cases hv <;> cases hw <;> exact .ok (.str _)

theorem divide_computes (hs : s.ty.isNumeric = true) (hv : s.Holds v) (hw : s.Holds w) :
    Computes s.Holds (divide s.ty v w) := by
  have hv' := hv.isNumber hs
  have hw' := hw.isNumber hs
  have happly : s ≠ .int → Computes s.Holds (apply (fun a _ => a) Binary.div (onNumbers Number.div) s.ty false v w) :=
    fun hne => apply_computes hs hv (.inl hw) (fun h => absurd h hne)
      (by rintro rfl; exact onNumbers_decimals Number.div_onDecimals hv (.inl hw)) false
  unfold divide
  rw [Scalar.fixed?_ty, Scalar.isInt_ty]
  cases s with
  | fixed t =>
    exact integers_compute hv' hw' fun a b => .bind (truncatedQuotient_computes a b) fun _ _ => narrow_computes t true _
  | int => exact integers_compute hv' hw' fun a b => .bind (truncatedQuotient_computes a b) fun _ _ => .ok (.int _)
  | _ => exact happly nofun

theorem modulo_computes (hs : s.ty.isNumeric = true) (hv : s.Holds v) (hw : s.Holds w) :
    Computes s.Holds (modulo s.ty v w) := by
  have hv' := hv.isNumber hs
  have hw' := hw.isNumber hs
  have happly : s ≠ .int → Computes s.Holds (apply (fun a _ => a) Binary.rem (onNumbers Number.mod) s.ty false v w) :=
    fun hne => apply_computes hs hv (.inl hw) (fun h => absurd h hne)
      (by rintro rfl; exact onNumbers_decimals Number.mod_onDecimals hv (.inl hw)) false
  unfold modulo
  rw [Scalar.fixed?_ty, Scalar.isInteger_ty]
  cases s with
  | fixed t =>
    exact integers_compute hv' hw' fun a b => .bind (truncatedQuotient_computes a b) fun _ _ => narrow_computes t false _
  | int => exact integers_compute hv' hw' fun a b => .bind (truncatedQuotient_computes a b) fun _ _ => .ok (.int _)
  | _ => exact happly nofun

/-- A power stays in its class where that is not the class of unbounded integers. -/
theorem power_computes (hs : s.ty.isNumeric = true) (hne : s ≠ .int) (hv : s.Holds v) (hw : s.Holds w) :
    Computes s.Holds (power s.ty v w) := by
  have hv' := hv.isNumber hs
  have hw' := hw.isNumber hs
  have happly : Computes s.Holds (apply (fun a _ => a) Binary.pow (onNumbers Number.pow) s.ty false v w) :=
    apply_computes hs hv (.inl hw) (fun h => absurd h hne)
      (by rintro rfl; exact onNumbers_decimals Number.pow_onDecimals hv (.inl hw)) false
  unfold power
  rw [Scalar.fixed?_ty]
  cases s with
  | fixed t =>
    refine .bind (integer_computes hw') fun n _ => .ite (fun _ => .error rfl) fun _ => ?_
    exact .bind (integer_computes hv') fun _ _ => narrow_computes t false _
  | _ => exact happly

theorem shift_computes (k : ShiftKind) (hs : s.ty.isInteger = true) (hr : r.ty.isInteger = true)
    (hstays : s = .int → r = .int) (hv : s.Holds v) (hw : r.Holds w) : Computes s.Holds (shift k s.ty v w) := by
  unfold shift
  rw [Scalar.fixed?_ty]
  rw [Scalar.isInteger_ty] at hs hr
  cases s with
  | fixed t =>
    have hw' : w.number?.isSome = true := hw.isNumber (by rw [Scalar.isNumeric_ty]; cases r <;> first | rfl | cases hr)
    exact integers_compute (hv.isNumber (by rw [Scalar.isNumeric_ty])) hw' fun a b => by
      cases k <;> exact narrow_computes t false _
  | int =>
    obtain rfl := hstays rfl
    cases k with
    | left => exact onNumbers_ints Number.shiftLeft_onInts hv hw
    | right => exact onNumbers_ints Number.shiftRight_onInts hv hw
  | _ => cases hs

theorem bitwise_computes (k : BitwiseKind) (hs : s.ty.isInteger = true ∨ s = .bool) (hv : s.Holds v) (hw : s.Holds w) :
    Computes s.Holds (bitwise k s.ty v w) := by
  unfold bitwise
  rw [Scalar.fixed?_ty]
  rw [Scalar.isInteger_ty] at hs
  cases s with
  | fixed t =>
    have hnumeric : (Scalar.fixed t).ty.isNumeric = true := by rw [Scalar.isNumeric_ty]
    exact integers_compute (hv.isNumber hnumeric) (hw.isNumber hnumeric) fun a b => by
      cases k <;> exact narrow_computes t false _
  | int =>
    have h (f : Int → Int → Int) := onNumbers_ints (Number.onBits_onInts f) hv hw
    -- two truth values stay truth values, which are integers too
    cases hv <;> cases hw <;> first | exact .ok (.truth _) | exact h _
  | bool =>
    cases hv
    cases hw
    exact .ok (.bool _)
  | _ => simp at hs

/-! ## Operators on one operand -/

theorem negate_computes (hs : s.ty.isNumeric = true) (checked : Bool) (hv : s.Holds v) :
    Computes s.Holds (negate s.ty checked v) := by
  have hv' := hv.isNumber hs
  rw [Scalar.isNumeric_ty] at hs
  unfold negate
  rw [Scalar.fixed?_ty, Scalar.fixedFloat?_ty]
  cases s with
  | fixed t => exact .bind (integer_computes hv') fun _ _ => narrow_computes t checked _
  | float k =>
    cases k with
    | general => cases hv <;> exact .ok (by constructor)
    | _ => exact .bind (float_computes _ hv') fun _ _ => .ok (.float _ _)
  | int => cases hv <;> exact .ok (.int _)
  | decimal =>
    cases hv with
    | decimal d => exact (Number.liftDecimal_computes d.neg).map fun _ h => h
  | _ => cases hs

theorem onesComplement_computes (hs : s.ty.isInteger = true) (hv : s.Holds v) :
    Computes s.Holds (onesComplement s.ty v) := by
  rw [Scalar.isInteger_ty] at hs
  unfold onesComplement
  rw [Scalar.fixed?_ty]
  cases s with
  | fixed t =>
    have hv' : v.number?.isSome = true := hv.isNumber (by rw [Scalar.isNumeric_ty])
    exact .bind (integer_computes hv') fun _ _ => narrow_computes t false _
  | int => cases hv <;> exact .ok (.int _)
  | _ => cases hs

theorem increment_computes (hs : s.ty.isNumeric = true) (hv : s.Holds v) : Computes s.Holds (increment s.ty v) :=
  add_computes hs hv (.inr (.int 1)) false

theorem decrement_computes (hs : s.ty.isNumeric = true) (hv : s.Holds v) : Computes s.Holds (decrement s.ty v) :=
  subtract_computes hs hv (.inr (.int 1)) false

end Arithmetic

/-! ## Comparison -/

namespace Number

theorem equal_computes (a b : Number) : Computes (fun _ => True) (a.equal b) :=
  .ite (fun _ => .error rfl) fun _ => .ok trivial

theorem order_computes (a b : Number) : Computes (fun _ => True) (a.order b) :=
  .ite (fun _ => .error rfl) fun _ => .ok trivial

end Number

namespace Heap

variable (h : Heap) {s : Scalar} {v w : Value}

theorem list?_scalar (hv : v.IsScalar) : h.list? v = none := by
  cases v with
  | ref a => exact absurd hv (Value.not_isScalar rfl rfl)
  | _ => rfl

/-- All scalars can be asked whether they are equal. -/
theorem equal_computes (hv : v.IsScalar) : Computes (fun _ => True) (h.equal v w) := by
  unfold equal Value.equalWith
  split
  · exact absurd hv (Value.not_isScalar rfl rfl)
  · exact absurd hv (Value.not_isScalar rfl rfl)
  · exact absurd hv (Value.not_isScalar rfl rfl)
  · exact .ok trivial
  · split
    · exact Number.equal_computes _ _
    · split <;> exact .ok trivial

/-- Numbers and texts of one class can be asked for their order. -/
theorem order_computes (hs : s.ty.isNumeric = true ∨ s = .str ∨ s = .char) (hv : s.Holds v) (hw : s.Holds w) :
    Computes (fun _ => True) (h.order v w) := by
  change Computes _ (h.orderAt (h.depth + 99 + 1) v w)
  unfold orderAt
  obtain hs | hs := hs
  · obtain ⟨m, hm⟩ := Option.isSome_iff_exists.mp (hv.isNumber hs)
    obtain ⟨n, hn⟩ := Option.isSome_iff_exists.mp (hw.isNumber hs)
    rw [hm, hn]
    exact Number.order_computes m n
  · obtain rfl | rfl := hs <;> cases hv <;> cases hw <;> exact .ok trivial

end Heap

end ExprTree
