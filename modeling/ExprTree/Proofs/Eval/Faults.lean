import ExprTree.Arithmetic
import Mathlib.Order.Defs.LinearOrder

/-!
# Faults of values

Operations on values fail for reasons that lie in the values. That a parameter
is not bound is never one of them: only an expression that reads or assigns a
parameter can say so.
-/

namespace ExprTree

/-- Does the fault say that a parameter is not bound? -/
def Fault.isUnbound : Fault → Bool
  | .unbound _ => true
  | _ => false

/-- Is the result a value, or a fault that lies in values? -/
def Plain {α : Type} (r : Except Fault α) : Prop :=
  ∀ f, r = .error f → f.isUnbound = false

namespace Plain

variable {α β : Type} {r r' : Except Fault α}

theorem ok (a : α) : Plain (.ok a) := by
  rintro f ⟨⟩

theorem error {f : Fault} (h : f.isUnbound = false) : Plain (.error f : Except Fault α) := by
  rintro _ ⟨⟩
  exact h

theorem host (k : FaultKind) : Plain (.error (.host k) : Except Fault α) :=
  .error rfl

theorem bind {f : α → Except Fault β} (hr : Plain r) (hf : ∀ a, Plain (f a)) : Plain (r >>= f) := by
  cases r with
  | ok a => exact hf a
  | error e => exact .error (hr e rfl)

theorem map (f : α → β) (hr : Plain r) : Plain (r.map f) := by
  cases r with
  | ok a => exact .ok _
  | error e => exact .error (hr e rfl)

theorem ite {p : Prop} [Decidable p] (ht : Plain r) (hf : Plain r') : Plain (if p then r else r') := by
  split
  · exact ht
  · exact hf

theorem mapM {f : α → Except Fault β} (as : List α) (hf : ∀ a, Plain (f a)) : Plain (as.mapM f) := by
  induction as with
  | nil => exact .ok []
  | cons a as ih =>
    rw [List.mapM_cons]
    exact .bind (hf a) fun _ => .bind ih fun _ => .ok _

theorem foldlM {f : β → α → Except Fault β} (as : List α) (b : β) (hf : ∀ b a, Plain (f b a)) :
    Plain (as.foldlM f b) := by
  induction as generalizing b with
  | nil => exact .ok b
  | cons a as ih =>
    rw [List.foldlM_cons]
    exact .bind (hf b a) ih

end Plain

/-! ## Numbers -/

namespace Number

theorem equal_plain (a b : Number) : Plain (a.equal b) :=
  .ite (.host _) (.ok _)

theorem order_plain (a b : Number) : Plain (a.order b) :=
  .ite (.host _) (.ok _)

theorem liftDecimal_plain (r : Decimal.Result) : Plain (liftDecimal r) := by
  cases r with
  | ok d => exact .ok _
  | error f => exact .host _

theorem combine_plain (onInts : Int → Int → Int) (onFloats : Format → Binary → Binary → Binary)
    (onDecimals : Decimal → Decimal → Decimal.Result) (a b : Number) :
    Plain (combine onInts onFloats onDecimals a b) := by
  unfold combine
  cases pair a b with
  | decimals x y => exact liftDecimal_plain _
  | mixed => exact .host _
  | outside => exact .host _
  | _ => exact .ok _

theorem quotient_plain (m n : Int) : Plain (quotient m n) := by
  refine .ite (.host _) ?_
  split
  · exact .host _
  · exact .ok _

theorem div_plain (a b : Number) : Plain (div a b) := by
  unfold div
  cases pair a b with
  | ints m n => exact quotient_plain m n
  | fixed t m n => exact .ok _
  | floats k x y => exact .ite (.host _) (.ok _)
  | decimals x y => exact liftDecimal_plain _
  | mixed => exact .host _
  | outside => exact .host _

theorem mod_plain (a b : Number) : Plain (mod a b) := by
  unfold mod
  cases pair a b with
  | ints m n => exact .ite (.host _) (.ok _)
  | fixed t m n => exact .ok _
  | floats k x y => exact .ite (.host _) (.ok _)
  | decimals x y => exact liftDecimal_plain _
  | mixed => exact .host _
  | outside => exact .host _

theorem floorDiv_plain (a b : Number) : Plain (floorDiv a b) := by
  unfold floorDiv
  cases pair a b with
  | ints m n => exact .ite (.host _) (.ok _)
  | fixed t m n => exact .ok _
  | floats k x y => exact .ite (.host _) (.ok _)
  | decimals x y => exact liftDecimal_plain _
  | mixed => exact .host _
  | outside => exact .host _

theorem floatPower_plain (x y : Binary) : Plain (floatPower x y) := by
  unfold floatPower
  split
  · exact .host _
  · split
    · exact .ite (.host _) (.ok _)
    · exact .ok _

theorem pow_plain (a b : Number) : Plain (pow a b) := by
  unfold pow
  cases pair a b with
  | ints m n =>
    refine .ite (.ok _) ?_
    split
    · exact .host _
    · exact .host _
    · exact floatPower_plain _ _
  | fixed t m n => exact .ite (.host _) (.ok _)
  | floats k x y => exact .ite (floatPower_plain x y) (.ok _)
  | decimals x y => exact liftDecimal_plain _
  | mixed => exact .host _
  | outside => exact .host _

theorem onBits_plain {f : Int → Int → Except Fault Int} (hf : ∀ m n, Plain (f m n)) (a b : Number) :
    Plain (onBits f a b) := by
  unfold onBits
  cases pair a b with
  | ints m n => exact .bind (hf m n) fun _ => .ok _
  | fixed t m n => exact .bind (hf m n) fun _ => .ok _
  | _ => exact .host _

theorem shiftLeft_plain (a b : Number) : Plain (shiftLeft a b) := by
  unfold shiftLeft
  cases pair a b with
  | ints m n => exact .ite (.host _) (.ite (.host _) (.ok _))
  | fixed t m n => exact .ok _
  | _ => exact .host _

theorem shiftRight_plain (a b : Number) : Plain (shiftRight a b) := by
  unfold shiftRight
  cases pair a b with
  | ints m n => exact .ite (.host _) (.ok _)
  | fixed t m n => exact .ok _
  | _ => exact .host _

theorem neg_plain (a : Number) : Plain a.neg := by
  cases a with
  | decimal d => exact liftDecimal_plain _
  | _ => exact .ok _

theorem complement_plain (a : Number) : Plain a.complement := by
  cases a with
  | int n => exact .ok _
  | fixed t n => exact .ok _
  | _ => exact .host _

end Number

/-! ## Comparing values -/

namespace Value

theorem equalAll_plain {equal : Value → Value → Except Fault Bool} (h : ∀ v w, Plain (equal v w)) (vs ws : List Value) :
    Plain (equalAll equal vs ws) := by
  induction vs generalizing ws with
  | nil => cases ws <;> exact .ok _
  | cons v vs ih =>
    cases ws with
    | nil => exact .ok _
    | cons w ws => exact .bind (h v w) fun _ => .ite (ih ws) (.ok _)

mutual

/-- Equality of values fails like that of numbers, and like that of the cells they refer to. -/
theorem equalWith_plain {cells : Nat → Nat → Except Fault Bool} (h : ∀ a b, Plain (cells a b)) :
    ∀ v w, Plain (equalWith cells v w)
  | v, w => by
    unfold equalWith
    split
    · exact .ite (.ok _) (h _ _)
    · next vs ws => exact tuplesEqual_plain h vs ws
    · exact .ok _
    · exact .ok _
    · split
      · exact Number.equal_plain _ _
      · split <;> exact .ok _

theorem tuplesEqual_plain {cells : Nat → Nat → Except Fault Bool} (h : ∀ a b, Plain (cells a b)) :
    ∀ vs ws, Plain (tuplesEqual cells vs ws)
  | [], [] | [], _ :: _ | _ :: _, [] => .ok _
  | v :: vs, w :: ws => .bind (equalWith_plain h v w) fun _ => .ite (tuplesEqual_plain h vs ws) (.ok _)

end

end Value

namespace Heap

theorem equalCells_plain (h : Heap) (depth : Nat) : ∀ a b, Plain (h.equalCells depth a b) := by
  induction depth with
  | zero => exact fun _ _ => .host _
  | succ depth ih =>
    intro a b
    have hequal := Value.equalWith_plain ih
    unfold equalCells
    dsimp only
    split
    · exact .ite (Value.equalAll_plain hequal _ _) (.ok _)
    · refine .ite (.foldlM _ _ fun same e => .ite ?_ (.ok _)) (.ok _)
      split
      · exact hequal _ _
      · exact .ok _
    · exact .ok _

theorem equal_plain (h : Heap) (v w : Value) : Plain (h.equal v w) :=
  Value.equalWith_plain (h.equalCells_plain _) v w

theorem orderAll_plain (h : Heap) {order : Value → Value → Except Fault (Option Ordering)}
    (horder : ∀ v w, Plain (order v w)) (vs ws : List Value) : Plain (h.orderAll order vs ws) := by
  induction vs generalizing ws with
  | nil => cases ws <;> exact .ok _
  | cons v vs ih =>
    cases ws with
    | nil => exact .ok _
    | cons w ws => exact .bind (h.equal_plain v w) fun _ => .ite (ih ws) (horder v w)

theorem orderAt_plain (h : Heap) (depth : Nat) : ∀ v w, Plain (h.orderAt depth v w) := by
  induction depth with
  | zero => exact fun _ _ => .host _
  | succ depth ih =>
    intro v w
    have hall := h.orderAll_plain ih
    unfold orderAt
    split
    · exact Number.order_plain _ _
    · split
      · exact .ok _
      · split
        · exact hall _ _
        · exact hall _ _
        · split
          · exact hall _ _
          · exact .host _

theorem order_plain (h : Heap) (v w : Value) : Plain (h.order v w) :=
  h.orderAt_plain _ v w

theorem less_plain (h : Heap) (v w : Value) : Plain (h.less v w) :=
  .bind (h.order_plain v w) fun _ => .ok _

end Heap

/-! ## Arithmetic -/

namespace Arithmetic

theorem narrow_plain (t : IntType) (checked : Bool) (n : Int) : Plain (narrow t checked n) :=
  .ite (.ok _) (.ite (.error rfl) (.ok _))

theorem integer_plain (v : Value) : Plain (integer v) := by
  cases v with
  | float k x => cases x <;> first | exact .ok _ | exact .host _
  | decimal d => cases d <;> first | exact .ok _ | exact .host _
  | str s =>
    simp only [integer]
    split
    · exact .ok _
    · exact .host _
  | char c =>
    simp only [integer]
    split
    · exact .ok _
    · exact .host _
  | bool b => exact .ok _
  | flag b => exact .ok _
  | int n => exact .ok _
  | fixed t n => exact .ok _
  | _ => exact .host _

theorem doubleOfInt_plain (n : Int) : Plain (doubleOfInt n) := by
  unfold doubleOfInt
  split
  · exact .host _
  · exact .ok _

theorem float_plain (k : FloatKind) (v : Value) : Plain (float k v) := by
  cases v with
  | int n => exact .bind (doubleOfInt_plain n) fun _ => .ok _
  | decimal d =>
    simp only [float]
    split
    · exact .ok _
    · exact .host _
  | str s =>
    simp only [float]
    split
    · exact .ok _
    · exact .host _
  | char c =>
    simp only [float]
    split
    · exact .ok _
    · exact .host _
  | none => exact .ok _
  | bool b => exact .ok _
  | flag b => exact .ok _
  | fixed t n => exact .ok _
  | float j x => exact .ok _
  | _ => exact .host _

theorem onNumbers_plain {f : Number → Number → Number.Result} (hf : ∀ m n, Plain (f m n)) (v w : Value) :
    Plain (onNumbers f v w) := by
  unfold onNumbers
  split
  · exact .map _ (hf _ _)
  · exact .host _

theorem addValues_plain (v w : Value) : Plain (addValues v w) := by
  unfold addValues
  split
  · exact .ok _
  · split
    · exact .ok _
    · exact .ok _
    · exact onNumbers_plain (Number.combine_plain _ _ _) _ _

theorem multiplyValues_plain (v w : Value) : Plain (multiplyValues v w) := by
  unfold multiplyValues
  split
  · exact .ok _
  · exact .ok _
  · split
    · split
      · exact .ok _
      · exact .host _
    · split
      · exact .ok _
      · exact .host _
    · exact onNumbers_plain (Number.combine_plain _ _ _) _ _

theorem bitwiseValues_plain (k : BitwiseKind) (v w : Value) : Plain (bitwiseValues k v w) := by
  unfold bitwiseValues
  split
  · exact .ok _
  · exact onNumbers_plain (Number.onBits_plain fun _ _ => .ok _) _ _

theorem negateValue_plain (v : Value) : Plain (negateValue v) := by
  unfold negateValue
  cases v.number? with
  | none => exact .host _
  | some n => exact .map _ n.neg_plain

theorem complementValue_plain (v : Value) : Plain (complementValue v) := by
  unfold complementValue
  cases v.number? with
  | none => exact .host _
  | some n => exact .map _ n.complement_plain

theorem apply_plain (onInts : Int → Int → Int) (onFloats : Format → Binary → Binary → Binary)
    {onValues : Value → Value → Except Fault Value} (h : ∀ v w, Plain (onValues v w)) (t : Ty) (checked : Bool)
    (v w : Value) : Plain (apply onInts onFloats onValues t checked v w) := by
  unfold apply
  split
  · exact .bind (integer_plain v) fun _ => .bind (integer_plain w) fun _ => narrow_plain _ _ _
  · exact .bind (float_plain _ v) fun _ => .bind (float_plain _ w) fun _ => .ok _
  · exact h v w

theorem add_plain (t : Ty) (checked : Bool) (v w : Value) : Plain (add t checked v w) :=
  apply_plain _ _ addValues_plain t checked v w

theorem subtract_plain (t : Ty) (checked : Bool) (v w : Value) : Plain (subtract t checked v w) :=
  apply_plain _ _ (onNumbers_plain (Number.combine_plain _ _ _)) t checked v w

theorem multiply_plain (t : Ty) (checked : Bool) (v w : Value) : Plain (multiply t checked v w) :=
  apply_plain _ _ multiplyValues_plain t checked v w

theorem truncatedQuotient_plain (a b : Int) : Plain (truncatedQuotient a b) :=
  .ite (.error rfl) (.ok _)

/-- Both operands as integers, then what is made of them. -/
theorem integers_plain {α : Type} {f : Int → Int → Except Fault α} (hf : ∀ a b, Plain (f a b)) (v w : Value) :
    Plain (do f (← integer v) (← integer w)) :=
  .bind (integer_plain v) fun a => .bind (integer_plain w) fun b => hf a b

theorem divide_plain (t : Ty) (v w : Value) : Plain (divide t v w) := by
  unfold divide
  split
  · exact integers_plain (fun a b => .bind (truncatedQuotient_plain a b) fun _ => narrow_plain _ _ _) v w
  · refine .ite ?_ (apply_plain _ _ (onNumbers_plain Number.div_plain) t false v w)
    exact integers_plain (fun a b => .bind (truncatedQuotient_plain a b) fun _ => .ok _) v w

theorem modulo_plain (t : Ty) (v w : Value) : Plain (modulo t v w) := by
  refine .ite ?_ (apply_plain _ _ (onNumbers_plain Number.mod_plain) t false v w)
  refine integers_plain (fun a b => .bind (truncatedQuotient_plain a b) fun q => ?_) v w
  cases t.fixed? with
  | some i => exact narrow_plain _ _ _
  | none => exact .ok _

theorem power_plain (t : Ty) (v w : Value) : Plain (power t v w) := by
  unfold power
  split
  · refine .bind (integer_plain w) fun n => .ite (.error rfl) ?_
    exact .bind (integer_plain v) fun _ => narrow_plain _ _ _
  · exact apply_plain _ _ (onNumbers_plain Number.pow_plain) t false v w

theorem shift_plain (k : ShiftKind) (t : Ty) (v w : Value) : Plain (shift k t v w) := by
  unfold shift
  split
  · refine integers_plain (fun a n => ?_) v w
    cases k <;> exact narrow_plain _ _ _
  · cases k with
    | left => exact onNumbers_plain Number.shiftLeft_plain v w
    | right => exact onNumbers_plain Number.shiftRight_plain v w

theorem bitwise_plain (k : BitwiseKind) (t : Ty) (v w : Value) : Plain (bitwise k t v w) := by
  unfold bitwise
  split
  · refine integers_plain (fun a b => ?_) v w
    cases k <;> exact narrow_plain _ _ _
  · exact bitwiseValues_plain k v w

theorem negate_plain (t : Ty) (checked : Bool) (v : Value) : Plain (negate t checked v) := by
  unfold negate
  split
  · exact .bind (integer_plain v) fun _ => narrow_plain _ _ _
  · exact .bind (float_plain _ v) fun _ => .ok _
  · exact negateValue_plain v

theorem onesComplement_plain (t : Ty) (v : Value) : Plain (onesComplement t v) := by
  unfold onesComplement
  split
  · exact .bind (integer_plain v) fun _ => narrow_plain _ _ _
  · exact complementValue_plain v

theorem increment_plain (t : Ty) (v : Value) : Plain (increment t v) :=
  add_plain t false v _

theorem decrement_plain (t : Ty) (v : Value) : Plain (decrement t v) :=
  subtract_plain t false v _

theorem operate_plain (o : Operation) (t : Ty) (v w : Value) : Plain (operate o t v w) := by
  cases o with
  | arithmetic k =>
    cases k with
    | add => exact add_plain t _ v w
    | addChecked => exact add_plain t _ v w
    | subtract => exact subtract_plain t _ v w
    | subtractChecked => exact subtract_plain t _ v w
    | multiply => exact multiply_plain t _ v w
    | multiplyChecked => exact multiply_plain t _ v w
    | divide => exact divide_plain t v w
    | modulo => exact modulo_plain t v w
    | power => exact power_plain t v w
  | bitwise k => exact bitwise_plain k t v w
  | shift k => exact shift_plain k t v w

/-! ## Conversion -/

theorem toNumber_plain (v : Value) : Plain (toNumber v) := by
  cases v with
  | str s => exact .error rfl
  | _ => exact .ok _

theorem toInteger_plain (target : String) (checked : Bool) (v : Value) : Plain (toInteger target checked v) := by
  have hmissing (shown : String) :
      Plain (if checked then .error (.notFinite shown target) else .ok 0 : Except Fault Int) :=
    .ite (.error rfl) (.ok _)
  refine .bind (toNumber_plain v) fun w => ?_
  cases w with
  | int n => exact .ok _
  | float k x =>
    refine .ite (hmissing _) ?_
    cases k with
    | general => exact .ok _
    | double => exact .ok _
    | _ => exact .host _
  | decimal d =>
    dsimp only
    split
    · exact .host _
    · exact .ite (.ok _) (hmissing _)
  | _ => exact .host _

theorem character_plain (n : Int) : Plain (character n) :=
  .ite (.host _) (.ite (.host _) (.ok _))

theorem plainInteger_plain (v : Value) : Plain (plainInteger v) := by
  cases v with
  | bool b => exact .ok _
  | int n => exact .ok _
  | _ => exact .host _

theorem smallInteger_plain (limit : Nat) (v : Value) : Plain (smallInteger limit v) :=
  .bind (plainInteger_plain v) fun _ => .ite (.host _) (.ite (.host _) (.ok _))

theorem coefficient_plain (digits? : Option (List Value)) :
    Plain (match digits? with
      | some ds => do return Text.natOfDigits ((← ds.mapM (smallInteger 9)).map Nat.digitChar)
      | none => throw (.host .value) : Except Fault Nat) := by
  cases digits? with
  | some ds => exact .bind (.mapM _ (smallInteger_plain 9)) fun _ => .ok _
  | none => exact .host _

theorem decimalOfParts_plain (h : Heap) (sign digits exponent : Value) :
    Plain (decimalOfParts h sign digits exponent) := by
  refine .bind (smallInteger_plain 1 sign) fun s => ?_
  dsimp only
  split
  · exact .bind (coefficient_plain _) fun _ => .ok _
  · exact .bind (coefficient_plain _) fun _ => .ok _
  · exact .bind (coefficient_plain _) fun _ => .ok _
  · exact .host _
  · refine .bind (plainInteger_plain exponent) fun e => .ite (.host _) ?_
    exact .bind (coefficient_plain _) fun _ => .ite (.ok _) (.host _)

theorem toDecimal_plain (h : Heap) (v : Value) : Plain (toDecimal h v) := by
  unfold toDecimal
  split
  · split
    · exact .ok _
    · exact .host _
  · refine .bind (toNumber_plain _) fun w => ?_
    split
    · exact .ok _
    · exact .ok _
    · split
      · exact .bind (decimalOfParts_plain h _ _ _) fun _ => .ok _
      · exact .host _
      · exact .host _

theorem isInstance_plain (l : Library) (h : Heap) (v : Value) (c : ClassName) : Plain (isInstance l h v c) :=
  .ite (.host _) (.ok _)

theorem convertTo_plain (l : Library) (h : Heap) (target : Ty) (checked : Bool) (v : Value) :
    Plain (convertTo l h target checked v) := by
  unfold convertTo
  refine .ite (.ite (.ok _) (.error rfl)) ?_
  dsimp only
  split
  · exact .bind (toInteger_plain _ _ _) fun _ => narrow_plain _ _ _
  · exact .bind (toNumber_plain v) fun _ => .bind (float_plain _ _) fun _ => .ok _
  · refine .ite (.bind (toInteger_plain _ _ _) fun _ => .ok _) ?_
    refine .ite (.bind (toNumber_plain v) fun _ => .bind (float_plain _ _) fun _ => .ok _) ?_
    refine .ite (toDecimal_plain h v) (.ite (.ok _) ?_)
    refine .ite (.bind (toInteger_plain _ _ _) fun _ => character_plain _) (.ite ?_ ?_)
    · split
      · exact .ok _
      · exact .host _
    · split
      · exact .bind (isInstance_plain l h v _) fun _ => .ite (.ok _) (.error rfl)
      · exact .error rfl

theorem convert_plain (l : Library) (h : Heap) (target : Ty) (checked : Bool) (v : Value) :
    Plain (convert l h target checked v) := by
  unfold convert
  split
  · exact .ite (.ok _) (convertTo_plain l h _ checked v)
  · exact convertTo_plain l h target checked v

end Arithmetic

end ExprTree
