import ExprTree.Proofs.Eval.Heaps

/-!
# What does not look into functions and scopes

Equality, order, truth, class and text of values, and conversion, are the same
in a heap whose functions and scopes are blanked out.
-/

namespace ExprTree

namespace Heap

variable (h : Heap)

@[simp] theorem list?_blind (v : Value) : h.blind.list? v = h.list? v := by
  cases v with
  | ref a =>
    simp only [list?, get?_blind]
    rcases h.get? a with _ | c
    · rfl
    · cases c <;> rfl
  | _ => rfl

@[simp] theorem sequence?_blind (v : Value) : h.blind.sequence? v = h.sequence? v := by
  simp only [sequence?, list?_blind]

@[simp] theorem dict?_blind (v : Value) : h.blind.dict? v = h.dict? v := by
  cases v with
  | ref a =>
    simp only [dict?, get?_blind]
    rcases h.get? a with _ | c
    · rfl
    · cases c <;> rfl
  | _ => rfl

@[simp] theorem className_blind (v : Value) : h.blind.className v = h.className v := by
  unfold className
  split
  · rfl
  · split
    · next a _ =>
      rw [get?_blind]
      rcases h.get? a with _ | c
      · rfl
      · cases c <;> rfl
    · rfl

@[simp] theorem isTrue_blind (v : Value) : h.blind.isTrue v = h.isTrue v := by
  have haddress (a : Nat) : h.blind.isTrue (.ref a) = h.isTrue (.ref a) := by
    simp only [isTrue, get?_blind]
    rcases h.get? a with _ | c
    · rfl
    · cases c <;> rfl
  cases v with
  | ref a => exact haddress a
  | keys a => exact haddress a
  | _ => rfl

/-! ## Equality and order -/

theorem equalCells_blind (depth : Nat) : h.blind.equalCells depth = h.equalCells depth := by
  induction depth with
  | zero => rfl
  | succ depth ih =>
    funext a b
    simp only [equalCells, get?_blind, ih]
    rcases h.get? a with _ | c
    · rfl
    · rcases h.get? b with _ | d
      · cases c <;> rfl
      · cases c <;> cases d <;> rfl

@[simp] theorem equal_blind (v w : Value) : h.blind.equal v w = h.equal v w := by
  simp only [equal, depth, size_blind, equalCells_blind]

theorem orderAll_blind (order : Value → Value → Except Fault (Option Ordering)) (vs ws : List Value) :
    h.blind.orderAll order vs ws = h.orderAll order vs ws := by
  induction vs generalizing ws with
  | nil => cases ws <;> rfl
  | cons v vs ih =>
    cases ws with
    | nil => rfl
    | cons w ws => simp only [orderAll, equal_blind, ih]

theorem orderAt_blind (depth : Nat) : h.blind.orderAt depth = h.orderAt depth := by
  induction depth with
  | zero => rfl
  | succ depth ih =>
    funext v w
    simp only [orderAt, list?_blind, ih, orderAll_blind]

@[simp] theorem order_blind (v w : Value) : h.blind.order v w = h.order v w := by
  simp only [order, depth, size_blind, orderAt_blind]

@[simp] theorem less_blind (v w : Value) : h.blind.less v w = h.less v w := by
  simp only [less, order_blind]

/-! ## Keys -/

mutual

theorem isKey_blind : ∀ v : Value, h.blind.isKey v = h.isKey v
  | .ref a => by
    simp only [isKey, get?_blind]
    rcases h.get? a with _ | c
    · rfl
    · cases c <;> rfl
  | .tuple vs => areKeys_blind vs
  | .decimal d => by cases d <;> rfl
  | .keys _ | .none | .bool _ | .int _ | .fixed .. | .float .. | .str _ | .char _ | .flag _ | .bytes _ => rfl

theorem areKeys_blind : ∀ vs : List Value, h.blind.areKeys vs = h.areKeys vs
  | [] => rfl
  | v :: vs => by simp only [areKeys, isKey_blind v, areKeys_blind vs]

end

/-! ## Text -/

theorem describeCell_blind (depth : Nat) : h.blind.describeCell depth = h.describeCell depth := by
  induction depth with
  | zero => rfl
  | succ depth ih =>
    funext a
    simp only [describeCell, get?_blind, ih]
    rcases h.get? a with _ | c
    · rfl
    · cases c <;> rfl

@[simp] theorem describe_blind (v : Value) : h.blind.describe v = h.describe v := by
  simp only [describe, size_blind, describeCell_blind]

@[simp] theorem textOf_blind (v : Value) : h.blind.textOf v = h.textOf v := by
  unfold textOf
  split <;> first | rfl | exact describe_blind h v

end Heap

/-! ## Conversion -/

namespace Arithmetic

variable (h : Heap)

theorem isInstance_blind (l : Library) (v : Value) (c : ClassName) : isInstance l h.blind v c = isInstance l h v c := by
  simp only [isInstance, Heap.className_blind]

theorem toDecimal_blind (v : Value) : toDecimal h.blind v = toDecimal h v := by
  simp only [toDecimal, decimalOfParts, Heap.sequence?_blind]

theorem convertTo_blind (l : Library) (t : Ty) (checked : Bool) (v : Value) :
    convertTo l h.blind t checked v = convertTo l h t checked v := by
  simp only [convertTo, toDecimal_blind, isInstance_blind, Heap.isTrue_blind, Heap.textOf_blind, Heap.className_blind]

theorem convert_blind (l : Library) (t : Ty) (checked : Bool) (v : Value) :
    convert l h.blind t checked v = convert l h t checked v := by
  simp only [convert, convertTo_blind]

end Arithmetic

/-! ## Heaps that look the same -/

namespace Heap.LooksLike

variable {h h' : Heap} (hh : h.LooksLike h')

include hh

theorem list? : h.list? = h'.list? := funext fun v => hh.read (·.list? v) fun k => k.list?_blind v

theorem dict? : h.dict? = h'.dict? := funext fun v => hh.read (·.dict? v) fun k => k.dict?_blind v

theorem isTrue : h.isTrue = h'.isTrue := funext fun v => hh.read (·.isTrue v) fun k => k.isTrue_blind v

theorem isKey : h.isKey = h'.isKey := funext fun v => hh.read (·.isKey v) fun k => k.isKey_blind v

theorem equal : h.equal = h'.equal := by
  funext v w
  exact hh.read (·.equal v w) fun k => k.equal_blind v w

theorem order : h.order = h'.order := by
  funext v w
  exact hh.read (·.order v w) fun k => k.order_blind v w

theorem less : h.less = h'.less := by
  funext v w
  exact hh.read (·.less v w) fun k => k.less_blind v w

theorem describe : h.describe = h'.describe := funext fun v => hh.read (·.describe v) fun k => k.describe_blind v

theorem convert (l : Library) (t : Ty) (checked : Bool) (v : Value) :
    Arithmetic.convert l h t checked v = Arithmetic.convert l h' t checked v :=
  hh.read (fun k => Arithmetic.convert l k t checked v) fun k => Arithmetic.convert_blind k l t checked v

end Heap.LooksLike

theorem Heap.Alike.list? {h h' : Heap} (hh : h.Alike h') : h.list? = h'.list? :=
  hh.looks.list?

end ExprTree
