import ExprTree.Heap
import ExprTree.Value.Number

/-!
# Comparing values

Equality of values, their order, and their sameness as keys. Numbers compare
by value, texts by their characters, tuples and lists element by element,
dictionaries by their entries; objects and functions are equal only to
themselves. Equality and order can fail, because some decimals refuse them.
-/

namespace ExprTree

namespace Value

/-- Compares the elements of two lists while they are equal. -/
def equalAll (equal : Value → Value → Except Fault Bool) : List Value → List Value → Except Fault Bool
  | [], [] => .ok true
  | v :: vs, w :: ws => do if ← equal v w then equalAll equal vs ws else return false
  | _, _ => .ok false

mutual

/-- Equality of values, given that of the cells they refer to. -/
def equalWith (cells : Nat → Nat → Except Fault Bool) : Value → Value → Except Fault Bool
  | .ref a, .ref b => if a = b then .ok true else cells a b
  | .tuple vs, .tuple ws => tuplesEqual cells vs ws
  | .bytes bs, .bytes cs => .ok (bs = cs)
  | .none, .none => .ok true
  | v, w =>
    match v.number?, w.number? with
    | some m, some n => m.equal n
    | _, _ =>
      match v.text?, w.text? with
      | some s, some t => .ok (s = t)
      | _, _ => .ok false

def tuplesEqual (cells : Nat → Nat → Except Fault Bool) : List Value → List Value → Except Fault Bool
  | [], [] => .ok true
  | v :: vs, w :: ws => do if ← equalWith cells v w then tuplesEqual cells vs ws else return false
  | _, _ => .ok false

end

/-! ## Keys -/

mutual

/-- Are two values the same key? Numbers are when they have the same exact value. -/
def sameKey : Value → Value → Bool
  | .ref a, .ref b => a = b
  | .tuple vs, .tuple ws => sameKeys vs ws
  | .bytes bs, .bytes cs => bs = cs
  | .none, .none => true
  | v, w =>
    match v.number?, w.number? with
    | some m, some n => m.sameValue n
    | _, _ =>
      match v.text?, w.text? with
      | some s, some t => s = t
      | _, _ => false

def sameKeys : List Value → List Value → Bool
  | [], [] => true
  | v :: vs, w :: ws => sameKey v w && sameKeys vs ws
  | _, _ => false

end

end Value

namespace Heap

mutual

/-- Can the value be a key? What changes cannot, nor can a signaling decimal. -/
def isKey (h : Heap) : Value → Bool
  | .ref a =>
    match h.get? a with
    | some (.list _) | some (.dict _) => false
    | _ => true
  | .keys _ => false
  | .tuple vs => areKeys h vs
  | .decimal (.nan _ signaling _) => !signaling
  | _ => true

def areKeys (h : Heap) : List Value → Bool
  | [] => true
  | v :: vs => isKey h v && areKeys h vs

end

/-- The value found under a key. -/
def lookup? (entries : List (Value × Value)) (key : Value) : Option Value :=
  (entries.find? fun e => e.1.sameKey key).map (·.2)

/-- Equality of cells; `depth` bounds how far references are followed. -/
def equalCells (h : Heap) : Nat → Nat → Nat → Except Fault Bool
  | 0, _, _ => .error (.host .depth)
  | depth + 1, a, b =>
    let equal := Value.equalWith (h.equalCells depth)
    match h.get? a, h.get? b with
    | some (.list vs), some (.list ws) =>
      if vs.length = ws.length then Value.equalAll equal vs ws else .ok false
    | some (.dict es), some (.dict fs) =>
      if es.length = fs.length then
        es.foldlM (fun same (k, v) =>
          if same then
            match lookup? fs k with
            | some w => equal v w
            | none => .ok false
          else .ok false) true
      else .ok false
    | _, _ => .ok false

/-- The references that can follow one another without repetition. -/
def depth (h : Heap) : Nat :=
  h.cells.size + 1

def equal (h : Heap) (v w : Value) : Except Fault Bool :=
  Value.equalWith (h.equalCells h.depth) v w

/-- Order of two sequences: that of their first unequal elements, else that of their lengths. -/
def orderAll (h : Heap) (order : Value → Value → Except Fault (Option Ordering)) :
    List Value → List Value → Except Fault (Option Ordering)
  | [], [] => .ok (some .eq)
  | [], _ :: _ => .ok (some .lt)
  | _ :: _, [] => .ok (some .gt)
  | v :: vs, w :: ws => do if ← h.equal v w then orderAll h order vs ws else order v w

/-- The order of two values, when they have one; unrelated values cannot be asked. -/
def orderAt (h : Heap) : Nat → Value → Value → Except Fault (Option Ordering)
  | 0, _, _ => .error (.host .depth)
  | depth + 1, v, w =>
    match v.number?, w.number? with
    | some m, some n => m.order n
    | _, _ =>
      match v.text?, w.text? with
      | some s, some t => .ok (some (compareOfLessAndEq s t))
      | _, _ =>
        match v, w with
        | .tuple vs, .tuple ws => h.orderAll (h.orderAt depth) vs ws
        | .bytes bs, .bytes cs =>
          h.orderAll (h.orderAt depth) (bs.map (.int ·.toNat)) (cs.map (.int ·.toNat))
        | v, w =>
          match h.list? v, h.list? w with
          | some vs, some ws => h.orderAll (h.orderAt depth) vs ws
          | _, _ => .error (.host .type)

def order (h : Heap) (v w : Value) : Except Fault (Option Ordering) :=
  h.orderAt (h.depth + 100) v w

def less (h : Heap) (v w : Value) : Except Fault Bool := do
  return (← h.order v w) = some .lt

/-- Does the value count as true? -/
def isTrue (h : Heap) (v : Value) : Bool :=
  match v with
  | .none => false
  | .bool b | .flag b => b
  | .int n | .fixed _ n => n ≠ 0
  | .float _ x => !x.isZero
  | .decimal d =>
    match d with
    | .finite _ c _ => c ≠ 0
    | _ => true
  | .str s => !s.isEmpty
  | .bytes bs => !bs.isEmpty
  | .tuple vs => !vs.isEmpty
  | .char _ => true
  | .ref a | .keys a =>
    match h.get? a with
    | some (.list vs) => !vs.isEmpty
    | some (.dict es) => !es.isEmpty
    | _ => true

end Heap

end ExprTree
