import ExprTree.Arithmetic
import ExprTree.Eval.Check
import ExprTree.Host

/-!
# Evaluation

Runs an expression in a frame: a chain of scopes, the innermost first. Calling
a function opens a scope with fresh bindings in front of the frame the
function was created in, so a function sees and assigns the parameters of the
invocations around it, and every invocation has its own. Operands are
evaluated from left to right; an assigned value comes before the instance it
is assigned to.
-/

namespace ExprTree

/-- The addresses of scopes, innermost first. -/
abbrev Frame := List Nat

namespace Frame

/-- The bindings of a scope. -/
def bindings (h : Heap) (a : Nat) : List (Nat × Value) :=
  match h.get? a with
  | some (.scope bs) => bs
  | _ => []

/-- The innermost scope that binds a parameter. -/
def scopeOf? (h : Heap) (frame : Frame) (number : Nat) : Option Nat :=
  frame.find? fun a => (bindings h a).any (·.1 = number)

def lookup? (h : Heap) (frame : Frame) (number : Nat) : Option Value :=
  (scopeOf? h frame number).bind fun a => (bindings h a).lookup number

/-- Rebinds a parameter in a scope that binds it. -/
def rebind (h : Heap) (a number : Nat) (v : Value) : Heap :=
  h.set a (.scope ((bindings h a).map fun b => if b.1 = number then (number, v) else b))

end Frame

namespace Run

def readParameter (frame : Frame) (p : Parameter) : Run Value := do
  match frame.lookup? (← get) p.number with
  | some v => return v
  | none => throw (.unbound p.text)

def writeParameter (frame : Frame) (p : Parameter) (v : Value) : Run Unit := do
  let h ← get
  match frame.scopeOf? h p.number with
  | some a => set (Frame.rebind h a p.number v)
  | none => throw (.unbound p.text)

/-- Opens a scope that binds parameters in front of a frame. -/
def opened (frame : Frame) (ps : List Parameter) (vs : List Value) : Run Frame := do
  let (a, h) := (← get).add (.scope ((ps.zip vs).map fun (p, v) => (p.number, v)))
  set h
  return a :: frame

/-- An operation of a type on two values. Lists are joined and repeated into new lists. -/
def operate (o : Operation) (t : Ty) (v w : Value) : Run Value := do
  let h ← get
  let onLists := t.fixed?.isNone && t.floatKind?.isNone
  match o, h.list? v, h.list? w with
  | .arithmetic .add, some vs, some ws | .arithmetic .addChecked, some vs, some ws =>
    if onLists then newList (vs ++ ws) else host .type
  | .arithmetic .multiply, some vs, none | .arithmetic .multiplyChecked, some vs, none =>
    match if onLists then Arithmetic.count? w else none with
    | some n => newList (Arithmetic.copies n vs)
    | none => host .type
  | .arithmetic .multiply, none, some ws | .arithmetic .multiplyChecked, none, some ws =>
    match if onLists then Arithmetic.count? v else none with
    | some n => newList (Arithmetic.copies n ws)
    | none => host .type
  | _, _, _ => ofResult (Arithmetic.operate o t v w)

def isTrue (v : Value) : Run Bool := do
  return (← get).isTrue v

def equal (v w : Value) : Run Bool := do
  ofResult ((← get).equal v w)

/-- Does an order between two values hold? Values without an order are in none. -/
def ordered (k : OrderingKind) (v w : Value) : Run Bool := do
  let o ← ofResult ((← get).order v w)
  return match k with
    | .lessThan => o = some .lt
    | .lessThanOrEqual => o = some .lt || o = some .eq
    | .greaterThan => o = some .gt
    | .greaterThanOrEqual => o = some .gt || o = some .eq

end Run

namespace Node

open Run

/-- What a unary operator makes of its operand; `t` is the static type of the operand. -/
def unaryValue (l : Library) (k : UnaryKind) (t target : Ty) (v : Value) : Run Value := do
  match k with
  | .convert checked => ofResult (Arithmetic.convert l (← get) target checked v)
  | .negate checked => ofResult (Arithmetic.negate t checked v)
  | .unaryPlus => return v
  | .not =>
    if t.isBool then return .bool (!(← isTrue v)) else ofResult (Arithmetic.onesComplement t v)
  | .onesComplement => ofResult (Arithmetic.onesComplement t v)
  | .isTrue =>
    match v with
    | .bool b => return .bool b
    | _ => return .bool false
  | .isFalse =>
    match v with
    | .bool b => return .bool !b
    | _ => return .bool false
  | .increment => ofResult (Arithmetic.increment t v)
  | .decrement => ofResult (Arithmetic.decrement t v)
  | .step k => ofResult (if k.increments then Arithmetic.increment t v else Arithmetic.decrement t v)

variable (host : Host) (apply : Apply)

mutual

/-- Runs an expression in a frame. -/
def eval (frame : Frame) : Node → Run Value
  | .constant v _ => return v
  | .parameter p => readParameter frame p
  | .lambda ps body => alloc (.function ps body frame)
  | .binary (.binary k) left right t => do
    match k with
    | .assign =>
      let v ← eval frame right
      assign frame left v
      return v
    | .compound o =>
      let old ← eval frame left
      let v ← operate o t old (← eval frame right)
      assign frame left v
      return v
    | .andAlso =>
      if ← isTrue (← eval frame left) then return .bool (← isTrue (← eval frame right))
      else return .bool false
    | .orElse =>
      if ← isTrue (← eval frame left) then return .bool true
      else return .bool (← isTrue (← eval frame right))
    | .coalesce =>
      let v ← eval frame left
      if v.isNone then eval frame right else return v
    | .operation o =>
      let v ← eval frame left
      operate o left.type v (← eval frame right)
    | .equal =>
      let v ← eval frame left
      return .bool (← equal v (← eval frame right))
    | .notEqual =>
      let v ← eval frame left
      return .bool (!(← equal v (← eval frame right)))
    | .ordering k =>
      let v ← eval frame left
      return .bool (← ordered k v (← eval frame right))
  | .binary .. => Run.host .type
  | .converted left right p body => do
    let v ← eval frame left
    if v.isNone then eval frame right
    else eval (← opened frame [p] [v]) body
  | .unary (.unary k) operand t => do
    let old ← eval frame operand
    let v ← unaryValue host.library k operand.type t old
    match k with
    | .step s =>
      assign frame operand v
      return if s.yieldsOld then old else v
    | _ => return v
  | .unary .. => Run.host .type
  | .member e m => do host.read m (← eval frame e)
  | .call m args => do host.call apply m .none (← evalAll frame args)
  | .callOn target m args => do
    let v ← eval frame target
    host.call apply m v (← evalAll frame args)
  | .conditional test ifTrue ifFalse => do
    if ← isTrue (← eval frame test) then eval frame ifTrue else eval frame ifFalse
  | .bare .. => Run.host .type

def evalAll (frame : Frame) : List Node → Run (List Value)
  | [] => return []
  | n :: ns => do
    let v ← eval frame n
    return v :: (← evalAll frame ns)

/-- Gives a value to the target of an assignment. -/
def assign (frame : Frame) : Node → Value → Run Unit
  | .parameter p, v => writeParameter frame p v
  | .member e m, v => do host.write m (← eval frame e) v
  | _, _ => Run.host .type

end

end Node

namespace Host

/-- How deeply calls of functions may be nested. -/
def callDepth : Nat := 1000

/-- Calls a function value, with a bound on further nested calls. -/
def applyAt (host : Host) : Nat → Apply
  | 0, _, _ => Run.host .depth
  | depth + 1, f, vs => do
    match f with
    | .ref a =>
      match (← get).get? a with
      | some (.function ps body frame) =>
        if vs.length ≠ ps.length then throw (.argumentCount ps.length vs.length)
        (Node.eval host (host.applyAt depth) (← Run.opened frame ps vs) body)
      | _ => Run.host .type
    | _ => Run.host .type

/-- Calls a function value. -/
def apply (host : Host) : Apply :=
  host.applyAt callDepth

/-- Runs an expression that has been checked, outside of all lambdas. -/
def eval (host : Host) (n : Node) : Run Value :=
  Node.eval host host.apply [] n

/-- Calls a method from outside of any expression. -/
def invokeMethod (host : Host) (m : Method) (target : Value) (arguments : List Value) : Run Value :=
  host.call host.apply m target arguments

end Host

/-- Checks a lambda before it is made a function. -/
def Node.checkLambda : Node → Except CompileFault Unit
  | .lambda ps body => Node.check [] (.lambda ps body)
  | n => .error (.notLambda n.kind)

end ExprTree
