import ExprTree.Eval.Check
import ExprTree.Eval.Run

/-!
# Evaluation by position

A reference for what parameters mean. Before an expression runs, each occurrence
of a parameter is replaced by its position among all parameters that are bound
there, those of the innermost lambda first. Every invocation allocates a record
of fresh cells, one for each parameter, and a function remembers the records of
the invocations it was created in. A position denotes a cell of one of these
records; that cell is read, and assigned, and nothing is ever looked up.
-/

namespace ExprTree

namespace Parameter

/-- The occurrence of a parameter at a position. -/
def placed (p : Parameter) (position : Nat) : Parameter :=
  { p with number := position }

/-- A parameter that a lambda lists has no identity left. -/
def nameless (p : Parameter) : Parameter :=
  p.placed 0

end Parameter

namespace Node

mutual

/-- Replaces occurrences of parameters by positions; the scope has the parameters that are bound, innermost first. -/
def resolve (scope : Scope) : Node → Node
  | .constant v t => .constant v t
  | .parameter p => .parameter (p.placed (scope.idxOf p.number))
  | .lambda ps body => .lambda (ps.map Parameter.nameless) (resolve (ps.map (·.number) ++ scope) body)
  | .binary k left right t => .binary k (resolve scope left) (resolve scope right) t
  | .converted left right p body =>
    .converted (resolve scope left) (resolve scope right) p.nameless (resolve (p.number :: scope) body)
  | .unary k operand t => .unary k (resolve scope operand) t
  | .member e m => .member (resolve scope e) m
  | .call m args => .call m (resolveAll scope args)
  | .callOn target m args => .callOn (resolve scope target) m (resolveAll scope args)
  | .conditional test ifTrue ifFalse => .conditional (resolve scope test) (resolve scope ifTrue) (resolve scope ifFalse)
  | .bare k t => .bare k t

def resolveAll (scope : Scope) : List Node → List Node
  | [] => []
  | n :: ns => resolve scope n :: resolveAll scope ns

end

end Node

namespace Lexical

open Node (unaryValue)
open Run (host alloc isTrue equal ordered operate)

/-! ## Cells -/

/-- The cell at a position of a frame: the record it belongs to, and which of its cells it is. -/
def cell? (h : Heap) : Frame → Nat → Option (Nat × Nat)
  | [], _ => none
  | a :: frame, i =>
    let size := (Frame.bindings h a).length
    if i < size then some (a, i) else cell? h frame (i - size)

/-- What a cell holds. -/
def content? (h : Heap) (cell : Nat × Nat) : Option Value :=
  (Frame.bindings h cell.1)[cell.2]?.map (·.2)

def update (h : Heap) (cell : Nat × Nat) (v : Value) : Heap :=
  h.set cell.1 (.scope ((Frame.bindings h cell.1).set cell.2 (0, v)))

def read (frame : Frame) (p : Parameter) : Run Value := do
  let h ← get
  match (cell? h frame p.number).bind (content? h) with
  | some v => return v
  | none => throw (.unbound p.text)

def write (frame : Frame) (p : Parameter) (v : Value) : Run Unit := do
  let h ← get
  match cell? h frame p.number with
  | some cell => set (update h cell v)
  | none => throw (.unbound p.text)

/-- Puts a record of fresh cells in front of a frame. -/
def opened (frame : Frame) (vs : List Value) : Run Frame := do
  let (a, h) := (← get).add (.scope (vs.map fun v => (0, v)))
  set h
  return a :: frame

/-! ## Expressions -/

variable (host : Host) (apply : Apply)

mutual

/-- Runs an expression whose parameters are resolved. -/
def eval (frame : Frame) : Node → Run Value
  | .constant v _ => return v
  | .parameter p => read frame p
  | .lambda ps body => alloc (.function ps body frame)
  | .binary (.binary k) left right t => do
    match k with
    | .assign =>
      let v ← eval frame right
      assign frame left v
      return v
    | .compound o =>
      let old ← eval frame left
      let v ← operate o t old (← eval frame right)
      assign frame left v
      return v
    | .andAlso =>
      if ← isTrue (← eval frame left) then return .bool (← isTrue (← eval frame right))
      else return .bool false
    | .orElse =>
      if ← isTrue (← eval frame left) then return .bool true
      else return .bool (← isTrue (← eval frame right))
    | .coalesce =>
      let v ← eval frame left
      if v.isNone then eval frame right else return v
    | .operation o =>
      let v ← eval frame left
      operate o left.type v (← eval frame right)
    | .equal =>
      let v ← eval frame left
      return .bool (← equal v (← eval frame right))
    | .notEqual =>
      let v ← eval frame left
      return .bool (!(← equal v (← eval frame right)))
    | .ordering k =>
      let v ← eval frame left
      return .bool (← ordered k v (← eval frame right))
  | .binary .. => Run.host .type
  | .converted left right _ body => do
    let v ← eval frame left
    if v.isNone then eval frame right
    else eval (← opened frame [v]) body
  | .unary (.unary k) operand t => do
    let old ← eval frame operand
    let v ← unaryValue host.library k operand.type t old
    match k with
    | .step s =>
      assign frame operand v
      return if s.yieldsOld then old else v
    | _ => return v
  | .unary .. => Run.host .type
  | .member e m => do host.read m (← eval frame e)
  | .call m args => do host.call apply m .none (← evalAll frame args)
  | .callOn target m args => do
    let v ← eval frame target
    host.call apply m v (← evalAll frame args)
  | .conditional test ifTrue ifFalse => do
    if ← isTrue (← eval frame test) then eval frame ifTrue else eval frame ifFalse
  | .bare .. => Run.host .type

def evalAll (frame : Frame) : List Node → Run (List Value)
  | [] => return []
  | n :: ns => do
    let v ← eval frame n
    return v :: (← evalAll frame ns)

def assign (frame : Frame) : Node → Value → Run Unit
  | .parameter p, v => write frame p v
  | .member e m, v => do host.write m (← eval frame e) v
  | _, _ => Run.host .type

end

/-! ## Functions -/

/-- Calls a function value, with a bound on further nested calls. -/
def applyAt (host : Host) : Nat → Apply
  | 0, _, _ => Run.host .depth
  | depth + 1, f, vs => do
    match f with
    | .ref a =>
      match (← get).get? a with
      | some (.function ps body frame) =>
        if vs.length ≠ ps.length then throw (.argumentCount ps.length vs.length)
        eval host (applyAt host depth) (← opened frame vs) body
      | _ => Run.host .type
    | _ => Run.host .type

end Lexical

/-! ## Sequences of calls -/

/-- The results of calls, one after the other, whether or not those before succeeded, and the heap they leave. -/
def Apply.results (apply : Apply) (h : Heap) : List (Value × List Value) → List (Except Fault Value) × Heap
  | [] => ([], h)
  | (f, vs) :: calls =>
    let first := (apply f vs).run h
    let rest := results apply first.2 calls
    (first.1 :: rest.1, rest.2)

/-- The result of a computation and of calls of functions after it, and the heap they leave. -/
def Apply.resultsAfter (apply : Apply) (x : Run Value) (calls : List (Value × List Value)) (h : Heap) :
    List (Except Fault Value) × Heap :=
  let first := x.run h
  let rest := apply.results first.2 calls
  (first.1 :: rest.1, rest.2)

/-- Makes an expression a value and calls functions after it. -/
def Host.results (host : Host) (n : Node) : List (Value × List Value) → Heap → List (Except Fault Value) × Heap :=
  host.apply.resultsAfter (host.eval n)

/-- The same by positions. -/
def Lexical.results (host : Host) (n : Node) : List (Value × List Value) → Heap → List (Except Fault Value) × Heap :=
  let apply := applyAt host Host.callDepth
  apply.resultsAfter (eval host apply [] (n.resolve []))

end ExprTree
