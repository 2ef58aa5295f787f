import ExprTree.Node

/-!
# The heap

Cells that expressions and methods share and change: lists, dictionaries in
order of insertion, objects with their attributes, the scopes of lambda
invocations, and functions. A function remembers the scopes it was created
in, the innermost first.
-/

namespace ExprTree

inductive Cell where
  | list (items : List Value)
  | dict (entries : List (Value × Value))
  | object (cls : ClassName) (attributes : List (String × Value))
  /-- What the parameters of one invocation hold, by their numbers. -/
  | scope (bindings : List (Nat × Value))
  | function (parameters : List Parameter) (body : Node) (frame : List Nat)
deriving Repr

/-- Cells are never removed, so an address stays good. -/
structure Heap where
  cells : Array Cell
deriving Repr

namespace Heap

def empty : Heap := ⟨#[]⟩

def get? (h : Heap) (a : Nat) : Option Cell :=
  h.cells[a]?

def add (h : Heap) (c : Cell) : Nat × Heap :=
  (h.cells.size, ⟨h.cells.push c⟩)

/-- Replaces a cell; there is no effect where there is none. -/
def set (h : Heap) (a : Nat) (c : Cell) : Heap :=
  ⟨h.cells.setIfInBounds a c⟩

def list? (h : Heap) : Value → Option (List Value)
  | .ref a =>
    match h.get? a with
    | some (.list items) => some items
    | _ => none
  | _ => none

/-- The items of a list or a tuple. -/
def sequence? (h : Heap) : Value → Option (List Value)
  | .tuple items => some items
  | v => h.list? v

def dict? (h : Heap) : Value → Option (List (Value × Value))
  | .ref a =>
    match h.get? a with
    | some (.dict entries) => some entries
    | _ => none
  | _ => none

/-- The class of a cell. -/
def classOf (c : Cell) : ClassName :=
  match c with
  | .list _ => .builtin "list"
  | .dict _ => .builtin "dict"
  | .object c _ => c
  | .scope _ => .object
  | .function .. => .builtin "function"

/-- The class of a value. -/
def className (h : Heap) (v : Value) : ClassName :=
  match v.scalarClass? with
  | some c => c
  | none =>
    match v with
    | .ref a => ((h.get? a).map classOf).getD .object
    | _ => .object

end Heap

end ExprTree
