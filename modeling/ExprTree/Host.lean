import ExprTree.Fault
import ExprTree.Heap

/-!
# Hosts

A library of classes together with what its members do. Members may change the
heap and call functions they are given; calling is a parameter of their
behaviour, because functions are expressions.
-/

namespace ExprTree

/-- A computation on a heap. What it changed stays changed when it fails. -/
abbrev Run := ExceptT Fault (StateM Heap)

namespace Run

def host {α : Type} (k : FaultKind) : Run α :=
  throw (.host k)

/-- A result that does not touch the heap. -/
def ofResult {α : Type} (r : Except Fault α) : Run α :=
  match r with
  | .ok a => return a
  | .error f => throw f

/-- Puts a new cell on the heap. -/
def alloc (c : Cell) : Run Value := do
  let (a, h) := (← get).add c
  set h
  return .ref a

def newList (items : List Value) : Run Value :=
  alloc (.list items)

def newDict (entries : List (Value × Value)) : Run Value :=
  alloc (.dict entries)

end Run

/-- How a function value is called. -/
abbrev Apply := Value → List Value → Run Value

structure Host where
  library : Library
  /-- Runs a method; the instance, if it needs one, is the first of the values. -/
  invoke : Apply → MethodDecl → List Value → Run Value
  /-- Reads what an instance holds under a name. -/
  readField : Value → String → Run Value
  writeField : Value → String → Value → Run Unit
  /-- Runs the getter that a class declares for a property. -/
  readProperty : ClassName → String → Value → Run Value
  writeProperty : ClassName → String → Value → Value → Run Unit

namespace Host

/-- Reads a data member of an instance. -/
def read (host : Host) (m : DataMember) (target : Value) : Run Value :=
  match m.kind with
  | .field => host.readField target m.name
  | .property readable _ =>
    if readable then host.readProperty m.declaring m.name target else throw (.unreadable m.name)

/-- Writes a data member of an instance. -/
def write (host : Host) (m : DataMember) (target v : Value) : Run Unit :=
  match m.kind with
  | .field => host.writeField target m.name v
  | .property _ writable =>
    if writable then host.writeProperty m.declaring m.name target v else throw (.readOnly m.name)

/-- Calls a closed method. A method that needs no instance ignores the one it is given. -/
def call (host : Host) (apply : Apply) (m : Method) (target : Value) (arguments : List Value) : Run Value :=
  if m.isDefinition then throw (.openMethod m.display)
  else if m.isStatic then host.invoke apply m.declaration arguments
  else host.invoke apply m.declaration (target :: arguments)

end Host

end ExprTree
