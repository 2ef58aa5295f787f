import ExprTree.Node.Text

/-!
# Scope checking

Before an expression runs, every parameter it refers to or assigns has to be
bound by a lambda around it, every assignment needs a target that can hold a
value, and every kind of node needs a meaning. Checking visits the parts in a
fixed order, so that the first fault is determined.
-/

namespace ExprTree

/-- Why an expression cannot run. -/
inductive CompileFault where
  | notLambda (k : Kind)
  | outOfScope (p : Parameter)
  | unsupported (k : Kind)
  | unwritable (target : Node)
deriving Repr

/-- The wording of a fault; values in it are shown as the heap has them. -/
def CompileFault.message? (h : Heap) : CompileFault → Option String
  | .notLambda k => some ("Expected a lambda, got " ++ k.tag)
  | .outOfScope p => some ("Parameter '" ++ p.text ++ "' is referenced outside the scope of its lambda")
  | .unsupported k => some ("Node kind '" ++ k.tag ++ "' cannot be compiled")
  | .unwritable n => (n.text h).map fun s => "Expression " ++ s ++ " cannot be assigned to"

namespace Node

/-- The parameters that are bound, by their numbers. -/
abbrev Scope := List Nat

def checkParameter (scope : Scope) (p : Parameter) : Except CompileFault Unit :=
  if scope.contains p.number then .ok () else .error (.outOfScope p)

mutual

/-- Checks an expression whose surroundings bind some parameters. -/
def check (scope : Scope) : Node → Except CompileFault Unit
  | .constant .. => .ok ()
  | .parameter p => checkParameter scope p
  | .lambda ps body => check (ps.map (·.number) ++ scope) body
  | .binary k left right _ => do
    check scope right
    match k with
    | .binary .assign => checkTarget scope left
    | .binary (.compound _) => do
      check scope left
      checkTarget scope left
    | .binary _ => check scope left
    | k => do
      check scope left
      throw (.unsupported k)
  | .converted left right p body => do
    check scope right
    check scope left
    check (p.number :: scope) body
  | .unary k operand _ => do
    check scope operand
    match k with
    | .unary (.step _) => checkTarget scope operand
    | .unary _ => return ()
    | k => throw (.unsupported k)
  | .member e _ => check scope e
  | .call _ args => checkAll scope args
  | .callOn target _ args => do
    check scope target
    checkAll scope args
  | .conditional test ifTrue ifFalse => do
    check scope test
    check scope ifTrue
    check scope ifFalse
  | .bare k _ => .error (.unsupported k)

def checkAll (scope : Scope) : List Node → Except CompileFault Unit
  | [] => .ok ()
  | n :: ns => do
    check scope n
    checkAll scope ns

/-- Checks the target of an assignment. -/
def checkTarget (scope : Scope) : Node → Except CompileFault Unit
  | .parameter p => checkParameter scope p
  | .member e _ => check scope e
  | n => .error (.unwritable n)

end

end Node

end ExprTree
