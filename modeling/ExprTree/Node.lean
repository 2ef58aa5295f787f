import ExprTree.Kind
import ExprTree.Member
import ExprTree.Value

/-!
# Expression nodes

A tree of typed nodes. A parameter is an identity: two nodes refer to the same
parameter when the numbers of their parameters agree, whatever their types and
names. The type of a lambda, a member access, a call or a conditional follows
from its parts; an operator node carries its own.
-/

namespace ExprTree

/-- A parameter of a lambda. -/
structure Parameter where
  /-- What makes it the same parameter. -/
  number : Nat
  type : Ty
  name : Option String
deriving Repr

inductive Node where
  | constant (value : Value) (type : Ty)
  | parameter (p : Parameter)
  | lambda (parameters : List Parameter) (body : Node)
  | binary (kind : Kind) (left right : Node) (type : Ty)
  /-- `left`, converted by a lambda of one parameter, or `right` if `left` is none. -/
  | converted (left right : Node) (parameter : Parameter) (body : Node)
  | unary (kind : Kind) (operand : Node) (type : Ty)
  | member (expression : Node) (member : DataMember)
  /-- A call of a method that needs no instance. -/
  | call (method : Method) (arguments : List Node)
  | callOn (target : Node) (method : Method) (arguments : List Node)
  | conditional (test ifTrue ifFalse : Node)
  /-- A node that is nothing but its kind and type. -/
  | bare (kind : Kind) (type : Ty)
deriving Repr

namespace Node

/-- The static type. -/
def type : Node → Ty
  | .constant _ t => t
  | .parameter p => p.type
  | .lambda ps body => Ty.function (ps.map (·.type)) body.type
  | .binary _ _ _ t => t
  | .converted _ right _ _ => right.type
  | .unary _ _ t => t
  | .member _ m => m.type
  | .call m _ | .callOn _ m _ => m.resultType
  | .conditional _ ifTrue _ => ifTrue.type
  | .bare _ t => t

def kind : Node → Kind
  | .constant .. => .constant
  | .parameter _ => .parameter
  | .lambda .. => .lambda
  | .binary k .. => k
  | .converted .. => .binary .coalesce
  | .unary k .. => k
  | .member .. => .memberAccess
  | .call .. | .callOn .. => .call
  | .conditional .. => .conditional
  | .bare k _ => k

end Node

end ExprTree
