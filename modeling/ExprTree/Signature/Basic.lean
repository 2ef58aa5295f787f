/-!
# Signatures

The text that names a type or a method: `{module.path<arguments>,hint}` for a
class or a generic form, `{!!n}` for the n-th parameter of a generic method,
and `name<arity>@{type}(parameters)` for a method. `render` writes a signature
without blanks.
-/

namespace ExprTree.Signature

inductive TypeSig where
  /-- A dotted name, its arguments, and the package it is expected in. -/
  | named (name : String) (arguments : List TypeSig) (hint : Option String)
  | parameter (position : Nat)
deriving Repr

structure MemberSig where
  name : String
  arity : Nat
  declaring : TypeSig
  parameters : List TypeSig
deriving Repr

namespace TypeSig

def isNamed : TypeSig → Bool
  | .named .. => true
  | .parameter _ => false

mutual

def render : TypeSig → String
  | .named name arguments hint =>
    "\x7b" ++ name ++
      (if arguments.isEmpty then "" else "<" ++ ",".intercalate (renderAll arguments) ++ ">") ++
      (match hint with
        | some h => "," ++ h
        | none => "") ++ "\x7d"
  | .parameter position => "\x7b!!" ++ toString position ++ "\x7d"

def renderAll : List TypeSig → List String
  | [] => []
  | t :: ts => t.render :: renderAll ts

end

end TypeSig

/-- A method without parameters of its own shows no arity. -/
def MemberSig.render (m : MemberSig) : String :=
  m.name ++ (if m.arity = 0 then "" else "<" ++ toString m.arity ++ ">") ++ "@" ++
    m.declaring.render ++ "(" ++ ",".intercalate (m.parameters.map TypeSig.render) ++ ")"

end ExprTree.Signature
