import ExprTree.Member
import ExprTree.Signature.Basic

/-!
# From types and methods to signatures

Every class or generic form is written under its own dotted name with its
top-level package as the hint, so that the text finds the same type again.
What has no such name cannot be written.
-/

namespace ExprTree.Signature

/-- Why a type has no signature. -/
inductive NamingFault where
  /-- A type variable outside a generic method. -/
  | variable (name : String)
  | notType (t : Ty)
  /-- A class that its module does not export under its own name. -/
  | anonymous (path : String)
  | notNameable (t : Ty)
deriving Repr

def NamingFault.message : NamingFault → String
  | .variable n => "Type variable ~" ++ n ++ " must be closed or bound to a generic method before encoding"
  | .notType t => t.describe ++ " is not a type and cannot be encoded"
  | .anonymous path => "Type '" ++ path ++ "' has no importable name and cannot be encoded"
  | .notNameable t => t.describe ++ " is not a nameable type"

/-- The dotted name of a class or generic form. -/
def nameOf (t : Ty) : Except NamingFault String :=
  if t.isAnonymous then .error (.anonymous t.formName)
  else
    match t.qualifiedName? with
    | some n => .ok n
    | none => .error (.notNameable t)

/-- The text of a class or generic form, with what stands between its name and its hint. -/
def formText (form : Ty) (arguments : String) : Except NamingFault String := do
  return "\x7b" ++ (← nameOf form) ++ arguments ++ "," ++ Ty.packageOf form.module ++ "\x7d"

/-- The texts of the arguments of a generic form, between its brackets. -/
def inBrackets (arguments : List String) : String :=
  "<" ++ ",".intercalate arguments ++ ">"

mutual

/-- Writes a type. An application without arguments keeps its brackets, which no signature has. -/
def encodeType : Ty → Except NamingFault String
  | .parameter p _ => .ok ("\x7b!!" ++ toString p ++ "\x7d")
  | .literal .none => formText .nothing ""
  | .variable n => .error (.variable n)
  | .literal l => .error (.notType (.literal l))
  | .generic o as => do formText o (inBrackets (← encodeTypes as))
  | .bar ms => do formText .union (inBrackets (← encodeTypes ms))
  | t => formText t ""

def encodeTypes : List Ty → Except NamingFault (List String)
  | [] => .ok []
  | t :: ts => do
    let first ← encodeType t
    return first :: (← encodeTypes ts)

end

/-- Writes a method: its definition when it is closed. -/
def encodeMember (m : Method) : Except NamingFault String := do
  let parameters ← encodeTypes m.definition.parameterTypes
  let declaring ← encodeType (.cls m.declaring)
  let arity := if m.arity = 0 then "" else "<" ++ toString m.arity ++ ">"
  return m.name ++ arity ++ "@" ++ declaring ++ "(" ++ ",".intercalate parameters ++ ")"

end ExprTree.Signature
