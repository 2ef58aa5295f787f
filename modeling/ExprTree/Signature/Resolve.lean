import ExprTree.Member
import ExprTree.Signature.Lookup
import ExprTree.Signature.Parser

/-!
# From signatures to types and methods

Resolving a signature looks up its names and applies generic forms to their
arguments. A method signature has to single out one of the methods that its
declaring class itself declares: same name, same arity, equivalent parameter
types.
-/

namespace ExprTree.Signature

/-- Why a member signature names no member. -/
inductive Mismatch where
  | none
  | several (count : Nat)
  /-- The declaring type is no class. -/
  | cannotDeclare (t : Ty)
  | notClass
  | undeclared (fault : MemberFault)
  /-- The document expects another declaring type. -/
  | declaredBy (actual expected : Ty)
  | generics (fault : GenericFault)
  | argumentCount (expected given : Nat)
  | parameterType (index : Nat)
deriving Repr

namespace Mismatch

def candidates : Mismatch → Nat
  | .several n => n
  | _ => 0

def message : Mismatch → String
  | .none => "no matching member"
  | .several n => toString n ++ " members match"
  | .cannotDeclare t => t.describe ++ " cannot declare methods"
  | .notClass => "declaring type is not a class"
  | .undeclared fault => fault.message
  | .declaredBy actual expected => "declared by " ++ actual.describe ++ ", not " ++ expected.describe
  | .generics fault => fault.message
  | .argumentCount expected given =>
    "expected " ++ toString expected ++ " argument(s), encoded " ++ toString given
  | .parameterType i => "parameter " ++ toString i ++ " resolved to a different type"

end Mismatch

/-- Why a text names no type or method. -/
inductive Fault where
  | invalid (text : String) (fault : SyntaxFault)
  | typeNotFound (name : String) (hint : Option String)
  | memberNotFound (signature : String) (reason : Mismatch)
deriving Repr

/-- The wording of a fault; a number with too many digits has none. -/
def Fault.message? : Fault → Option String
  | .invalid text fault => fault.message? text
  | .typeNotFound name hint =>
    let hinted := match hint.filter (!·.isEmpty) with
      | some h => " (module hint " ++ Text.quoted h ++ ")"
      | none => ""
    some ("Type '" ++ name ++ "'" ++ hinted ++ " could not be found")
  | .memberNotFound signature reason =>
    some ("Cannot resolve member '" ++ signature ++ "': " ++ reason.message)

/-- Resolution may load modules, also when it fails. -/
abbrev Resolving := ExceptT Fault (StateM Names)

variable (l : Library) (loads : Bool)

/-- What a name leads to; only a class or the union form counts. -/
def resolveName (name : String) (hint : Option String) : Resolving Ty := do
  let (found, names) := l.resolveName name hint loads (← get)
  set names
  match found.filter Ty.isForm with
  | some t => return t
  | none => throw (.typeNotFound name hint)

mutual

def TypeSig.resolve : TypeSig → Resolving Ty
  | .parameter position => return .parameter position ""
  | .named name arguments hint => do
    let origin ← resolveName l loads name hint
    return origin.close (← resolveAll arguments)

def TypeSig.resolveAll : List TypeSig → Resolving (List Ty)
  | [] => return []
  | t :: ts => do
    let first ← t.resolve
    return first :: (← resolveAll ts)

end

/-- Does the method have this arity and parameters equivalent to these types? -/
def isCandidate (arity : Nat) (types : List Ty) (m : Method) : Bool :=
  m.arity = arity && Ty.equivalentAll m.parameterTypes types

def MemberSig.resolve (s : MemberSig) : Resolving Method := do
  let declaring := (← s.declaring.resolve l loads).runtimeForm
  let types ← TypeSig.resolveAll l loads s.parameters
  match declaring.className? with
  | none => throw (.memberNotFound s.render (.cannotDeclare declaring))
  | some c =>
    match (l.methodsNamed c s.name).filter (isCandidate s.arity types) with
    | [m] => return m
    | [] => throw (.memberNotFound s.render .none)
    | ms => throw (.memberNotFound s.render (.several ms.length))

/-- Reads and resolves the signature of a type. -/
def decodeType (text : String) : Resolving Ty :=
  match TypeSig.parse text with
  | .ok s => s.resolve l loads
  | .error fault => throw (.invalid text fault)

/-- Reads and resolves the signature of a method. -/
def decodeMember (text : String) : Resolving Method :=
  match MemberSig.parse text with
  | .ok s => s.resolve l loads
  | .error fault => throw (.invalid text fault)

end ExprTree.Signature
