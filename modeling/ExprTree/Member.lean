import ExprTree.Host.Library
import ExprTree.Ty.Text

/-!
# Members

Methods and data members as they are found in the classes of a library. A
method whose annotations mention type variables is generic: it is found as a
definition whose parameters are open, and `Method.close` applies it to types.
A closed method remembers its definition and its arguments; its own types
follow from them.
-/

namespace ExprTree

/-- A method as its class declares it. -/
structure MethodDecl where
  declaring : ClassName
  name : String
  parameters : List (String × Ty)
  result : Ty
  /-- Called without an instance. -/
  isStatic : Bool
  /-- The names of its own type parameters, in the order of their positions. -/
  typeParameters : List String
deriving Repr

/-- A declared method, closed over arguments when there are any. -/
structure Method where
  declaration : MethodDecl
  arguments : List Ty
deriving Repr

namespace Method

def declaring (m : Method) : ClassName := m.declaration.declaring
def name (m : Method) : String := m.declaration.name
def isStatic (m : Method) : Bool := m.declaration.isStatic
def parameterNames (m : Method) : List String := m.declaration.parameters.map (·.1)

/-- The number of type parameters of the definition. -/
def arity (m : Method) : Nat := m.declaration.typeParameters.length

def isGeneric (m : Method) : Bool := m.arity > 0

/-- Generic, and not closed over arguments. -/
def isDefinition (m : Method) : Bool := m.isGeneric && m.arguments.isEmpty

/-- A type of the declaration, with the arguments in place. -/
def instantiate (m : Method) (t : Ty) : Ty :=
  if m.arguments.isEmpty then t else t.substitute m.arguments

def parameterTypes (m : Method) : List Ty :=
  m.declaration.parameters.map fun p => m.instantiate p.2

def resultType (m : Method) : Ty :=
  m.instantiate m.declaration.result

/-- The method without its arguments. -/
def definition (m : Method) : Method :=
  { m with arguments := [] }

/-- Methods are the same when their declarations agree in all but result and names. -/
def same (m n : Method) : Bool :=
  m.declaring = n.declaring && m.name = n.name && Ty.sameAll m.parameterTypes n.parameterTypes &&
    m.isStatic = n.isStatic && m.arity = n.arity && Ty.sameAll m.arguments n.arguments

/-- The text of a method: result, name, type parameters or arguments, and parameter types. -/
def display (m : Method) : String :=
  let generics :=
    if !m.arguments.isEmpty then "[" ++ Ty.commas (m.arguments.map Ty.display) ++ "]"
    else if m.isGeneric then "[" ++ Ty.commas m.declaration.typeParameters ++ "]"
    else ""
  m.resultType.display ++ " " ++ m.name ++ generics ++ "(" ++
    Ty.commas (m.parameterTypes.map Ty.display) ++ ")"

end Method

/-- Why a method is not closed over arguments. -/
inductive GenericFault where
  | notGeneric (name : String)
  | notDefinition (name : String)
  | wrongCount (name : String) (arity given : Nat)
  | openArgument (name : String)
deriving DecidableEq, Repr

def GenericFault.message : GenericFault → String
  | .notGeneric n => "Method '" ++ n ++ "' is not generic"
  | .notDefinition n => "Method '" ++ n ++ "' is not a generic method definition"
  | .wrongCount n arity given =>
    "Method '" ++ n ++ "' takes " ++ toString arity ++ " generic argument(s), got " ++ toString given
  | .openArgument n => "Generic arguments for '" ++ n ++ "' must be closed types"

namespace Method

/-- The definition of a generic method. -/
def definition? (m : Method) : Except GenericFault Method :=
  if m.isGeneric then .ok m.definition else .error (.notGeneric m.name)

/-- Closes a generic definition over closed types, one for each of its parameters. -/
def close (m : Method) (arguments : List Ty) : Except GenericFault Method :=
  if !m.isDefinition then .error (.notDefinition m.name)
  else if arguments.length ≠ m.arity then .error (.wrongCount m.name m.arity arguments.length)
  else if arguments.any Ty.isOpen then .error (.openArgument m.name)
  else .ok { m with arguments }

end Method

/-! ## Data members -/

inductive MemberKind where
  | field
  | property (readable writable : Bool)
deriving DecidableEq, Repr

/-- A field or property of a class. -/
structure DataMember where
  declaring : ClassName
  name : String
  type : Ty
  kind : MemberKind
deriving Repr

namespace DataMember

def isProperty (m : DataMember) : Bool :=
  match m.kind with
  | .property .. => true
  | .field => false

def isWritable (m : DataMember) : Bool :=
  match m.kind with
  | .property _ writable => writable
  | .field => true

end DataMember

/-- Why a member is not found. -/
inductive MemberFault where
  | noField (cls : ClassName) (name : String)
  | noProperty (cls : ClassName) (name : String)
  /-- Its type mentions a name that means nothing. -/
  | undefinedName (member name : String)
  | notOneMethod (cls : ClassName) (name : String) (found : Nat)
deriving DecidableEq, Repr

def MemberFault.message : MemberFault → String
  | .noField c n => "Type " ++ c.path ++ " has no field '" ++ n ++ "'"
  | .noProperty c n => "Type " ++ c.path ++ " has no property '" ++ n ++ "'"
  | .undefinedName m n =>
    "Annotations for member '" ++ m ++ "' cannot be resolved: name '" ++ n ++ "' is not defined"
  | .notOneMethod c n k =>
    "Expected exactly one method '" ++ n ++ "' on " ++ c.path ++ ", found " ++ toString k

/-! ## Reflection -/

namespace Prototype

/-- A prototype that mentions an undefined name describes nothing. -/
def isDefined (p : Prototype) : Bool :=
  ((p.result :: p.parameters.map (·.2)).all fun a => a.undefinedName?.isNone)

mutual

/-- The type variables of a type, in the order they are written. -/
def variableNames : Ty → List String
  | .variable n => [n]
  | .generic _ as => variableNamesOfAll as
  | .bar ms => variableNamesOfAll ms
  | _ => []

def variableNamesOfAll : List Ty → List String
  | [] => []
  | t :: ts => variableNames t ++ variableNamesOfAll ts

end

/-- The type parameters of a method: those it lists, or else its variables in the order they
first appear, without those of its class. -/
def typeParameters (p : Prototype) (ofClass : List String) : List String :=
  let all := ((p.parameters.map (·.2.type)) ++ [p.result.type]).flatMap variableNames
  let found := all.foldl (fun kept v => if kept.contains v then kept else kept ++ [v]) []
  p.declared.getD (found.filter (!ofClass.contains ·))

/-- Numbers the type variables by their place among the parameters; a variable of the class
stands for any object. -/
def number (parameters : List String) (t : Ty) : Ty :=
  t.map fun
    | .variable v =>
      match parameters.idxOf? v with
      | some i => some (.parameter i v)
      | none => some .object
    | .literal .none => some .nothing
    | _ => none

/-- The method that a prototype declares. -/
def reflect (p : Prototype) (info : ClassInfo) (name : String) (binding : Binding) : Method :=
  let parameters := p.typeParameters info.typeParameters
  { declaration :=
      { declaring := info.name
        name
        parameters := p.parameters.map fun (n, a) => (n, number parameters a.type)
        result := number parameters p.result.type
        isStatic := binding ≠ .onInstance
        typeParameters := parameters }
    arguments := [] }

end Prototype

/-- The methods an attribute declares: one for each prototype without undefined names. -/
def Attribute.methods (info : ClassInfo) (name : String) : Attribute → List Method
  | .method binding overloads =>
    (overloads.filter Prototype.isDefined).map fun p => p.reflect info name binding
  | .native parameters =>
    [Prototype.reflect ⟨parameters.map fun p => (p, .missing), .missing, none⟩ info name .onInstance]
  | _ => []

namespace Library

/-- The methods of a name that the body of a class declares; inherited ones are not among them. -/
def methodsNamed (l : Library) (c : ClassName) (name : String) : List Method :=
  match l.class? c with
  | some info => ((info.attributes.lookup name).map (·.methods info name)).getD []
  | none => []

/-- The methods a class declares whose names do not start with an underscore. -/
def publicMethods (l : Library) (c : ClassName) : List Method :=
  match l.class? c with
  | some info =>
    (info.attributes.filter fun a => !a.1.startsWith "_").flatMap fun (n, a) => a.methods info n
  | none => []

/-- The only method of a name, or the only one with the given parameter types. -/
def method (l : Library) (c : ClassName) (name : String) (types : List Ty) : Except MemberFault Method :=
  let candidates := l.methodsNamed c name
  let candidates :=
    if types.isEmpty then candidates else candidates.filter fun m => Ty.sameAll m.parameterTypes types
  match candidates with
  | [m] => .ok m
  | ms => .error (.notOneMethod c name ms.length)

/-- An undefined name in the fields of a class or of a class above it. -/
def undefinedName? (l : Library) (info : ClassInfo) : Option String :=
  (l.lineage info.name).findSome? fun i => i.fields.findSome? (·.declared.undefinedName?)

/-- The field of a name in a class or the nearest class above it. A variable of a class hides
the fields behind it. -/
def field (l : Library) (c : ClassName) (name : String) : Except MemberFault DataMember :=
  let rec search : List ClassInfo → Except MemberFault DataMember
    | [] => .error (.noField c name)
    | info :: rest =>
      match info.fields.find? (·.name = name) with
      | some f =>
        match l.undefinedName? info with
        | some n => .error (.undefinedName name n)
        | none =>
          if f.ofClass then .error (.noField c name)
          else .ok ⟨info.name, name, f.declared.type, .field⟩
      | none =>
        if info.slots.contains name then .ok ⟨info.name, name, .object, .field⟩ else search rest
  search (l.lineage c)

/-- The property of a name in a class or the nearest class above it that has one. -/
def property (l : Library) (c : ClassName) (name : String) : Except MemberFault DataMember :=
  let rec search : List ClassInfo → Except MemberFault DataMember
    | [] => .error (.noProperty c name)
    | info :: rest =>
      match info.attributes.lookup name with
      | some (.property result readable writable) =>
        match if readable then result.undefinedName? else none with
        | some n => .error (.undefinedName name n)
        | none =>
          .ok ⟨info.name, name, if readable then result.type else .object, .property readable writable⟩
      | _ => search rest
  search (l.lineage c)

/-- The property of a name, or else the field. -/
def dataMember (l : Library) (c : ClassName) (name : String) : Except MemberFault DataMember :=
  match l.property c name with
  | .ok m => .ok m
  | .error _ => l.field c name

end Library

end ExprTree
