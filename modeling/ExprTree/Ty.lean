import ExprTree.Number.Integer
import ExprTree.Number.Binary

/-!
# Types

What an expression node has as its static type: a class, the union form, a
generic type closed over arguments, an open parameter of a generic method, or
one of the things that may stand in a type's place without being one (a type
variable, a plain value). `Ty.close` applies a generic form to arguments;
`Ty.map` rebuilds a type around replaced parts.
-/

namespace ExprTree

/-- A class, by the module that defines it and its path inside that module. -/
structure ClassName where
  module : String
  path : String
deriving DecidableEq, Repr

/-- A plain value that stands where a type is expected. -/
inductive Literal where
  | none
  | bool (b : Bool)
  | int (n : Int)
  | str (s : String)
deriving DecidableEq, Repr

inductive Ty where
  /-- A class. -/
  | cls (c : ClassName)
  /-- The union form, not applied to members. -/
  | union
  /-- The generic parameter at a position of the enclosing method; the name is only shown. -/
  | parameter (position : Nat) (name : String)
  /-- A type variable that no method has numbered yet. -/
  | variable (name : String)
  | literal (l : Literal)
  /-- A generic form applied to arguments; a function type has its result last. -/
  | generic (origin : Ty) (arguments : List Ty)
  /-- A union written with bars between its members. -/
  | bar (members : List Ty)
deriving Repr

namespace ClassName

def builtin (path : String) : ClassName := ⟨"builtins", path⟩
def abstract (path : String) : ClassName := ⟨"collections.abc", path⟩

def object : ClassName := builtin "object"
def nothing : ClassName := builtin "NoneType"
def char : ClassName := ⟨"exprson.model.types", "Char"⟩
def decimal : ClassName := ⟨"decimal", "Decimal"⟩
def anything : ClassName := ⟨"typing", "Any"⟩

def ofIntType (t : IntType) : ClassName := ⟨"numpy", t.name⟩

/-- The last part of the path. -/
def simpleName (c : ClassName) : String :=
  String.ofList ((c.path.toList.reverse.takeWhile (· ≠ '.')).reverse)

/-- The module and the path as one dotted name. -/
def dotted (c : ClassName) : String :=
  c.module ++ "." ++ c.path

end ClassName

/-- The floating-point types: the general one and the three of fixed width. -/
inductive FloatKind where
  | general | half | single | double
deriving DecidableEq, Repr

namespace FloatKind

def format : FloatKind → Format
  | .general | .double => .double
  | .half => .half
  | .single => .single

def className : FloatKind → ClassName
  | .general => .builtin "float"
  | .half => ⟨"numpy", "float16"⟩
  | .single => ⟨"numpy", "float32"⟩
  | .double => ⟨"numpy", "float64"⟩

end FloatKind

namespace Ty

def object : Ty := .cls .object
def nothing : Ty := .cls .nothing
def anything : Ty := .cls .anything
def bool : Ty := .cls (.builtin "bool")
def int : Ty := .cls (.builtin "int")
def str : Ty := .cls (.builtin "str")
def float : Ty := .cls (.builtin "float")
def list : Ty := .cls (.builtin "list")
def dict : Ty := .cls (.builtin "dict")
def tuple : Ty := .cls (.builtin "tuple")
def char : Ty := .cls .char
def decimal : Ty := .cls .decimal
def iterable : Ty := .cls (.abstract "Iterable")
def callable : Ty := .cls (.abstract "Callable")
def fixed (t : IntType) : Ty := .cls (.ofIntType t)

/-! ## Parts of a type -/

/-- The generic form a type is an application of; both spellings of a union apply the same form. -/
def origin? : Ty → Option Ty
  | .generic o _ => some o
  | .bar _ => some .union
  | _ => none

def arguments : Ty → List Ty
  | .generic _ as => as
  | .bar ms => ms
  | _ => []

def isParameter : Ty → Bool
  | .parameter .. => true
  | _ => false

def isClass (c : ClassName) : Ty → Bool
  | .cls d => c = d
  | _ => false

/-- Is it the null value, which is not the null type? -/
def isNull : Ty → Bool
  | .literal .none => true
  | _ => false

/-- Can arguments be given to it? -/
def isForm : Ty → Bool
  | .cls _ | .union => true
  | _ => false

def isUnionForm : Ty → Bool
  | .union => true
  | _ => false

/-- The class of the values of a type, where a generic form stands for its applications. -/
def runtimeForm (t : Ty) : Ty :=
  t.origin?.getD t

def className? : Ty → Option ClassName
  | .cls c => some c
  | _ => none

/-- Is the class one that no module exports under its own name? -/
def isAnonymous (t : Ty) : Bool :=
  match t.runtimeForm with
  | .cls c => c.path.toList.contains '<'
  | _ => false

/-! ## Numeric types -/

def fixed? (t : Ty) : Option IntType :=
  IntType.all.find? fun i => t.isClass (.ofIntType i)

def floatKind? (t : Ty) : Option FloatKind :=
  [FloatKind.general, .half, .single, .double].find? fun k => t.isClass k.className

/-- The floating-point types of fixed width. -/
def fixedFloat? (t : Ty) : Option FloatKind :=
  [FloatKind.half, .single, .double].find? fun k => t.isClass k.className

def isInt (t : Ty) : Bool := t.isClass (.builtin "int")
def isBool (t : Ty) : Bool := t.isClass (.builtin "bool")
def isStr (t : Ty) : Bool := t.isClass (.builtin "str")
def isChar (t : Ty) : Bool := t.isClass .char
def isDecimal (t : Ty) : Bool := t.isClass .decimal
def isObject (t : Ty) : Bool := t.isClass .object
def isNothing (t : Ty) : Bool := t.isClass .nothing
def isAnything (t : Ty) : Bool := t.isClass .anything

def isFixed (t : Ty) : Bool := t.fixed?.isSome
def isInteger (t : Ty) : Bool := t.isInt || t.isFixed
def isFloat (t : Ty) : Bool := t.floatKind?.isSome
def isNumeric (t : Ty) : Bool := t.isInteger || t.isFloat || t.isDecimal

/-! ## Sameness -/

mutual

/-- Are two types the same one? Open parameters are compared by position, unions as sets in
either spelling, all else part by part. -/
def same : Ty → Ty → Bool
  | .cls c, .cls d => c = d
  | .union, .union => true
  | .parameter p _, .parameter q _ => p = q
  | .variable a, .variable b => a = b
  | .literal a, .literal b => a = b
  | .generic .union as, .generic .union bs => subsetOf as bs && bs.all (memberOf as)
  | .generic .union as, .bar bs => subsetOf as bs && bs.all (memberOf as)
  | .bar as, .generic .union bs => subsetOf as bs && bs.all (memberOf as)
  | .bar as, .bar bs => subsetOf as bs && bs.all (memberOf as)
  | .generic o as, .generic p bs => same o p && sameAll as bs
  | _, _ => false
termination_by structural t => t

/-- Is every type of the first list among the second? -/
def subsetOf : List Ty → List Ty → Bool
  | [], _ => true
  | a :: as, bs => bs.any (same a) && subsetOf as bs
termination_by structural ts => ts

/-- Is the type among the list? -/
def memberOf : List Ty → Ty → Bool
  | [], _ => false
  | a :: as, b => same a b || memberOf as b
termination_by structural ts => ts

def sameAll : List Ty → List Ty → Bool
  | [], [] => true
  | a :: as, b :: bs => same a b && sameAll as bs
  | _, _ => false
termination_by structural ts => ts

end

/-! ## Building types -/

/-- Keeps the first of types that are the same. -/
def dedup (ts : List Ty) : List Ty :=
  ts.foldl (fun kept t => if kept.any (same t) then kept else kept ++ [t]) []

/-- The members of a union, one level down, or the type itself. -/
def unionMembers : Ty → List Ty
  | .generic .union ms => if ms.any isUnionForm then [.generic .union ms] else ms
  | .bar ms => ms
  | .literal .none => [nothing]
  | t => [t]

/-- The union of some types: nested unions are opened, later duplicates dropped, and the union
of one type is that type. The bare union form is no member, so a list that holds it is kept. -/
def unionOf (ts : List Ty) : Ty :=
  if ts.any isUnionForm then .generic .union ts
  else
    match dedup (ts.flatMap unionMembers) with
    | [t] => t
    | ms => .generic .union ms

/-- Applies a generic form to arguments; without arguments it is the form itself. -/
def close (origin : Ty) (arguments : List Ty) : Ty :=
  match arguments, origin with
  | [], o => o
  | as, .union => unionOf as
  | as, o => .generic o as

/-- Two types with a bar between them. -/
def barOf (a b : Ty) : Ty :=
  match dedup (unionMembers a ++ unionMembers b) with
  | [t] => t
  | ms => .bar ms

/-- The type of functions from some parameters to a result. -/
def function (parameters : List Ty) (result : Ty) : Ty :=
  close callable (parameters ++ [result])

mutual

/-- Rebuilds a type from the leaves up, putting `f t` for each part `t` that `f` replaces. -/
def map (f : Ty → Option Ty) : Ty → Ty
  | .generic o as => (f (.generic o as)).getD (if as.isEmpty then .generic o as else close o (mapAll f as))
  | .bar ms => (f (.bar ms)).getD (if ms.isEmpty then .bar ms else close .union (mapAll f ms))
  | .cls c => (f (.cls c)).getD (.cls c)
  | .union => (f .union).getD .union
  | .parameter p n => (f (.parameter p n)).getD (.parameter p n)
  | .variable n => (f (.variable n)).getD (.variable n)
  | .literal l => (f (.literal l)).getD (.literal l)

def mapAll (f : Ty → Option Ty) : List Ty → List Ty
  | [] => []
  | a :: as => map f a :: mapAll f as

end

mutual

/-- The positions of the open parameters of a type, in the order they are written. -/
def positions : Ty → List Nat
  | .parameter p _ => [p]
  | .generic _ as | .bar as => positionsAll as
  | _ => []

def positionsAll : List Ty → List Nat
  | [] => []
  | a :: as => positions a ++ positionsAll as

end

/-- Does an open parameter occur in the type? -/
def isOpen (t : Ty) : Bool :=
  !t.positions.isEmpty

/-- Puts arguments for open parameters. A parameter beyond the last argument stays, and so does
one whose argument is the null value itself: that says there is nothing to put. -/
def substitute (arguments : List Ty) (t : Ty) : Ty :=
  t.map fun
    | .parameter p _ => arguments[p]?.filter (!isNull ·)
    | _ => none

/-- Puts arguments for open parameters, if there is one for each. -/
def substitute? (arguments : List Ty) (t : Ty) : Option Ty :=
  if t.positions.all (· < arguments.length) then some (t.substitute arguments) else none

/-! ## Optional types -/

/-- The one other member of a union that has the null type as a member. -/
def optionalInner? (t : Ty) : Option Ty :=
  match t.origin? with
  | some .union =>
    match t.arguments.filter (!isNothing ·) with
    | [m] => if t.arguments.length = 1 then none else some m
    | _ => none
  | _ => none

end Ty

end ExprTree
