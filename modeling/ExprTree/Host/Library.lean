import ExprTree.Ty.Relation

/-!
# Libraries of classes

What expression trees can talk about: classes with the methods, properties
and fields their bodies declare, and the modules that export them. A library
is data; which of its modules are loaded is kept apart, because resolving a
name may load more of them.
-/

namespace ExprTree

/-- The type written next to a parameter, a result or a field. -/
inductive DeclaredType where
  | missing
  /-- Its type variables, if it has any, are not numbered yet. -/
  | resolved (t : Ty) (unnumbered : t.isOpen = false)
  /-- It mentions a name that means nothing. -/
  | unresolved (name : String)
deriving Repr

namespace DeclaredType

/-- What is not annotated has the type of all objects. -/
def type : DeclaredType → Ty
  | .resolved t _ => t
  | _ => .object

theorem isOpen_type (d : DeclaredType) : d.type.isOpen = false := by
  cases d with
  | resolved t h => exact h
  | _ => rfl

def undefinedName? : DeclaredType → Option String
  | .unresolved n => some n
  | _ => none

end DeclaredType

/-- One way to call a function: its named parameters and its result. -/
structure Prototype where
  parameters : List (String × DeclaredType)
  result : DeclaredType
  /-- The type variables in its own list of type parameters, when it has such a list. -/
  declared : Option (List String)
deriving Repr

/-- How a method is reached. -/
inductive Binding where
  | onInstance | onClass | free
deriving DecidableEq, Repr

/-- What a class body says under one name. -/
inductive Attribute where
  /-- A method; several prototypes are overloads of it. -/
  | method (binding : Binding) (overloads : List Prototype)
  /-- An instance method without annotations. -/
  | native (parameters : List String)
  | property (result : DeclaredType) (readable writable : Bool)
  /-- A value shared by all instances. -/
  | shared
deriving Repr

/-- A field declared by annotation. -/
structure FieldDecl where
  name : String
  declared : DeclaredType
  /-- Declared as a variable of the class itself. -/
  ofClass : Bool
deriving Repr

structure ClassInfo where
  name : ClassName
  /-- The classes above it, nearest first. -/
  ancestors : List ClassName
  /-- The type variables of a generic class. -/
  typeParameters : List String
  attributes : List (String × Attribute)
  fields : List FieldDecl
  slots : List String
  /-- The classes its body defines. -/
  inner : List (String × ClassName)
deriving Repr

/-- What a module holds under a name, as far as type names can reach it. -/
inductive Export where
  | type (t : Ty)
  | module (name : String)
deriving Repr

structure ModuleInfo where
  name : String
  exports : List (String × Export)
deriving Repr

structure Library where
  classes : List ClassInfo
  /-- The modules that can be loaded. -/
  modules : List ModuleInfo
  /-- The modules that are loaded from the start, in the order they are searched. -/
  preloaded : List String
  /-- The packages whose names are trusted to lead anywhere. -/
  standard : List String

namespace Library

def class? (l : Library) (c : ClassName) : Option ClassInfo :=
  l.classes.find? (·.name = c)

def module? (l : Library) (name : String) : Option ModuleInfo :=
  l.modules.find? (·.name = name)

/-- A class and the classes above it, nearest first. -/
def lineage (l : Library) (c : ClassName) : List ClassInfo :=
  match l.class? c with
  | some i => i :: i.ancestors.filterMap l.class?
  | none => []

/-- Is one class below another, or the same? -/
def isSubclass (l : Library) (c d : ClassName) : Bool :=
  c = d || d = .object || (l.class? c).any (·.ancestors.contains d)

/-- May a value of type `source` be used where `target` is expected? -/
def accepts (l : Library) (target source : Ty) : Bool :=
  Ty.accepts l.isSubclass target source

end Library

end ExprTree
