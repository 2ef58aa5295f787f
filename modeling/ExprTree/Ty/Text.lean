import ExprTree.Ty
import ExprTree.Text.Quoted

/-!
# Text of types

A type is written in two ways. Its display name is short and is what
signatures of methods and messages about operands show. Its description
spells out modules and is what messages about the type itself show.
-/

namespace ExprTree

/-- The text of a plain value. -/
def Literal.describe : Literal → String
  | .none => "None"
  | .bool b => if b then "True" else "False"
  | .int n => toString n
  | .str s => Text.quoted s

/-- A class by its path alone when it is built in, else by module and path. -/
def ClassName.short (c : ClassName) : String :=
  if c.module = "builtins" then c.path else c.dotted

/-- How a class is described when it stands alone. -/
def ClassName.describe (c : ClassName) : String :=
  if c = .anything then "typing.Any" else "<class '" ++ c.short ++ "'>"

namespace Ty

/-- The parts of an application, separated by commas. -/
def commas (parts : List String) : String :=
  ", ".intercalate parts

mutual

/-- The text of a type as a part of a larger one. -/
def describePart : Ty → String
  | .cls c => c.short
  | .union => "typing.Union"
  | .parameter p n => "OpenGenericParameter(position=" ++ toString p ++ ", name=" ++ Text.quoted n ++ ")"
  | .variable n => "~" ++ n
  | .literal l => l.describe
  | .generic o as =>
    let parts := describeParts as
    if o.isClass (.abstract "Callable") then
      o.describePart ++ "[[" ++ commas parts.dropLast ++ "], " ++ parts.getLast?.getD "" ++ "]"
    else if o.isUnionForm && parts.length = 2 && as.any isNothing then
      let others := (as.zip parts).filter (!isNothing ·.1)
      "typing.Optional[" ++ commas (others.map (·.2)) ++ "]"
    else o.describePart ++ "[" ++ commas parts ++ "]"
  | .bar ms => " | ".intercalate (describeMembers ms)

def describeParts : List Ty → List String
  | [] => []
  | t :: ts => t.describePart :: describeParts ts

/-- Between bars the null type is written like its value. -/
def describeMembers : List Ty → List String
  | [] => []
  | t :: ts => (if t.isNothing then "None" else t.describePart) :: describeMembers ts

end

/-- The text of a type in a message about it. -/
def describe : Ty → String
  | .cls c => c.describe
  | t => t.describePart

/-- The name shown for a generic form in front of its arguments. -/
def formName : Ty → String
  | .cls c => c.path
  | .union => "Union"
  | .generic o _ => o.formName
  | t => t.describe

mutual

/-- The short name of a type. -/
def display : Ty → String
  | .cls c => if c = .nothing then "None" else c.path
  | .parameter p n => if n.isEmpty then "!!" ++ toString p else n
  | .generic o as => o.formName ++ "[" ++ commas (displayAll as) ++ "]"
  | .bar ms => "Union[" ++ commas (displayAll ms) ++ "]"
  | t => t.describe

def displayAll : List Ty → List String
  | [] => []
  | t :: ts => t.display :: displayAll ts

end

/-- The dotted name under which a class or generic form can be looked up. -/
def qualifiedName? : Ty → Option String
  | .cls c => some c.dotted
  | .union => some "typing.Union"
  | .generic o _ => o.qualifiedName?
  | _ => none

/-- The module of a class or generic form. -/
def module : Ty → String
  | .cls c => c.module
  | .generic o _ => o.module
  | _ => "typing"

/-- The top-level package of a module. -/
def packageOf (module : String) : String :=
  String.ofList (module.toList.takeWhile (· ≠ '.'))

end Ty

end ExprTree
