import ExprTree.Ty

/-!
# Relations between types

Equivalence compares types part by part and is what resolution of members and
the typing of operators use. Assignability says where a value of one type may
stand for a value of another; it needs to know which class is below which.
-/

namespace ExprTree.Ty

mutual

/-- Are the types equal part by part? Both spellings of a union count as one form, and its
members are compared in order. -/
def equivalent : Ty → Ty → Bool
  | .parameter p _, .parameter q _ => p = q
  | .parameter .., _ => false
  | .generic o as, t =>
    !t.isParameter && t.origin?.any (same o) && equivalentAll as t.arguments
  | .bar as, t =>
    !t.isParameter && t.origin?.any isUnionForm && equivalentAll as t.arguments
  | s, t => !t.isParameter && t.origin?.isNone && same s t

def equivalentAll : List Ty → List Ty → Bool
  | [], [] => true
  | s :: ss, t :: ts => equivalent s t && equivalentAll ss ts
  | _, _ => false

end

/-- Is the class of the source's values below the class of the form? -/
def classBelow (below : ClassName → ClassName → Bool) (source form : Ty) : Bool :=
  match source.runtimeForm.className?, form.className? with
  | some c, some d => below c d
  | _, _ => false

mutual

/-- May a value of type `source` be used where `target` is expected? `below` is the relation
between classes. -/
def accepts (below : ClassName → ClassName → Bool) (target source : Ty) : Bool :=
  match target with
  | .generic o as =>
    equivalent (.generic o as) source ||
      if source.isNothing then (optionalInner? (.generic o as)).isSome
      else if o.isUnionForm then acceptsAny below as source
      else
        !source.isParameter && classBelow below source o &&
          (as.length ≠ source.arguments.length || acceptsAll below as source.arguments)
  | .bar ms =>
    equivalent (.bar ms) source ||
      if source.isNothing then (optionalInner? (.bar ms)).isSome else acceptsAny below ms source
  | .cls c =>
    c = .object || c = .anything || equivalent (.cls c) source ||
      (!source.isNothing && classBelow below source (.cls c))
  | t => equivalent t source

/-- Does a member of the list accept the source? -/
def acceptsAny (below : ClassName → ClassName → Bool) (targets : List Ty) (source : Ty) : Bool :=
  match targets with
  | [] => false
  | t :: ts => accepts below t source || acceptsAny below ts source

/-- Do the targets accept the sources one by one? -/
def acceptsAll (below : ClassName → ClassName → Bool) (targets sources : List Ty) : Bool :=
  match targets, sources with
  | t :: ts, s :: ss => accepts below t s && acceptsAll below ts ss
  | _, _ => true

end

end ExprTree.Ty
