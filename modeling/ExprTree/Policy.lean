import ExprTree.Member

/-!
# Call policies

Which methods a decoded expression may call. A method is allowed when calls
are allowed at large, when it or its definition is listed, or when its class
is listed for methods of its sort. A policy also says whether decoding may
load modules.
-/

namespace ExprTree

structure Policy where
  allowsAllCalls : Bool
  loadsModules : Bool
  /-- Types whose methods without an instance may be called. -/
  staticTypes : List Ty
  /-- Types whose methods on instances may be called. -/
  instanceTypes : List Ty
  methods : List Method
deriving Repr

namespace Policy

/-- Rejects every call and loads nothing. -/
def strict : Policy := ⟨false, false, [], [], []⟩

def listsMethod (p : Policy) (m : Method) : Bool :=
  p.methods.any m.same

def listsType (p : Policy) (m : Method) : Bool :=
  (if m.isStatic then p.staticTypes else p.instanceTypes).any (Ty.cls m.declaring).same

/-- May the method be called? -/
def allows (p : Policy) (m : Method) : Bool :=
  p.allowsAllCalls || p.listsMethod m || (m.isGeneric && p.listsMethod m.definition) || p.listsType m

/-- Adds a method unless it is listed. -/
def addMethod (p : Policy) (m : Method) : Policy :=
  if p.listsMethod m then p else { p with methods := p.methods ++ [m] }

def addStaticType (p : Policy) (t : Ty) : Policy :=
  { p with staticTypes := Ty.dedup (p.staticTypes ++ [t]) }

def addInstanceType (p : Policy) (t : Ty) : Policy :=
  { p with instanceTypes := Ty.dedup (p.instanceTypes ++ [t]) }

/-- Adds all that another policy lists. -/
def extend (p q : Policy) : Policy :=
  let p := q.staticTypes.foldl addStaticType p
  let p := q.instanceTypes.foldl addInstanceType p
  q.methods.foldl addMethod p

end Policy

end ExprTree
