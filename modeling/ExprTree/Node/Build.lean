import ExprTree.Arithmetic
import ExprTree.Node.Text

/-!
# Building nodes

The typing rules. Each builder infers the type of a node from its parts and
refuses parts that do not fit; what it builds is well typed. Nodes built
without these rules are possible, and evaluation copes with them.
-/

namespace ExprTree

/-- Why parts make no node. -/
inductive BuildFault where
  /-- An operation of the host on something it is not made for. -/
  | host (kind : FaultKind)
  | notBinary (k : Kind)
  | notUnary (k : Kind)
  | needlessConversion (k : Kind)
  | unassignable (target source : Ty)
  | compoundResult (k : BinaryKind) (result : Ty)
  | needsBools (k : BinaryKind)
  | needsIntegers (k : BinaryKind)
  | undefinedFor (k : Kind) (t : Ty)
  | undefinedForBoth (k : Kind) (s t : Ty)
  | conversionParameters
  | conversionAccepts
  | conversionReturns
  | noTarget (k : UnaryKind)
  | otherResult (k : UnaryKind) (operand result expected : Ty)
  | needsBool (k : UnaryKind)
  | readOnly (member : String)
  | unwritable (target : Node)
  | notInstance (v : Value) (t : Ty)
  | repeatedParameters
  | notParameter (n : Node)
  | notMember (m : DataMember) (t : Ty)
  | openMethod (m : Method)
  | needlessInstance (method : String)
  | missingInstance (method : String)
  | wrongInstance (t : Ty) (m : Method)
  | argumentCount (method : String) (expected given : Nat)
  | argument (index : Nat) (method : String) (expected given : Ty)
  | testNotBool
  | branchesDiffer
  | member (fault : MemberFault)
deriving Repr

/-- What sort of fault it is. -/
inductive BuildFaultKind where
  | value | type | lookup
  | host (kind : FaultKind)
deriving DecidableEq, Repr

namespace BuildFault

def kind : BuildFault → BuildFaultKind
  | .host k => .host k
  | .notBinary _ | .notUnary _ | .needlessConversion _ | .noTarget _ | .repeatedParameters
  | .openMethod _ | .needlessInstance _ | .missingInstance _ | .argumentCount .. => .value
  | .member _ => .lookup
  | _ => .type

/-- The wording of a fault; values in it are shown as the heap has them. -/
def message? (h : Heap) : BuildFault → Option String
  | .host _ => none
  | .notBinary k => some (k.tag ++ " is not a binary node kind")
  | .notUnary k => some (k.tag ++ " is not a unary node kind")
  | .needlessConversion k => some ("Only Coalesce accepts a conversion, got " ++ k.tag)
  | .unassignable target source => some ("Cannot assign " ++ source.display ++ " to " ++ target.display)
  | .compoundResult k result => some (k.tag ++ " result " ++ result.display ++ " does not fit the target")
  | .needsBools k => some (k.tag ++ " requires bool operands")
  | .needsIntegers k => some (k.tag ++ " requires integer operands")
  | .undefinedFor k t => some (k.tag ++ " is not defined for " ++ t.display)
  | .undefinedForBoth k s t =>
    some (k.tag ++ " is not defined for " ++ s.display ++ " and " ++ t.display)
  | .conversionParameters => some "Coalesce conversion must take exactly one parameter"
  | .conversionAccepts => some "Coalesce conversion parameter does not accept the left operand"
  | .conversionReturns => some "Coalesce conversion must return the type of the right operand"
  | .noTarget k => some (k.tag ++ " requires a target type")
  | .otherResult k operand result expected =>
    some (k.tag ++ " of " ++ operand.display ++ " yields " ++ result.display ++ ", not " ++ expected.display)
  | .needsBool k => some (k.tag ++ " requires a bool operand")
  | .readOnly m => some ("Member '" ++ m ++ "' is read-only")
  | .unwritable n => (n.text h).map fun s => "Expression " ++ s ++ " cannot be assigned to"
  | .notInstance v t =>
    (h.describe v).map fun s => "Constant " ++ s ++ " is not an instance of " ++ t.display
  | .repeatedParameters => some "Lambda parameters must be distinct"
  | .notParameter n => (n.describe h).map fun s => "Lambda parameter must be a ParameterNode, got " ++ s
  | .notMember m t =>
    some ("Member '" ++ m.name ++ "' of " ++ m.declaring.path ++ " is not defined for " ++ t.display)
  | .openMethod m => some ("Cannot call open generic method definition '" ++ m.display ++ "'")
  | .needlessInstance m => some ("Static method '" ++ m ++ "' does not take an instance")
  | .missingInstance m => some ("Instance method '" ++ m ++ "' requires an instance")
  | .wrongInstance t m =>
    some ("Instance of " ++ t.display ++ " cannot call '" ++ m.name ++ "' of " ++ m.declaring.path)
  | .argumentCount m expected given =>
    some ("Method '" ++ m ++ "' takes " ++ toString expected ++ " argument(s), got " ++ toString given)
  | .argument i m expected given =>
    some ("Argument " ++ toString i ++ " of '" ++ m ++ "' expects " ++ expected.display ++ ", got " ++
      given.display)
  | .testNotBool => some "Conditional test must be of type bool"
  | .branchesDiffer => some "Conditional branches must have the same type"
  | .member fault => some fault.message

end BuildFault

abbrev Built (α : Type) := Except BuildFault α

namespace Node

/-! ## Binary operators -/

/-- The type of an operation that assigns nothing; `k` is the operator it is for. -/
def operationType (k : BinaryKind) (o : Operation) (left right : Ty) : Built Ty :=
  match o with
  | .shift _ =>
    if left.isInteger && right.isInteger then .ok left else .error (.needsIntegers k)
  | .bitwise _ =>
    if !left.equivalent right then .error (.undefinedForBoth (.binary k) left right)
    else if left.isInteger || left.isBool then .ok left
    else .error (.undefinedFor (.binary k) left)
  | .arithmetic a =>
    if !left.equivalent right then .error (.undefinedForBoth (.binary k) left right)
    else if (a = .add && left.isStr) || left.isNumeric then .ok left
    else .error (.undefinedFor (.binary k) left)

/-- Can the node be assigned to? -/
def requireWritable : Node → Built Unit
  | .parameter _ => .ok ()
  | .member _ m => if m.isWritable then .ok () else .error (.readOnly m.name)
  | n => .error (.unwritable n)

/-- The type of `left` or, if it is none, `right`. -/
def coalesceType (l : Library) (left right : Ty) : Built Ty :=
  match left.optionalInner? with
  | some inner =>
    if l.accepts inner right then .ok inner
    else if l.accepts left right then .ok left
    else .error (.undefinedForBoth (.binary .coalesce) left right)
  | none =>
    if l.accepts left right then .ok left
    else .error (.undefinedForBoth (.binary .coalesce) left right)

def binaryType (l : Library) (k : BinaryKind) (left right : Node) : Built Ty := do
  let s := left.type
  let t := right.type
  match k with
  | .coalesce => coalesceType l s t
  | .assign =>
    requireWritable left
    if l.accepts s t then return s else throw (.unassignable s t)
  | .compound o =>
    requireWritable left
    let result ← operationType (.operation o) o s t
    if result.equivalent s then return result else throw (.compoundResult k result)
  | .operation o => operationType k o s t
  | .equal | .notEqual => return .bool
  | .andAlso | .orElse => if s.isBool && t.isBool then return .bool else throw (.needsBools k)
  | .ordering _ =>
    if !s.equivalent t then throw (.undefinedForBoth (.binary k) s t)
    if s.isNumeric || s.isStr || s.isChar then return .bool else throw (.undefinedFor (.binary k) s)

/-- A binary node of a kind. -/
def mkBinary (l : Library) (k : Kind) (left right : Node) : Built Node := do
  match k with
  | .binary b => return .binary k left right (← binaryType l b left right)
  | _ => throw (.notBinary k)

/-- `left`, converted, or `right` if `left` is none. -/
def mkConverted (k : Kind) (left right conversion : Node) : Built Node := do
  match k with
  | .binary .coalesce =>
    match conversion with
    | .lambda [p] body =>
      if !(p.type.equivalent left.type || (left.type.optionalInner?).any p.type.equivalent) then
        throw .conversionAccepts
      if !body.type.equivalent right.type then throw .conversionReturns
      return .converted left right p body
    | .lambda .. => throw .conversionParameters
    | _ => throw (.host .attribute)
  | .binary _ => throw (.needlessConversion k)
  | _ => throw (.notBinary k)

/-! ## Unary operators -/

def unaryType (k : UnaryKind) (operand : Node) : Built Ty := do
  let t := operand.type
  match k with
  | .step _ => requireWritable operand
  | _ => pure ()
  let allowed := match k with
    | .not => t.isBool || t.isInteger
    | .onesComplement => t.isInteger
    | _ => t.isNumeric
  match k with
  | .isTrue | .isFalse => if t.isBool then return .bool else throw (.needsBool k)
  | _ => if allowed then return t else throw (.undefinedFor (.unary k) t)

/-- The type that is given, if one is; the value none in place of a type gives none. -/
def given? : Option Ty → Option Ty
  | some (.literal .none) => none
  | t => t

/-- A unary node of a kind. A conversion needs its target; for others a type may be given, and
has to be the one that is inferred. -/
def mkUnary (k : Kind) (operand : Node) (type : Option Ty) : Built Node := do
  match k with
  | .unary u =>
    match u, given? type with
    | .convert _, some t => return .unary k operand t
    | .convert _, none => throw (.noTarget u)
    | u, type =>
      let result ← unaryType u operand
      match type with
      | some t =>
        if t.equivalent result then return .unary k operand result
        else throw (.otherResult u operand.type result t)
      | none => return .unary k operand result
  | _ => throw (.notUnary k)

/-! ## Leaves and lambdas -/

/-- The class whose instances a constant of the type may hold, where there is one. -/
def constantClass? (t : Ty) : Option ClassName :=
  (t.optionalInner?.getD t.runtimeForm).className?

/-- A constant; its type defaults to the class of the value, and to that of all objects for none. -/
def mkConstant (l : Library) (h : Heap) (v : Value) (type : Option Ty) : Built Node := do
  let t := (given? type).getD (if v.isNone then .object else .cls (h.className v))
  if v.isNone then return .constant v t
  match constantClass? t with
  | some c =>
    match Arithmetic.isInstance l h v c with
    | .ok true => return .constant v t
    | .ok false => throw (.notInstance v t)
    | .error fault => throw (.host fault.kind)
  | none => return .constant v t

/-- Is no parameter repeated? -/
def areDistinct : List Parameter → Bool
  | [] => true
  | p :: ps => ps.all (·.number ≠ p.number) && areDistinct ps

/-- A lambda over nodes that have to be distinct parameters. -/
def mkLambda (parameters : List Node) (body : Node) : Built Node := do
  let found := parameters.filterMap fun
    | .parameter p => some p
    | _ => none
  if !areDistinct found then throw .repeatedParameters
  match parameters.find? fun n => match n with
    | .parameter _ => false
    | _ => true with
  | some n => throw (.notParameter n)
  | none => return .lambda found body

/-! ## Members and calls -/

/-- The class of the instances of an expression. -/
def instanceClass (expression : Node) : Built ClassName :=
  match expression.type.runtimeForm.className? with
  | some c => .ok c
  | none => .error (.host .attribute)

/-- Access to a member, which has to be declared for the class of the expression or above it. -/
def mkMember (l : Library) (expression : Node) (m : DataMember) : Built Node :=
  match expression.type.runtimeForm.className? with
  | some c =>
    if l.isSubclass c m.declaring then .ok (.member expression m)
    else .error (.notMember m expression.type)
  | none => .error (.notMember m expression.type)

/-- Access to a member that is looked up by name. -/
def mkNamed (l : Library) (lookup : ClassName → String → Except MemberFault DataMember)
    (expression : Node) (name : String) : Built Node := do
  let c ← instanceClass expression
  match lookup c name with
  | .ok m => mkMember l expression m
  | .error fault => throw (.member fault)

/-- Do the arguments fit the parameters? -/
def checkArguments (l : Library) (method : String) : Nat → List Ty → List Node → Built Unit
  | i, t :: ts, n :: ns =>
    if l.accepts t n.type then checkArguments l method (i + 1) ts ns
    else .error (.argument i method t n.type)
  | _, _, _ => .ok ()

/-- A call of a closed method with the arguments it takes. -/
def mkCall (l : Library) (target : Option Node) (m : Method) (arguments : List Node) : Built Node := do
  if m.isDefinition then throw (.openMethod m)
  match target with
  | some n =>
    if m.isStatic then throw (.needlessInstance m.name)
    if !l.accepts (.cls m.declaring) n.type then throw (.wrongInstance n.type m)
  | none => if !m.isStatic then throw (.missingInstance m.name)
  let types := m.parameterTypes
  if arguments.length ≠ types.length then throw (.argumentCount m.name types.length arguments.length)
  checkArguments l m.name 0 types arguments
  match target with
  | some n => return .callOn n m arguments
  | none => return .call m arguments

def mkConditional (test ifTrue ifFalse : Node) : Built Node := do
  if !test.type.isBool then throw .testNotBool
  if !ifTrue.type.equivalent ifFalse.type then throw .branchesDiffer
  return .conditional test ifTrue ifFalse

end Node

end ExprTree
