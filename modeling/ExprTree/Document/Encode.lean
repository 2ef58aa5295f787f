import ExprTree.Document
import ExprTree.Document.Constant
import ExprTree.Document.Guid
import ExprTree.Node
import ExprTree.Policy
import ExprTree.Signature.Encode

/-!
# From nodes to documents

Every kind of node has its roles. A parameter is written with an identifier
that is handed out the first time it is seen, and with the same identifier,
type and name from then on. A policy, when there is one, rejects calls before
they are written.
-/

namespace ExprTree

/-- What is written for a parameter. -/
structure ParameterEntry where
  guid : String
  type : String
  name : Option String
deriving DecidableEq, Repr

/-- The parameters seen so far, the first first, and the identifiers handed out. -/
structure Interning where
  arena : List ParameterEntry
  /-- The place in the arena of each parameter, by its number. -/
  slots : List (Nat × Nat)
  minted : Nat
deriving Repr

namespace Interning

/-- Nothing seen yet, after some identifiers were handed out elsewhere. -/
def start (minted : Nat) : Interning := ⟨[], [], minted⟩

/-- The entry of a parameter. A new one uses up an identifier even if its type has no name. -/
def intern (s : Interning) (p : Parameter) : Except Signature.NamingFault ParameterEntry × Interning :=
  match (s.slots.lookup p.number).bind (s.arena[·]?) with
  | some e => (.ok e, s)
  | none =>
    let minted := s.minted + 1
    match Signature.encodeType p.type with
    | .error fault => (.error fault, { s with minted })
    | .ok type =>
      let e : ParameterEntry := ⟨Guid.nth minted, type, p.name⟩
      (.ok e, ⟨s.arena ++ [e], (p.number, s.arena.length) :: s.slots, minted⟩)

end Interning

/-- Why a node cannot be written. -/
inductive EncodeFault where
  | unsupportedKind (tag : String)
  | naming (fault : Signature.NamingFault)
  /-- A member of a class without a name. -/
  | anonymousMember
  | unknownConstant (t : Ty)
  /-- A constant or a count whose text would be too long. -/
  | unwritable
  | unsafeCall (m : Method)
  /-- A node whose parts do not belong to its kind. -/
  | shapeless
deriving Repr

/-- The wording for a call that a policy rejects. -/
def Method.rejection (m : Method) : String :=
  "Call to '" ++ m.display ++ "' on " ++ m.declaring.path ++ " is not allowed"

/-- The wording for a type that has no constants. -/
def Ty.noConstants (t : Ty) : String :=
  "Constants of type " ++ t.describe ++ " are not supported"

def unsupportedKindMessage (tag : String) : String :=
  "Node kind '" ++ tag ++ "' is not supported"

def EncodeFault.message? : EncodeFault → Option String
  | .unsupportedKind tag => some (unsupportedKindMessage tag)
  | .naming fault => some fault.message
  | .anonymousMember => some "Encoding member access of anonymous types is not supported."
  | .unknownConstant t => some t.noConstants
  | .unwritable | .shapeless => none
  | .unsafeCall m => some m.rejection

abbrev Encoding := ExceptT EncodeFault (StateM Interning)

namespace Node

/-- A type as text. -/
def typeText (t : Ty) : Encoding String :=
  match Signature.encodeType t with
  | .ok s => return s
  | .error fault => throw (.naming fault)

def typeTexts : List Ty → Encoding (List String)
  | [] => return []
  | t :: ts => do
    let first ← typeText t
    return first :: (← typeTexts ts)

/-- Things under numbered roles. -/
def numbered {α : Type} (role : String) (xs : List α) : List (String × α) :=
  xs.zipIdx.map fun (x, i) => (role ++ toString i, x)

def encodeParameter (p : Parameter) : Encoding Document := do
  let (result, s) := (← get).intern p
  set s
  match result with
  | .ok e =>
    return .node Kind.parameter.tag []
      [("Type", some e.type), ("Name", e.name), ("Guid", some e.guid)]
  | .error fault => throw (.naming fault)

def encodeParameters : List Parameter → Encoding (List Document)
  | [] => return []
  | p :: ps => do
    let first ← encodeParameter p
    return first :: (← encodeParameters ps)

/-- A count as text. -/
def countText (n : Nat) : Encoding String :=
  match integerText? n with
  | some s => return s
  | none => throw .unwritable

def lambdaDocument (parameters : List Document) (body : Document) : Encoding Document := do
  let count ← countText parameters.length
  return .node Kind.lambda.tag ((numbered "Parameter" parameters ++ [("Body", body)]).map fun (r, d) => (r, some d))
    [("ParameterCount", some count)]

/-- The texts of a call, after the policy has been asked. -/
def callTexts (policy : Option Policy) (m : Method) (argumentCount : Nat) :
    Encoding (List (String × Option String)) := do
  if policy.any (!·.allows m) then throw (.unsafeCall m)
  let member ← match Signature.encodeMember m with
    | .ok s => pure s
    | .error fault => throw (.naming fault)
  let declaring ← typeText (.cls m.declaring)
  let types ← typeTexts m.parameterTypes
  let generics ← typeTexts m.arguments
  let argumentCount ← countText argumentCount
  let genericCount ← countText m.arguments.length
  let texts := [("Method", member), ("MethodType", declaring), ("ArgumentCount", argumentCount),
      ("GenericArgumentCount", genericCount)] ++
    numbered "ArgumentType" types ++ numbered "GenericArgument" generics
  return texts.map fun (r, s) => (r, some s)

def encodeConstant (h : Heap) (v : Value) (t : Ty) : Encoding Document := do
  let text ←
    if v.isNone then pure none
    else
      if (ConstantText.formOf? (ConstantText.target t)).isNone then throw (.unknownConstant t)
      match ConstantText.write? h v with
      | some s => pure (some s)
      | none => throw .unwritable
  return .node Kind.constant.tag [] [("Type", some (← typeText t)), ("Value", text)]

variable (h : Heap) (policy : Option Policy)

mutual

/-- Writes a node. -/
def encode : Node → Encoding Document
  | .constant v t => encodeConstant h v t
  | .parameter p => encodeParameter p
  | .lambda ps body => do
    let parameters ← encodeParameters ps
    lambdaDocument parameters (← encode body)
  | .binary k left right _ => do
    match k with
    | .binary _ =>
      let left ← encode left
      return .node k.tag [("Left", some left), ("Right", some (← encode right))] []
    | .conditional | .bare _ => throw (.unsupportedKind k.tag)
    | _ => throw .shapeless
  | .converted left right p body => do
    let left ← encode left
    let right ← encode right
    let parameter ← encodeParameter p
    let conversion ← lambdaDocument [parameter] (← encode body)
    return .node (Kind.binary .coalesce).tag
      [("Left", some left), ("Right", some right), ("Conversion", some conversion)] []
  | .unary k operand t => do
    match k with
    | .unary _ =>
      let operand ← encode operand
      return .node k.tag [("Operand", some operand)] [("Type", some (← typeText t))]
    | .conditional | .bare _ => throw (.unsupportedKind k.tag)
    | _ => throw .shapeless
  | .member e m => do
    if (Ty.cls m.declaring).isAnonymous || e.type.isAnonymous then throw .anonymousMember
    let expression ← encode e
    return .node Kind.memberAccess.tag [("Expression", some expression)]
      [("Type", some (← typeText (.cls m.declaring))), ("Member", some m.name),
        ("IsProperty", some (if m.isProperty then "true" else "false"))]
  | .call m args => do
    let texts ← callTexts policy m args.length
    let arguments ← encodeAll args
    return .node Kind.call.tag
      (("Object", none) :: (numbered "Argument" arguments).map fun (r, d) => (r, some d)) texts
  | .callOn target m args => do
    let texts ← callTexts policy m args.length
    let target ← encode target
    let arguments ← encodeAll args
    return .node Kind.call.tag
      (("Object", some target) :: (numbered "Argument" arguments).map fun (r, d) => (r, some d)) texts
  | .conditional .. => throw (.unsupportedKind Kind.conditional.tag)
  | .bare k _ => if k.isEncodable then throw .shapeless else throw (.unsupportedKind k.tag)

def encodeAll : List Node → Encoding (List Document)
  | [] => return []
  | n :: ns => do
    let first ← encode n
    return first :: (← encodeAll ns)

end

end Node

end ExprTree
