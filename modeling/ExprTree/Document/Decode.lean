import ExprTree.Document.Encode
import ExprTree.Node.Build
import ExprTree.Signature.Resolve
import ExprTree.Text.Case

/-!
# From documents to nodes

Decoding resolves the names in a document and rebuilds its nodes through the
typing rules, so that what comes out is well typed. Parameters are the same
when their identifiers are; the first one read fixes type and name. A call is
resolved completely, then the policy is asked, and only then are its operands
decoded.
-/

namespace ExprTree

/-- Why a document is malformed. -/
inductive Malformation where
  | missingChild (role : String)
  | missingValue (role : String)
  | notCount (role text : String)
  | notFlag (role text : String)
  | notGuid (text : String)
  | conversionNotLambda
  | notParameter (index : Nat)
  /-- The typing rules refuse the parts. -/
  | build (fault : BuildFault)
deriving Repr

inductive DecodeFault where
  | unsupportedKind (tag : String)
  | malformed (tag : String) (what : Malformation)
  | signature (fault : Signature.Fault)
  | unknownConstant (t : Ty)
  | invalidConstant (t : Ty) (text : String)
  | unsafeCall (m : Method)
  /-- A count with too many digits. -/
  | tooManyDigits
deriving Repr

namespace Malformation

def message (h : Heap) : Malformation → String
  | .missingChild role => "missing child '" ++ role ++ "'"
  | .missingValue role => "missing value '" ++ role ++ "'"
  | .notCount role text => "'" ++ role ++ "' must be a non-negative integer, got " ++ Text.quoted text
  | .notFlag role text => "'" ++ role ++ "' must be 'true' or 'false', got " ++ Text.quoted text
  | .notGuid text => "Guid " ++ Text.quoted text ++ " is not a UUID"
  | .conversionNotLambda => "Conversion must be a lambda"
  | .notParameter i => "Parameter" ++ toString i ++ " is not a parameter"
  | .build fault => (fault.message? h).getD ""

end Malformation

def DecodeFault.message? (h : Heap) : DecodeFault → Option String
  | .unsupportedKind tag => some (unsupportedKindMessage tag)
  | .malformed tag what => some ("Malformed '" ++ tag ++ "' node: " ++ what.message h)
  | .signature fault => fault.message?
  | .unknownConstant t => some t.noConstants
  | .invalidConstant t text => some ("Invalid constant " ++ Text.quoted text ++ " for type " ++ t.describe)
  | .unsafeCall m => some m.rejection
  | .tooManyDigits => none

/-- What decoding carries along. -/
structure DecodeState where
  names : Names
  /-- The parameters read so far, by their identifiers. -/
  parameters : List (String × Parameter)
  /-- The number of the next new parameter. -/
  next : Nat

abbrev Decoding := ExceptT DecodeFault (StateM DecodeState)

namespace Document

variable (l : Library) (policy : Policy)

def malformed {α : Type} (d : Document) (what : Malformation) : Decoding α :=
  throw (.malformed d.kind what)

/-- The text under a role, which has to be there. -/
def value (d : Document) (role : String) : Decoding String :=
  match d.value? role with
  | some s => return s
  | none => d.malformed (.missingValue role)

/-- The number under a role: ASCII digits and nothing else. -/
def count (d : Document) (role : String) : Decoding Nat := do
  let text ← d.value role
  let cs := text.toList
  if cs.isEmpty || !cs.all Char.isDigit then d.malformed (.notCount role text)
  else if cs.length > integerDigitLimit then throw .tooManyDigits
  else return Text.natOfDigits cs

def flag (d : Document) (role : String) : Decoding Bool := do
  let text := Text.lower (← d.value role)
  if text = "true" then return true
  else if text = "false" then return false
  else d.malformed (.notFlag role text)

/-- Runs a resolution on the names known so far. -/
def resolving {α : Type} (r : Signature.Resolving α) : Decoding α := do
  let s ← get
  let (result, names) := r.run s.names
  set { s with names }
  match result with
  | .ok a => return a
  | .error fault => throw (.signature fault)

def type (text : String) : Decoding Ty :=
  resolving (Signature.decodeType l policy.loadsModules text)

/-- What the typing rules build from decoded parts. -/
def build (d : Document) (node : Built Node) : Decoding Node :=
  match node with
  | .ok n => return n
  | .error fault => d.malformed (.build fault)

/-! ## Leaves -/

/-- The heap that constants of documents need: none of them refers to it. -/
def noHeap : Heap := .empty

def decodeConstant (d : Document) : Decoding Node := do
  let t ← type l policy (← d.value "Type")
  match d.value? "Value" with
  | none => d.build (Node.mkConstant l noHeap .none (some t))
  | some text =>
    let target := ConstantText.target t
    match ConstantText.formOf? target with
    | none => throw (.unknownConstant t)
    | some form =>
      match form.read? text with
      | none => throw (.invalidConstant target text)
      | some v => d.build (Node.mkConstant l noHeap v (some t))

/-- The parameter of an identifier, which is new when it is seen first. -/
def parameterFor (guid typeText : String) (name : Option String) : Decoding Parameter := do
  match (← get).parameters.lookup guid with
  | some p => return p
  | none =>
    let t ← type l policy typeText
    let s ← get
    let p : Parameter := ⟨s.next, t, name⟩
    set { s with parameters := (guid, p) :: s.parameters, next := s.next + 1 }
    return p

def decodeParameter (d : Document) : Decoding Parameter := do
  let guid ← d.value "Guid"
  if !Guid.isValid guid then d.malformed (.notGuid guid)
  parameterFor l policy guid (← d.value "Type") (d.value? "Name")

/-! ## Members and methods -/

/-- The member that a document names. -/
def decodeMember (d : Document) : Decoding DataMember := do
  let typeText ← d.value "Type"
  let declaring := (← type l policy typeText).runtimeForm
  let name ← d.value "Member"
  let isProperty ← d.flag "IsProperty"
  let fail (reason : Signature.Mismatch) : Decoding DataMember :=
    throw (.signature (.memberNotFound (name ++ "@" ++ typeText) reason))
  match declaring.className? with
  | none => fail .notClass
  | some c =>
    match if isProperty then l.property c name else l.field c name with
    | .ok m => return m
    | .error fault => fail (.undeclared fault)

/-- The types under numbered roles. -/
def typesUnder (d : Document) (role : String) : Nat → Nat → Decoding (List Ty)
  | 0, _ => return []
  | n + 1, i => do
    let t ← type l policy (← d.value (role ++ toString i))
    return t :: (← typesUnder d role n (i + 1))

/-- Stops with a fault unless a condition holds. -/
def demand (condition : Bool) (fault : DecodeFault) : Decoding Unit :=
  if condition then return () else throw fault

/-- The text of a method does not name the one that the document describes. -/
def mismatch (memberText : String) (reason : Signature.Mismatch) : DecodeFault :=
  .signature (.memberNotFound memberText reason)

/-- Does the document name the types of the parameters? -/
def checkTypes (d : Document) (memberText : String) : Nat → List Ty → Decoding Unit
  | _, [] => return ()
  | i, t :: ts => do
    let written ← type l policy (← d.value ("ArgumentType" ++ toString i))
    demand (written.equivalent t) (mismatch memberText (.parameterType i))
    checkTypes d memberText (i + 1) ts

/-- A method over the arguments a document gives it; a method that is not generic has none. -/
def closeOver (memberText : String) (m : Method) (arguments : List Ty) : Decoding Method :=
  if arguments.isEmpty && !m.isDefinition then return m
  else
    match m.close arguments with
    | .ok m => return m
    | .error fault => throw (mismatch memberText (.generics fault))

/-- The method that a call names, closed. -/
def namedMethod (d : Document) : Decoding Method := do
  let memberText ← d.value "Method"
  let m ← resolving (Signature.decodeMember l policy.loadsModules memberText)
  let typeText ← d.value "MethodType"
  let declaring ← type l policy typeText
  demand (declaring.runtimeForm.isClass m.declaring)
    (mismatch memberText (.declaredBy (.cls m.declaring) declaring.runtimeForm))
  let genericCount ← d.count "GenericArgumentCount"
  let arguments ← typesUnder l policy d "GenericArgument" genericCount 0
  let m ← closeOver memberText m arguments
  let given ← d.count "ArgumentCount"
  demand (given = m.parameterTypes.length) (mismatch memberText (.argumentCount m.parameterTypes.length given))
  checkTypes l policy d memberText 0 m.parameterTypes
  return m

/-- The method that a call names, which the policy has to allow. -/
def decodeMethod (d : Document) : Decoding Method := do
  let m ← namedMethod l policy d
  demand (policy.allows m) (.unsafeCall m)
  return m

/-! ## All nodes -/

section

variable (d : Document) (decoded : String → Option (Decoding Node))

/-- The decoding of the child under a role, which has to be there. -/
def decodedChild (role : String) : Decoding Node :=
  match decoded role with
  | some decoding => decoding
  | none => d.malformed (.missingChild role)

/-- The decoding of the child under a role, if it is there. -/
def decodedChild? (role : String) : Decoding (Option Node) :=
  match decoded role with
  | some decoding => return some (← decoding)
  | none => return none

/-- The children under numbered roles from the i-th on. -/
def childrenUnder (role : String) : Nat → Nat → Decoding (List Node)
  | 0, _ => return []
  | n + 1, i => do
    let first ← decodedChild d decoded (role ++ toString i)
    return first :: (← childrenUnder role n (i + 1))

/-- The parameters of a lambda from the i-th on. -/
def parametersFrom : Nat → Nat → Decoding (List Node)
  | 0, _ => return []
  | n + 1, i => do
    match ← decodedChild d decoded ("Parameter" ++ toString i) with
    | .parameter p => return .parameter p :: (← parametersFrom n (i + 1))
    | _ => d.malformed (.notParameter i)

/-- What is made of the operands and the conversion, if there is one. -/
def joinBinary (k : Kind) (left right : Node) : Option Node → Decoding Node
  | none => d.build (Node.mkBinary l k left right)
  | some (.lambda ps body) => d.build (Node.mkConverted k left right (.lambda ps body))
  | some _ => d.malformed .conversionNotLambda

/-- Rebuilds a node, given how its children are decoded. -/
def rebuild : Decoding Node := do
  match Kind.ofTag? d.kind with
  | none => throw (.unsupportedKind d.kind)
  | some k =>
    match k with
    | .conditional | .bare _ => throw (.unsupportedKind k.tag)
    | .constant => decodeConstant l policy d
    | .parameter => return .parameter (← decodeParameter l policy d)
    | .binary _ =>
      let left ← decodedChild d decoded "Left"
      let right ← decodedChild d decoded "Right"
      let conversion ← decodedChild? decoded "Conversion"
      joinBinary l d k left right conversion
    | .unary _ =>
      let operand ← decodedChild d decoded "Operand"
      let t ← type l policy (← d.value "Type")
      d.build (Node.mkUnary k operand (some t))
    | .memberAccess =>
      let m ← decodeMember l policy d
      let expression ← decodedChild d decoded "Expression"
      d.build (Node.mkMember l expression m)
    | .lambda =>
      let parameters ← parametersFrom d decoded (← d.count "ParameterCount") 0
      let body ← decodedChild d decoded "Body"
      d.build (Node.mkLambda parameters body)
    | .call =>
      let m ← decodeMethod l policy d
      let target ← decodedChild? decoded "Object"
      let arguments ← childrenUnder d decoded "Argument" m.parameterTypes.length 0
      d.build (Node.mkCall l target m arguments)

end

mutual

/-- Rebuilds a node from the leaves up. -/
def decode : Document → Decoding Node
  | .node kind children values =>
    rebuild l policy (.node kind children values) fun role => ((decodings children).lookup role).join
termination_by structural d => d

def decodings : List (String × Option Document) → List (String × Option (Decoding Node))
  | [] => []
  | (role, some c) :: rest => (role, some (decode c)) :: decodings rest
  | (role, none) :: rest => (role, none) :: decodings rest
termination_by structural cs => cs

end

end Document

end ExprTree
