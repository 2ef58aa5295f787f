import ExprTree.Value.Text

/-!
# Text of nodes

A tree is shown the way its expression would be written, with operators
between their operands. A description, in contrast, lists every part of a node
by name. Both fail on an integer with too many digits.
-/

namespace ExprTree

namespace UnaryKind

/-- What stands before the operand, and what after it. -/
def marks? : UnaryKind → Option (String × String)
  | .negate _ => some ("-", "")
  | .unaryPlus => some ("+", "")
  | .onesComplement => some ("~", "")
  | .step ⟨increments, yieldsOld⟩ =>
    let sign := if increments then "++" else "--"
    some (if yieldsOld then ("", sign) else (sign, ""))
  | _ => none

end UnaryKind

/-- A parameter is shown by its name, or by its type in angle brackets. -/
def Parameter.text (p : Parameter) : String :=
  match p.name.filter (!·.isEmpty) with
  | some n => n
  | none => "<" ++ p.type.display ++ ">"

namespace Node

/-- The parameters of a lambda, in parentheses unless there is one. -/
def parametersText (ps : List Parameter) : String :=
  match ps with
  | [p] => p.text
  | ps => "(" ++ Ty.commas (ps.map Parameter.text) ++ ")"

mutual

def text (h : Heap) : Node → Option String
  | .constant v _ =>
    match v.text? with
    | some s => some (Text.quoted s)
    | none => h.textOf v
  | .parameter p => some p.text
  | .lambda ps body => do return parametersText ps ++ " => " ++ (← text h body)
  | .binary kind left right _ =>
    match kind with
    | .binary k => do return "(" ++ (← text h left) ++ " " ++ k.symbol ++ " " ++ (← text h right) ++ ")"
    | _ => none
  | .converted left right p body => do
    return "(" ++ (← text h left) ++ " ?? " ++ (← text h right) ++ ", " ++ p.text ++ " => " ++
      (← text h body) ++ ")"
  | .unary kind operand t => do
    let shown ← text h operand
    match kind with
    | .unary (.convert _) => return kind.tag ++ "(" ++ shown ++ ", " ++ t.display ++ ")"
    | .unary k =>
      match k.marks? with
      | some (before, after) => return before ++ shown ++ after
      | none => return kind.tag ++ "(" ++ shown ++ ")"
    | k => return k.tag ++ "(" ++ shown ++ ")"
  | .member e m => do return (← text h e) ++ "." ++ m.name
  | .call m args => do
    return m.declaring.path ++ "." ++ m.name ++ "(" ++ Ty.commas (← textAll h args) ++ ")"
  | .callOn target m args => do
    return (← text h target) ++ "." ++ m.name ++ "(" ++ Ty.commas (← textAll h args) ++ ")"
  | .conditional test ifTrue ifFalse => do
    return "IIF(" ++ (← text h test) ++ ", " ++ (← text h ifTrue) ++ ", " ++ (← text h ifFalse) ++ ")"
  | .bare k _ => some ("<" ++ k.tag ++ ">")

def textAll (h : Heap) : List Node → Option (List String)
  | [] => some []
  | n :: ns => do
    let first ← text h n
    return first :: (← textAll h ns)

end

/-! ## Descriptions -/

/-- Named parts in parentheses after the name of what they make up. -/
def record (name : String) (parts : List (String × String)) : String :=
  name ++ "(" ++ Ty.commas (parts.map fun (k, v) => k ++ "=" ++ v) ++ ")"

/-- Parts in parentheses; a single one is followed by a comma. -/
def sequence (parts : List String) : String :=
  "(" ++ Ty.commas parts ++ (if parts.length = 1 then ",)" else ")")

/-- A tag in capitals, with an underscore before each word but the first. -/
def capitals : List Char → List Char
  | [] => []
  | c :: cs =>
    c.toUpper :: cs.flatMap fun d => if d.isUpper then ['_', d] else [d.toUpper]

def describeKind (k : Kind) : String :=
  "<NodeKind." ++ String.ofList (capitals k.tag.toList) ++ ": '" ++ k.tag ++ "'>"

def describeName (name : Option String) : String :=
  match name with
  | some n => Text.quoted n
  | none => "None"

def describeMethod (m : Method) : String :=
  record "MethodInfo"
    [("declaring_type", m.declaring.describe), ("name", Text.quoted m.name),
      ("parameter_types", sequence (m.parameterTypes.map Ty.describe)),
      ("return_type", m.resultType.describe), ("is_static", Text.boolText m.isStatic),
      ("generic_arity", toString m.arity),
      ("generic_arguments", sequence (m.arguments.map Ty.describe)),
      ("parameter_names", sequence (m.parameterNames.map Text.quoted)),
      ("type_parameter_names", sequence (m.declaration.typeParameters.map Text.quoted))]

def describeMember (m : DataMember) : String :=
  record (if m.isProperty then "PropertyInfo" else "FieldInfo")
    [("declaring_type", m.declaring.describe), ("name", Text.quoted m.name),
      (if m.isProperty then "property_type" else "field_type", m.type.describe)]

def describeParameter (p : Parameter) : String :=
  record "ParameterNode"
    [("type", p.type.describe), ("name", describeName p.name), ("kind", describeKind .parameter)]

def describeLambda (ps : List Parameter) (body : String) (type : Ty) : String :=
  record "LambdaNode"
    [("parameters", sequence (ps.map describeParameter)), ("body", body), ("type", type.describe),
      ("kind", describeKind .lambda)]

mutual

def describe (h : Heap) : Node → Option String
  | .constant v t => do
    return record "ConstantNode"
      [("value", ← h.describe v), ("type", t.describe), ("kind", describeKind .constant)]
  | .parameter p => some (describeParameter p)
  | .lambda ps body => do
    return describeLambda ps (← describe h body) (Ty.function (ps.map (·.type)) body.type)
  | .binary k left right t => do
    return record "BinaryNode"
      [("kind", describeKind k), ("left", ← describe h left), ("right", ← describe h right),
        ("type", t.describe), ("conversion", "None")]
  | .converted left right p body => do
    let conversion := describeLambda [p] (← describe h body) (Ty.function [p.type] body.type)
    return record "BinaryNode"
      [("kind", describeKind (.binary .coalesce)), ("left", ← describe h left),
        ("right", ← describe h right), ("type", right.type.describe), ("conversion", conversion)]
  | .unary k operand t => do
    return record "UnaryNode"
      [("kind", describeKind k), ("operand", ← describe h operand), ("type", t.describe)]
  | .member e m => do
    return record "MemberNode"
      [("expression", ← describe h e), ("member", describeMember m), ("type", m.type.describe),
        ("kind", describeKind .memberAccess)]
  | .call m args => do
    return describeCall "None" m (← describeAll h args)
  | .callOn target m args => do
    return describeCall (← describe h target) m (← describeAll h args)
  | .conditional test ifTrue ifFalse => do
    return record "ConditionalNode"
      [("test", ← describe h test), ("if_true", ← describe h ifTrue), ("if_false", ← describe h ifFalse),
        ("type", ifTrue.type.describe), ("kind", describeKind .conditional)]
  | .bare k _ => some ("<" ++ k.tag ++ ">")

def describeAll (h : Heap) : List Node → Option (List String)
  | [] => some []
  | n :: ns => do
    let first ← describe h n
    return first :: (← describeAll h ns)

def describeCall (target : String) (m : Method) (args : List String) : String :=
  record "CallNode"
    [("instance", target), ("method", describeMethod m), ("arguments", sequence args),
      ("type", m.resultType.describe), ("kind", describeKind .call)]

end

end Node

end ExprTree
