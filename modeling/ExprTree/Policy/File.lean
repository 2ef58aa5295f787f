import ExprTree.Policy
import ExprTree.Schema
import ExprTree.Signature.Encode
import ExprTree.Signature.Resolve
import ExprTree.Yaml.Content
import ExprTree.Yaml.Printer

/-!
# Policy files

A policy is kept as YAML: two flags, and three lists of signatures in order.
A class is read without arguments and a method is written as its definition,
so a file allows what the policy allows once its entries are generalized that
way. An empty file is the policy that allows nothing.
-/

namespace ExprTree

/-- A policy with its types and methods as signatures. -/
structure PolicyFile where
  allowsAllCalls : Bool
  loadsModules : Bool
  staticTypes : List String
  instanceTypes : List String
  methods : List String
deriving DecidableEq, Repr

namespace PolicyFile

open Schema (Step Checked Violation)

/-! ## Texts -/

def allCallsField : Schema.Field := ⟨"allow-unsafe-calls", "allow_unsafe_calls"⟩
def modulesField : Schema.Field := ⟨"allow-module-imports", "allow_module_imports"⟩
def staticTypesField : Schema.Field := ⟨"safe-static-types", "safe_static_types"⟩
def instanceTypesField : Schema.Field := ⟨"safe-instance-types", "safe_instance_types"⟩
def methodsField : Schema.Field := ⟨"safe-methods", "safe_methods"⟩

def fields : List Schema.Field :=
  [allCallsField, modulesField, staticTypesField, instanceTypesField, methodsField]

/-- The entries of a file, ordered by key. -/
def entries (f : PolicyFile) : List (String × Tree) :=
  [(modulesField.name, .flag f.loadsModules), (allCallsField.name, .flag f.allowsAllCalls),
    (instanceTypesField.name, .list (f.instanceTypes.map .text)),
    (methodsField.name, .list (f.methods.map .text)),
    (staticTypesField.name, .list (f.staticTypes.map .text))]

def toText (f : PolicyFile) : String :=
  Yaml.render f.entries

/-- What is written under a field, if anything is. -/
def valueOf? (es : List (Data × Data)) (f : Schema.Field) : Option Data :=
  es.findSome? fun (k, v) =>
    match k with
    | .text s => if Schema.fieldOf? fields es s = some f then some v else none
    | _ => none

def strangers (es : List (Data × Data)) : List Violation :=
  es.filterMap fun (k, _) =>
    match k with
    | .text s => if (Schema.fieldOf? fields es s).isSome then none else some (Schema.stranger [] k)
    | k => some (Schema.stranger [] k)

/-- Reads the content of a file; no content is an empty map. -/
def ofData (d : Data) : Checked PolicyFile :=
  let read (es : List (Data × Data)) : Checked PolicyFile :=
    let flag (f : Schema.Field) : Checked Bool :=
      ((valueOf? es f).map (Schema.flag [.name f.name])).getD (.ok false)
    let texts (f : Schema.Field) : Checked (List String) :=
      ((valueOf? es f).map (Schema.texts [.name f.name])).getD (.ok [])
    let strange : Checked Unit := match strangers es with
      | [] => .ok ()
      | vs => .error vs
    let flags := Schema.both (flag allCallsField) (flag modulesField)
    let types := Schema.both (texts staticTypesField) (texts instanceTypesField)
    (Schema.both (Schema.both flags types) (Schema.both (texts methodsField) strange)).map
      fun (((calls, modules), statics, instances), methods, _) => ⟨calls, modules, statics, instances, methods⟩
  match d with
  | .null => read []
  | .map es => read es
  | _ => Schema.fail [] .modelType

end PolicyFile

namespace Policy

/-! ## Signatures -/

/-- In the order of their characters. -/
def sorted (ss : List String) : List String :=
  ss.mergeSort fun s t => !decide (t < s)

/-- The file of a policy. -/
def toFile (p : Policy) : Except Signature.NamingFault PolicyFile := do
  let statics ← p.staticTypes.mapM Signature.encodeType
  let instances ← p.instanceTypes.mapM Signature.encodeType
  let methods ← p.methods.mapM Signature.encodeMember
  return ⟨p.allowsAllCalls, p.loadsModules, sorted statics, sorted instances, sorted methods⟩

/-- The policy of a file; resolving its signatures may load modules. -/
def ofFile (l : Library) (f : PolicyFile) : Signature.Resolving Policy := do
  let statics ← f.staticTypes.mapM (Signature.decodeType l true)
  let instances ← f.instanceTypes.mapM (Signature.decodeType l true)
  let methods ← f.methods.mapM (Signature.decodeMember l true)
  let p : Policy := ⟨f.allowsAllCalls, f.loadsModules, [], [], []⟩
  let p := (statics.map Ty.runtimeForm).foldl addStaticType p
  let p := (instances.map Ty.runtimeForm).foldl addInstanceType p
  return methods.foldl addMethod p

/-- Do two policies list the same? -/
def same (p q : Policy) : Bool :=
  let within {α : Type} (same : α → α → Bool) (xs ys : List α) : Bool := xs.all fun x => ys.any (same x)
  let sameList {α : Type} (same : α → α → Bool) (xs ys : List α) : Bool :=
    within same xs ys && within same ys xs
  p.allowsAllCalls = q.allowsAllCalls && p.loadsModules = q.loadsModules &&
    sameList Ty.same p.staticTypes q.staticTypes && sameList Ty.same p.instanceTypes q.instanceTypes &&
    sameList Method.same p.methods q.methods

end Policy

/-- Why a text is no policy. -/
inductive PolicyFault where
  | yaml (f : Yaml.Fault)
  | invalid (vs : List Schema.Violation)
  | unresolved (f : Signature.Fault)
deriving Repr

/-- The wording for the file at a path, unless it holds a scalar that cannot be read. -/
def PolicyFault.message? (path : String) : PolicyFault → Option String
  | .yaml .malformed => some ("Invalid YAML in policy file '" ++ path ++ "'")
  | .yaml _ => none
  | .invalid _ => some ("Invalid policy file '" ++ path ++ "'")
  | .unresolved f => f.message?.map fun m => "Invalid policy file '" ++ path ++ "': " ++ m

/-- Reads a policy from the text of a file. -/
def Policy.ofText (l : Library) (s : String) : ExceptT PolicyFault (StateM Names) Policy := do
  let d ← match Yaml.read s with
    | .ok d => pure d
    | .error f => throw (.yaml f)
  let file ← match PolicyFile.ofData d with
    | .ok file => pure file
    | .error vs => throw (.invalid vs)
  let (r, names) := (Policy.ofFile l file).run (← get)
  set names
  match r with
  | .ok p => return p
  | .error f => throw (.unresolved f)

end ExprTree
