import ExprTree.Host.Builtin
import ExprTree.Host.Standard

/-!
# A sample host

The standard classes with a module of small classes that show every sort of
member: fields, slots, properties that read, write or do both, methods with
and without instance, overloads, type variables of methods and of classes,
annotations that mean nothing, classes inside classes, and a class that its
module does not export under its own name. A second module is there to be
loaded while names are resolved.
-/

namespace ExprTree.Sample

/-- A class of the sample module. -/
def named (path : String) : ClassName := ⟨"hostlib", path⟩

def shape := named "Shape"
def circle := named "Circle"
def account := named "Account"
def counter := named "Counter"
def labelledCounter := named "LabelledCounter"
def shadow := named "Shadow"
def point := named "Point"
def thermostat := named "Thermostat"
def greeter := named "Greeter"
def pair := named "Pair"
def deferred := named "Deferred"
def ambiguous := named "Ambiguous"
def outer := named "Outer"
def inner := named "Outer.Inner"
def localBox := named "_make_local.<locals>.Box"
def unit : ClassName := ⟨"hostlazy", "Unit"⟩

/-! ## Declarations -/

/-- An overload, a parameter or a result whose type is known. -/
def known (t : Ty) (h : t.isOpen = false := by exact Eq.refl false) : DeclaredType := .resolved t h

/-- The annotation of a name that the sample module does not define. -/
def fraction : DeclaredType := .unresolved "Fraction"

def t : Ty := .variable "T"
def u : Ty := .variable "U"
def optionalInt : Ty := .unionOf [.int, .nothing]
def optionalText : Ty := .unionOf [.str, .nothing]

/-- A method with one prototype. -/
def method (name : String) (binding : Binding) (parameters : List (String × DeclaredType))
    (result : DeclaredType) : String × Attribute :=
  (name, .method binding [⟨parameters, result, none⟩])

/-- What makes an instance takes its attributes, without annotations. -/
def constructor (parameters : List String) : String × Attribute :=
  method "__init__" .onInstance (parameters.map fun p => (p, .missing)) .missing

def readOnly (name : String) (type : DeclaredType) : String × Attribute :=
  (name, .property type true false)

def readWrite (name : String) (type : DeclaredType) : String × Attribute :=
  (name, .property type true true)

def field (name : String) (type : Ty) (h : type.isOpen = false := by exact Eq.refl false) : FieldDecl :=
  ⟨name, known type h, false⟩

def classField (name : String) (type : Ty) (h : type.isOpen = false := by exact Eq.refl false) : FieldDecl :=
  ⟨name, known type h, true⟩

/-- A class of this host. -/
def classOf (name : ClassName) (ancestors : List ClassName) (fields : List FieldDecl)
    (attributes : List (String × Attribute)) : ClassInfo :=
  ⟨name, ancestors, [], attributes, fields, [], []⟩

def amountParameter : List (String × DeclaredType) := [("amount", known .int)]
def valueParameter (type : Ty) (h : type.isOpen = false := by exact Eq.refl false) : List (String × DeclaredType) :=
  [("value", known type h)]

def shapeClass : ClassInfo :=
  classOf shape [] [field "sides" .int]
    [constructor ["sides"], method "describe" .onInstance [] (known .str)]

def circleClass : ClassInfo :=
  classOf circle [shape] [field "radius" .float]
    [constructor ["radius"], method "describe" .onInstance [] (known .str)]

def accountClass : ClassInfo :=
  classOf account [] [field "balance" .int]
    [constructor ["balance"],
     readOnly "overdrawn" (known .bool),
     method "deposit" .onInstance amountParameter (known .int),
     method "fee" .free amountParameter (known .int),
     method "open" .onClass [("balance", known .int)] (known (.cls account))]

def counterClass : ClassInfo :=
  classOf counter [] [field "total" .int, field "label" .str, classField "instances" .int]
    [("instances", .shared),
     constructor ["total", "label"],
     readOnly "doubled" (known .int),
     readWrite "name" (known .str),
     method "add" .onInstance amountParameter (known .int),
     method "reset" .onInstance [] (known .nothing),
     method "twice" .free (valueParameter .int) (known .int),
     method "create" .onClass [("total", known .int)] (known (.cls counter)),
     method "pick" .free
      [("items", known (.close .iterable [t])), ("selector", known (.function [t] u))]
      (known (.close .list [u])),
     method "wrap" .onInstance (valueParameter t) (known (.close .list [t])),
     ("scale", .method .free
      [⟨valueParameter .int, known .int, none⟩,
       ⟨valueParameter .int ++ [("factor", known .int)], known .int, none⟩]),
     method "maybe" .free (valueParameter optionalInt) (known optionalInt),
     method "untyped" .free [("a", .missing), ("b", .missing)] .missing,
     method "variadic" .onInstance
      [("first", known .int), ("rest", known .int), ("extra", known .str)] (known .int),
     method "_hidden" .onInstance [] (known .nothing)]

def labelledCounterClass : ClassInfo :=
  classOf labelledCounter [counter] [field "suffix" .str, field "label" .char]
    [method "add" .onInstance amountParameter (known .int)]

def shadowClass : ClassInfo :=
  classOf shadow [counter] [field "doubled" .str, classField "total" .int]
    [("total", .shared), readOnly "label" (known .str)]

def pointClass : ClassInfo :=
  { classOf point [] [] [constructor ["x", "y"]] with slots := ["x", "y"] }

def thermostatClass : ClassInfo :=
  classOf thermostat [] [field "step" (.fixed ⟨true, .w16⟩)]
    [constructor ["target"],
     readWrite "target" (known .int),
     readOnly "anything" .missing,
     method "_store" .onInstance [("value", .missing)] .missing,
     ("sink", .property .missing false true)]

def greeterClass : ClassInfo :=
  classOf greeter [] [field "prefix" .str, field "nickname" optionalText]
    [constructor ["prefix"], method "greet" .onInstance [("name", known .str)] (known .str)]

def pairClass : ClassInfo :=
  { classOf pair [] [field "first" t, field "second" u]
      [constructor ["first", "second"],
       method "head" .onInstance [] (known t),
       method "swap" .onInstance [] (known (.close (.cls pair) [u, t])),
       method "make" .free (valueParameter t) (known (.close .list [t]))] with
    typeParameters := ["T", "U"] }

def deferredClass : ClassInfo :=
  classOf deferred [] [⟨"amount", fraction, false⟩, field "plain_field" .int]
    [constructor ["amount"],
     readOnly "ratio" fraction,
     method "scale" .onInstance [("factor", fraction)] fraction,
     method "plain" .onInstance [("factor", known .int)] (known .int)]

def ambiguousClass : ClassInfo :=
  classOf ambiguous [] []
    [("pick", .method .free [⟨valueParameter .int, known .int, none⟩, ⟨valueParameter .int, known .str, none⟩])]

def outerClass : ClassInfo :=
  { classOf outer [] [] [] with inner := [("Inner", inner)] }

def innerClass : ClassInfo :=
  classOf inner [] [field "depth" .int]
    [constructor ["depth"], method "deeper" .onInstance [] (known (.cls inner))]

def localBoxClass : ClassInfo :=
  classOf localBox [] [field "content" .int]
    [constructor ["content"], method "open" .onInstance [] (known .int)]

def unitClass : ClassInfo :=
  classOf unit [] [field "size" .int] [method "one" .free [] (known .int)]

def classes : List ClassInfo :=
  [shapeClass, circleClass, accountClass, counterClass, labelledCounterClass, shadowClass, pointClass,
   thermostatClass, greeterClass, pairClass, deferredClass, ambiguousClass, outerClass, innerClass,
   localBoxClass, unitClass]

/-- The classes that the sample module exports under their own names. -/
def exported : List ClassName :=
  [shape, circle, account, counter, labelledCounter, shadow, point, thermostat, greeter, pair, deferred,
   ambiguous, outer]

def library : Library :=
  Standard.extended classes
    [⟨"hostlib", exported.map Standard.exported ++
      [("LocalBox", .type (.cls localBox)), Standard.char, ("np", .module "numpy")]⟩]
    [⟨"hostlazy", [Standard.exported unit]⟩]

/-! ## Attributes of instances -/

/-- The property that a class, or the nearest class above it, has under a name. -/
def propertyOf? (c : ClassName) (name : String) : Option (ClassName × Bool × Bool) :=
  (library.lineage c).findSome? fun i =>
    match i.attributes.lookup name with
    | some (.property _ readable writable) => some (i.name, readable, writable)
    | _ => none

/-- The attributes of an object. -/
def attributes? (h : Heap) : Value → Option (Nat × ClassName × List (String × Value))
  | .ref a =>
    match h.get? a with
    | some (.object c as) => some (a, c, as)
    | _ => none
  | _ => none

/-- Replaces the value under a name, or adds it. -/
def put (name : String) (v : Value) : List (String × Value) → List (String × Value)
  | [] => [(name, v)]
  | (n, w) :: rest => if n = name then (n, v) :: rest else (n, w) :: put name v rest

/-- May objects of a class hold a value under a name? Slots are the only names where there are any. -/
def mayHold (c : ClassName) (name : String) : Bool :=
  match library.class? c with
  | some i => i.slots.isEmpty || i.slots.contains name
  | none => true

/-- What a property gives whose value is kept under another name. -/
def storedAs (c : ClassName) (name : String) : Option String :=
  if c = counter && name = "name" then some "label"
  else if c = thermostat && (name = "target" || name = "sink") then some "_target"
  else none

/-- A property that computes its value from an attribute. -/
def computed? (c : ClassName) (name : String) : Option (String × (Value → Run Value)) :=
  if c = account && name = "overdrawn" then
    some ("balance", fun v => do
      let negative ← Run.ordered .lessThan v (.int 0)
      return match v with
        | .fixed .. | .float .half _ | .float .single _ | .float .double _ => .flag negative
        | _ => .bool negative)
  else if c = counter && name = "doubled" then
    some ("total", fun v => Run.operate (.arithmetic .multiply) .object v (.int 2))
  else if c = thermostat && name = "anything" then some ("_target", fun v => Run.newList [v])
  else none

/-- The value that an object itself holds. -/
def readAttribute (target : Value) (name : String) : Run Value := do
  match attributes? (← get) target with
  | some (_, _, as) =>
    match as.lookup name with
    | some v => return v
    | none => Run.host .attribute
  | none => Run.host .attribute

def writeAttribute (target : Value) (name : String) (v : Value) : Run Unit := do
  match attributes? (← get) target with
  | some (a, c, as) =>
    if mayHold c name then modify (·.set a (.object c (put name v as)))
    else Run.host .attribute
  | none => Run.host .attribute

/-- Gives an attribute by name, where the property of a class hides what the object holds. A
property may itself go through the properties of a class below. -/
def readThrough : Nat → Value → String → Run Value
  | 0, _, _ => Run.host .attribute
  | depth + 1, target, name => do
    match attributes? (← get) target with
    | none => Run.host .attribute
    | some (_, c, _) =>
      match propertyOf? c name with
      | none => readAttribute target name
      | some (d, readable, _) =>
        if !readable then Run.host .attribute
        else if d = shadow then return .str "shadow"
        else
          match storedAs d name, computed? d name with
          | some n, _ => readThrough depth target n
          | none, some (n, f) => f (← readThrough depth target n)
          | none, none => Run.host .attribute

def writeThrough : Nat → Value → String → Value → Run Unit
  | 0, _, _, _ => Run.host .attribute
  | depth + 1, target, name, v => do
    match attributes? (← get) target with
    | none => Run.host .attribute
    | some (_, c, _) =>
      match propertyOf? c name with
      | none => writeAttribute target name v
      | some (d, _, writable) =>
        match if writable then storedAs d name else none with
        | some n => writeThrough depth target n v
        | none => Run.host .attribute

/-- No property leads through more than two others. -/
def throughProperties : Nat := 4

def readField (target : Value) (name : String) : Run Value :=
  readThrough throughProperties target name

def writeField (target : Value) (name : String) (v : Value) : Run Unit :=
  writeThrough throughProperties target name v

/-- Runs the getter of a class on any value. -/
def readProperty (c : ClassName) (name : String) (target : Value) : Run Value := do
  if c = shadow then return .str "shadow"
  match storedAs c name, computed? c name with
  | some n, _ => readField target n
  | none, some (n, f) => f (← readField target n)
  | none, none => Run.host .attribute

def writeProperty (c : ClassName) (name : String) (target v : Value) : Run Unit := do
  match storedAs c name with
  | some n => writeField target n v
  | none => Run.host .attribute

/-! ## Making instances -/

/-- What the instances of a class are made with: names, and the values they have by default. -/
def defaults? (c : ClassName) : Option (List (String × Value)) :=
  if c = shape then some [("sides", .int 0)]
  else if c = circle then some [("radius", .float .general Binary.one)]
  else if c = account then some [("balance", .int 0)]
  else if c = counter || c = labelledCounter || c = shadow then some [("total", .int 0), ("label", .str "")]
  else if c = point then some [("x", .int 0), ("y", .int 0)]
  else if c = thermostat then some [("_target", .int 0)]
  else if c = greeter then some [("prefix", .str "")]
  else if c = pair then some [("first", .none), ("second", .none)]
  else if c = deferred then some [("amount", .int 0)]
  else if c = inner then some [("depth", .int 0)]
  else if c = localBox then some [("content", .int 0)]
  else if c = ambiguous || c = outer || c = unit then some []
  else none

/-- What instances hold besides. -/
def extras (c : ClassName) : List (String × Value) :=
  if c = circle then [("sides", .int 1)]
  else if c = thermostat then [("step", .fixed ⟨true, .w16⟩ 1)]
  else if c = greeter then [("nickname", .none)]
  else []

/-- Gives an object its first attributes, in the way the constructor of a class does. -/
def setUp (c : ClassName) (target : Value) (arguments : List Value) : Run Value := do
  match defaults? c with
  | none => Run.host .type
  | some ds =>
    if arguments.length > ds.length then Run.host .type
    for (n, v) in (ds.map (·.1)).zip (arguments ++ (ds.drop arguments.length).map (·.2)) do
      writeField target n v
    for (n, v) in extras c do
      writeField target n v
    return .none

/-- Makes an instance of a class. -/
def make (c : ClassName) (arguments : List Value) : Run Value := do
  let target ← Run.alloc (.object c [])
  let _ ← setUp c target arguments
  return target

/-! ## Methods -/

/-- The sum of some values, from zero. -/
def sumFrom (start : Value) (vs : List Value) : Run Value :=
  vs.foldlM (fun total v => Run.operate (.arithmetic .add) .object total v) start

/-- Adds to an attribute and gives the sum. -/
def addTo (target : Value) (name : String) (amount : Value) : Run Value := do
  let sum ← Run.operate (.arithmetic .add) .object (← readField target name) amount
  writeField target name sum
  readField target name

def times (v w : Value) : Run Value :=
  Run.operate (.arithmetic .multiply) .object v w

variable (apply : Apply)

open Query (one two oneAnd)

def counterMethods : List (String × Query.Operator) :=
  [("add", two fun target amount => addTo target "total" amount),
   ("reset", one fun target => do
      writeField target "total" (.int 0)
      return .none),
   ("twice", one fun v => times v (.int 2)),
   ("create", one fun total => make counter [total]),
   ("pick", two fun items selector => do
      Run.newList (← Query.map (Query.call apply selector) (← Query.source items))),
   ("wrap", two fun target v => do times (← Run.newList [v]) (← readField target "total")),
   ("scale", oneAnd 1 fun v rest => times v (rest.headD (.int 2))),
   ("maybe", one fun v => return v),
   ("untyped", two fun a b => Run.newList [a, b]),
   ("variadic", fun values =>
      match values with
      | _ :: first :: rest => do Run.operate (.arithmetic .add) .object first (← sumFrom (.int 0) rest)
      | _ => Run.host .type),
   ("_hidden", one fun _ => return .none)]

/-- The methods that a class has by name; the instance, if there is one, is the first value. -/
def methods (c : ClassName) : List (String × Query.Operator) :=
  if c = shape then [("describe", one fun _ => return .str "shape")]
  else if c = circle then [("describe", one fun _ => return .str "circle")]
  else if c = account then
    [("deposit", two fun target amount => addTo target "balance" amount),
     ("fee", one fun amount => Run.ofResult (Arithmetic.onNumbers Number.floorDiv amount (.int 10))),
     ("open", one fun balance => make account [balance])]
  else if c = counter then counterMethods apply
  else if c = labelledCounter then
    [("add", two fun target amount => do addTo target "total" (← times (.int 10) amount))]
  else if c = thermostat then
    [("_store", two fun target v => do
        writeField target "_target" v
        return .none)]
  else if c = greeter then
    [("greet", two fun target who => do Run.operate (.arithmetic .add) .object (← readField target "prefix") who)]
  else if c = pair then
    [("head", one fun target => readField target "first"),
     ("swap", one fun target => do
        let second ← readField target "second"
        make pair [second, ← readField target "first"]),
     ("make", one fun v => Run.newList [v])]
  else if c = deferred then [("plain", two fun _ factor => return factor)]
  else if c = ambiguous then [("pick", one fun v => return v)]
  else if c = inner then
    [("deeper", one fun target => do
        make inner [← Run.operate (.arithmetic .add) .object (← readField target "depth") (.int 1)])]
  else if c = localBox then [("open", one fun target => readField target "content")]
  else if c = unit then [("one", fun values => if values.isEmpty then return .int 1 else Run.host .type)]
  else []

/-- Runs a method of a class of this host; the instance, if there is one, comes first. -/
def invoke (c : ClassName) (name : String) (values : List Value) : Run Value :=
  if name = "__init__" then
    match values with
    | target :: arguments => setUp c target arguments
    | [] => Run.host .type
  else Query.runIn (methods apply c) name values

/-- The sample host. -/
def host : Host where
  library := library
  invoke apply m values :=
    if m.declaring.module = "builtins" then Builtin.invoke m.declaring m.name values
    else if m.declaring = Standard.enumerable then Query.run apply m.name values
    else invoke apply m.declaring m.name values
  readField := readField
  writeField := writeField
  readProperty := readProperty
  writeProperty := writeProperty

end ExprTree.Sample
