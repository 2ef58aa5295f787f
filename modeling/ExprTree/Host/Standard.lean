import ExprTree.Host.Library

/-!
# The standard classes

The built-in classes with their methods, the numeric classes of fixed width,
the abstract classes of collections, the query operators, and the modules that
export them. A host adds its own classes and modules to these.
-/

namespace ExprTree.Standard

/-- A class whose body declares nothing that can be found by name. -/
def plainClass (name : ClassName) (ancestors : List ClassName) : ClassInfo :=
  ⟨name, ancestors, [], [], [], [], []⟩

/-- A built-in class with its methods and their parameters. -/
def builtinClass (path : String) (ancestors : List ClassName) (methods : List (String × List String)) :
    ClassInfo :=
  { plainClass (.builtin path) ancestors with attributes := methods.map fun (n, ps) => (n, .native ps) }

/-! ## Built-in classes -/

def iterable : ClassName := .abstract "Iterable"
def sized : ClassName := .abstract "Sized"
def sequence : List ClassName := [.abstract "Sequence", iterable, sized]
def mapping : List ClassName := [.abstract "Mapping", iterable, sized]

def textMethods : List (String × List String) :=
  [("upper", []), ("lower", []), ("swapcase", []), ("isdigit", []), ("isupper", []), ("title", []),
   ("strip", ["chars"]), ("lstrip", ["chars"]), ("replace", ["old", "new", "count"]),
   ("removeprefix", ["prefix"]), ("zfill", ["width"]), ("split", ["sep", "maxsplit"]),
   ("join", ["iterable"]), ("encode", ["encoding", "errors"])]

def listMethods : List (String × List String) :=
  [("append", ["object"]), ("reverse", []), ("count", ["value"]), ("pop", ["index"]), ("clear", []),
   ("index", ["value", "start", "stop"]), ("sort", ["key", "reverse"]), ("extend", ["iterable"]),
   ("insert", ["index", "object"])]

def intMethods : List (String × List String) :=
  [("bit_length", []), ("as_integer_ratio", [])]

def dictMethods : List (String × List String) :=
  [("get", ["key", "default"]), ("keys", [])]

def builtinClasses : List ClassInfo :=
  [builtinClass "object" [] [],
   builtinClass "bool" [.builtin "int"] [],
   builtinClass "int" [] intMethods,
   builtinClass "float" [] [],
   builtinClass "str" sequence textMethods,
   builtinClass "bytes" sequence [],
   builtinClass "list" sequence listMethods,
   builtinClass "tuple" sequence [],
   builtinClass "dict" mapping dictMethods,
   builtinClass "dict_keys" [iterable, sized] [],
   builtinClass "set" [iterable, sized] [],
   builtinClass "frozenset" [iterable, sized] [],
   builtinClass "range" sequence [],
   builtinClass "complex" [] [],
   builtinClass "type" [.abstract "Callable"] [],
   builtinClass "function" [.abstract "Callable"] [],
   plainClass .nothing []]

/-! ## Other classes -/

def abstractClasses : List ClassInfo :=
  [plainClass iterable [],
   plainClass sized [],
   plainClass (.abstract "Callable") [],
   plainClass (.abstract "Sequence") [iterable, sized],
   plainClass (.abstract "Mapping") [iterable, sized]]

def numericClasses : List ClassInfo :=
  IntType.all.map (fun t => plainClass (.ofIntType t) []) ++
    [plainClass FloatKind.half.className [],
     plainClass FloatKind.single.className [],
     plainClass FloatKind.double.className [.builtin "float"],
     plainClass ⟨"numpy", "bool"⟩ [],
     plainClass .decimal []]

def otherClasses : List ClassInfo :=
  [plainClass .anything [],
   plainClass .char (.builtin "str" :: sequence)]

/-! ## Query operators -/

def enumerable : ClassName := ⟨"exprson.query.enumerable", "Enumerable"⟩

def tSource : Ty := .variable "TSource"
def tSecond : Ty := .variable "TSecond"
def tResult : Ty := .variable "TResult"
def tKey : Ty := .variable "TKey"
def tAccumulate : Ty := .variable "TAccumulate"

def seqOf (t : Ty) : Ty := .close .iterable [t]
def listOf (t : Ty) : Ty := .close .list [t]
def fn (parameters : List Ty) (result : Ty) : Ty := .function parameters result

/-- The sources and functions that most operators take. -/
def source : String × Ty := ("source", seqOf tSource)
def predicate : String × Ty := ("predicate", fn [tSource] .bool)
def keySelector : String × Ty := ("key_selector", fn [tSource] tKey)
def selector (result : Ty) : String × Ty := ("selector", fn [tSource] result)
def first : String × Ty := ("first", seqOf tSource)
def seed : String × Ty := ("seed", tAccumulate)
def step : String × Ty := ("func", fn [tAccumulate, tSource] tAccumulate)

/-- A prototype all of whose types are known. -/
def prototype (parameters : List (String × Ty)) (result : Ty)
    (hp : ∀ p ∈ parameters, p.2.isOpen = false := by decide) (hr : result.isOpen = false := by decide) :
    Prototype :=
  ⟨parameters.attach.map fun p => (p.1.1, .resolved p.1.2 (hp p.1 p.2)), .resolved result hr, none⟩

/-- An operator with its overloads. -/
def operator (name : String) (overloads : List Prototype) : String × Attribute :=
  (name, .method .free overloads)

def operators : List (String × Attribute) :=
  [operator "where" [prototype [source, predicate] (listOf tSource)],
   operator "select" [prototype [source, selector tResult] (listOf tResult)],
   operator "select_many" [prototype [source, selector (seqOf tResult)] (listOf tResult)],
   operator "take" [prototype [source, ("count", .int)] (listOf tSource)],
   operator "skip" [prototype [source, ("count", .int)] (listOf tSource)],
   operator "take_while" [prototype [source, predicate] (listOf tSource)],
   operator "skip_while" [prototype [source, predicate] (listOf tSource)],
   operator "distinct" [prototype [source] (listOf tSource)],
   operator "reverse" [prototype [source] (listOf tSource)],
   operator "concat" [prototype [first, ("second", seqOf tSource)] (listOf tSource)],
   operator "order_by" [prototype [source, keySelector] (listOf tSource)],
   operator "order_by_descending" [prototype [source, keySelector] (listOf tSource)],
   operator "group_by" [prototype [source, keySelector] (.close .dict [tKey, listOf tSource])],
   operator "to_dict" [prototype [source, keySelector] (.close .dict [tKey, tSource])],
   operator "to_list" [prototype [source] (listOf tSource)],
   operator "first" [prototype [source] tSource, prototype [source, predicate] tSource],
   operator "last" [prototype [source] tSource, prototype [source, predicate] tSource],
   operator "element_at" [prototype [source, ("index", .int)] tSource],
   operator "any" [prototype [source] .bool, prototype [source, predicate] .bool],
   operator "all" [prototype [source, predicate] .bool],
   operator "contains" [prototype [source, ("value", tSource)] .bool],
   operator "sequence_equal" [prototype [first, ("second", seqOf tSource)] .bool],
   operator "count" [prototype [source] .int, prototype [source, predicate] .int],
   operator "sum"
    [prototype [("source", seqOf .int)] .int,
     prototype [("source", seqOf .float)] .float,
     prototype [("source", seqOf .decimal)] .decimal,
     prototype [source, selector .int] .int,
     prototype [source, selector .float] .float],
   operator "average"
    [prototype [("source", seqOf .int)] .float,
     prototype [("source", seqOf .float)] .float],
   operator "min" [prototype [source] tSource, prototype [source, selector tResult] tResult],
   operator "max" [prototype [source] tSource, prototype [source, selector tResult] tResult],
   operator "aggregate"
    [prototype [source, ("func", fn [tSource, tSource] tSource)] tSource,
     prototype [source, seed, step] tAccumulate,
     prototype [source, seed, step, ("result_selector", fn [tAccumulate] tResult)] tResult],
   operator "zip"
    [prototype [first, ("second", seqOf tSecond)] (listOf (.close .tuple [tSource, tSecond])),
     prototype [first, ("second", seqOf tSecond), ("result_selector", fn [tSource, tSecond] tResult)]
      (listOf tResult)],
   operator "range" [prototype [("start", .int), ("count", .int)] (listOf .int)],
   operator "repeat" [prototype [("element", tResult), ("count", .int)] (listOf tResult)],
   operator "empty" [prototype [] (listOf tResult)]]

def enumerableClass : ClassInfo :=
  { plainClass enumerable [] with attributes := operators }

def classes : List ClassInfo :=
  builtinClasses ++ abstractClasses ++ numericClasses ++ otherClasses ++ [enumerableClass]

/-! ## Modules -/

/-- Exports a class under its own name. -/
def exported (c : ClassName) : String × Export :=
  (c.path, .type (.cls c))

/-- Exports modules inside a package. -/
def submodules (package : String) (names : List String) : List (String × Export) :=
  names.map fun n => (n, .module (package ++ "." ++ n))

def builtinNames : List String :=
  ["bool", "bytes", "complex", "dict", "float", "frozenset", "int", "list", "object", "range", "set", "str",
   "tuple", "type"]

def abstractNames : List String :=
  ["Callable", "Iterable", "Mapping", "Sequence", "Sized"]

def numericNames : List (String × ClassName) :=
  let named (name : String) (target : String) : String × ClassName := (name, ⟨"numpy", target⟩)
  [named "bool" "bool", named "bool_" "bool", named "byte" "int8", named "double" "float64",
   named "float16" "float16", named "float32" "float32", named "float64" "float64", named "half" "float16",
   named "int16" "int16", named "int32" "int32", named "int64" "int64", named "int8" "int8",
   named "int_" "int64", named "intc" "int32", named "intp" "int64", named "long" "int64",
   named "short" "int16", named "single" "float32", named "ubyte" "uint8", named "uint" "uint64",
   named "uint16" "uint16", named "uint32" "uint32", named "uint64" "uint64", named "uint8" "uint8",
   named "uintc" "uint32", named "uintp" "uint64", named "ulong" "uint64", named "ushort" "uint16"]

/-- The names that the modules about types and values take from elsewhere. -/
def anything : String × Export := exported .anything
def decimal : String × Export := exported .decimal
def callable : String × Export := exported (.abstract "Callable")
def char : String × Export := exported .char

def modules : List ModuleInfo :=
  [⟨"sys", []⟩,
   ⟨"builtins", builtinNames.map fun n => exported (.builtin n)⟩,
   ⟨"types", [exported .nothing, ("FunctionType", .type (.cls (.builtin "function")))]⟩,
   ⟨"collections.abc", abstractNames.map fun n => exported (.abstract n)⟩,
   ⟨"collections", [("abc", .module "collections.abc")]⟩,
   ⟨"typing", [anything, ("Union", .type .union), ("collections", .module "collections"),
     ("sys", .module "sys"), ("types", .module "types")]⟩,
   ⟨"decimal", [decimal]⟩,
   ⟨"json", []⟩,
   ⟨"numpy", numericNames.map fun (n, c) => (n, .type (.cls c))⟩,
   ⟨"exprson", submodules "exprson"
     ["cli", "compiler", "config", "documents", "errors", "model", "query", "serialization", "signature"]⟩,
   ⟨"exprson.errors", [anything]⟩,
   ⟨"exprson.model.types", [char, decimal, anything, callable, exported .nothing,
     ("collections", .module "collections"), ("np", .module "numpy"), ("types", .module "types"),
     ("typing", .module "typing")]⟩,
   ⟨"exprson.model.members", [anything, callable, ("types", .module "types"), ("typing", .module "typing")]⟩,
   ⟨"exprson.model.nodes", [char, anything, ("builtins", .module "builtins"),
     ("collections", .module "collections")]⟩,
   ⟨"exprson.model.encoded", []⟩,
   ⟨"exprson.model", char :: submodules "exprson.model" ["encoded", "members", "nodes", "types"]⟩,
   ⟨"exprson.signature.parser", []⟩,
   ⟨"exprson.signature.resolver", [anything, callable, ("sys", .module "sys"), ("typing", .module "typing")]⟩,
   ⟨"exprson.signature.codec", [anything, exported .nothing, exported iterable, ("typing", .module "typing")]⟩,
   ⟨"exprson.signature", submodules "exprson.signature" ["codec", "parser", "resolver"]⟩,
   ⟨"exprson.serialization.policy", [anything]⟩,
   ⟨"exprson.serialization.state", []⟩,
   ⟨"exprson.serialization.dispatch", [char, decimal, anything, callable, ("np", .module "numpy")]⟩,
   ⟨"exprson.serialization.serializer", []⟩,
   ⟨"exprson.serialization", submodules "exprson.serialization" ["dispatch", "policy", "serializer", "state"]⟩,
   ⟨"exprson.compiler.arithmetic", [char, decimal, anything, callable, exported .nothing,
     ("np", .module "numpy")]⟩,
   ⟨"exprson.compiler.evaluator", [anything, callable, ("arithmetic", .module "exprson.compiler.arithmetic")]⟩,
   ⟨"exprson.compiler", submodules "exprson.compiler" ["arithmetic", "evaluator"]⟩,
   ⟨"exprson.documents.formats", [anything, ("json", .module "json")]⟩,
   ⟨"exprson.documents", submodules "exprson.documents" ["formats"]⟩,
   ⟨"exprson.config.policy_file", []⟩,
   ⟨"exprson.config", submodules "exprson.config" ["policy_file"]⟩,
   ⟨"exprson.query.enumerable", [exported enumerable, anything, decimal, callable, exported iterable,
     ("builtins", .module "builtins")]⟩,
   ⟨"exprson.query", exported enumerable :: submodules "exprson.query" ["enumerable"]⟩,
   ⟨"exprson.cli.main", [("sys", .module "sys")]⟩,
   ⟨"exprson.cli", submodules "exprson.cli" ["main"]⟩]

/-- The packages whose names lead anywhere. -/
def packages : List String :=
  ["builtins", "collections", "typing", "json", "types", "sys", "decimal"]

/-- The standard library with classes and modules of a host: those that are loaded from the start,
and those that can be loaded. -/
def extended (more : List ClassInfo) (present loadable : List ModuleInfo) : Library :=
  let loaded := modules ++ present
  ⟨classes ++ more, loaded ++ loadable, loaded.map (·.name), packages⟩

end ExprTree.Standard
