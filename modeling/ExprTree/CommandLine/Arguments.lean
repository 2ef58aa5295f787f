/-!
# Arguments of the command line

Three commands with their operands and options. Options may stand anywhere
after the command, a long one may be cut short while it stays the only one
that fits, and its value may follow an equals sign. Two hyphens end options.
-/

namespace ExprTree.CommandLine

inductive Command where
  | inspect (file : String)
  | check (file : String) (policy : Option String) (allowsAllCalls loadsModules : Bool)
  | convert (source destination : String)
deriving DecidableEq, Repr

/-- What the arguments ask for. -/
inductive Request where
  | help
  | misuse
  | run (verbose : Bool) (c : Command)
deriving DecidableEq, Repr

def Request.isVerbose : Request → Bool
  | .run verbose _ => verbose
  | _ => false

/-- An option that is understood. -/
structure OptionSpec where
  names : List String
  takesValue : Bool
deriving DecidableEq, Repr

def helpOption : OptionSpec := ⟨["-h", "--help"], false⟩
def verboseOption : OptionSpec := ⟨["-v", "--verbose"], false⟩
def policyOption : OptionSpec := ⟨["--policy"], true⟩
def unsafeOption : OptionSpec := ⟨["--allow-unsafe"], false⟩
def importsOption : OptionSpec := ⟨["--allow-imports"], false⟩

/-- What one argument is. -/
inductive Argument where
  | operand (s : String)
  | option (o : OptionSpec) (value : Option String)
  /-- Several short options in one. -/
  | cluster (o : OptionSpec) (rest : List Char)
  | unknown
  | ambiguous
deriving Repr

/-- The part before the first equals sign and, if there is one, the part after it. -/
def splitEquals (cs : List Char) : List Char × Option String :=
  match cs.dropWhile (· ≠ '=') with
  | [] => (cs, none)
  | _ :: value => (cs.takeWhile (· ≠ '='), some (String.ofList value))

def named? (options : List OptionSpec) (name : List Char) : Option OptionSpec :=
  options.find? (·.names.contains (String.ofList name))

/-- The options one of whose names starts with the given one. -/
def startingWith (options : List OptionSpec) (name : List Char) : List OptionSpec :=
  options.flatMap fun o => (o.names.filter fun n => name.isPrefixOf n.toList).map fun _ => o

/-- Is it a number with a minus sign? -/
def isNegativeNumber (cs : List Char) : Bool :=
  match cs with
  | '-' :: ds =>
    let whole := ds.takeWhile Char.isDigit
    match ds.dropWhile Char.isDigit with
    | [] => !whole.isEmpty
    | '.' :: places => !places.isEmpty && places.all Char.isDigit
    | _ => false
  | _ => false

/-- What remains for an argument that starts with a hyphen and fits no option. -/
def stray (s : String) : Argument :=
  if isNegativeNumber s.toList || s.toList.contains ' ' then .operand s else .unknown

/-- Tells what an argument is, given the options that are understood. -/
def classify (options : List OptionSpec) (s : String) : Argument :=
  let cs := s.toList
  match cs with
  | '-' :: second :: rest =>
    match named? options cs with
    | some o => .option o none
    | none =>
      let (name, value) := splitEquals cs
      match if value.isSome then named? options name else none with
      | some o => .option o value
      | none =>
        if second = '-' then
          match startingWith options name with
          | [] => stray s
          | [o] => .option o value
          | _ => .ambiguous
        else
          match named? options ['-', second] with
          | some o => .cluster o rest
          | none => stray s
  | _ => .operand s

/-- Does an argument before the end of options fit several of them? -/
def hasAmbiguous (options : List OptionSpec) (arguments : List String) : Bool :=
  (arguments.takeWhile (· ≠ "--")).any fun s =>
    match classify options s with
    | .ambiguous => true
    | _ => false

/-! ## Reading arguments one after the other -/

/-- What was read so far. -/
structure Found where
  operands : List String
  /-- Options with their values, the latest first. -/
  options : List (OptionSpec × String)
  /-- There was an argument that nothing asks for. -/
  surplus : Bool

/-- The end of reading: a complete list, or a request that needs none. -/
inductive Reading where
  | found (f : Found)
  | help
  | misuse

def addOption (f : Found) (o : OptionSpec) (value : String) : Found :=
  { f with options := (o, value) :: f.options }

/-- Short options after a first one, none of which takes a value; what fits none of them is
surplus. Says whether help is among them. -/
def cluster (options : List OptionSpec) (f : Found) : OptionSpec → List Char → Option (Found × Bool)
  | o, [] => some (addOption f o "", o = helpOption)
  | o, c :: cs =>
    if c = '-' || c = '=' then none
    else
      let f := addOption f o ""
      match named? options ['-', c] with
      | none => some ({ f with surplus := true }, o = helpOption)
      | some next => (cluster options f next cs).map fun (f, help) => (f, help || o = helpOption)

/-- Takes an operand while one of `slots` is free. -/
def takeOperand (slots : Nat) (f : Found) (s : String) : Found :=
  if f.operands.length < slots then { f with operands := f.operands ++ [s] } else { f with surplus := true }

/-- Reads arguments. `slots` operands are wanted, and `after` says whether an operand came just
before; beside one of them, the mark that ends options disappears. -/
def readArguments (options : List OptionSpec) (slots : Nat) (literal after : Bool) (f : Found) :
    List String → Reading
  | [] => .found f
  | s :: rest =>
    let isFree := f.operands.length < slots
    if literal then readArguments options slots true isFree (takeOperand slots f s) rest
    else if s = "--" then
      let vanishes := after || (isFree && !rest.isEmpty)
      readArguments options slots true false { f with surplus := f.surplus || !vanishes } rest
    else
      match classify options s with
      | .operand s => readArguments options slots false isFree (takeOperand slots f s) rest
      | .unknown => readArguments options slots false false { f with surplus := true } rest
      | .ambiguous => .misuse
      | .cluster o cs =>
        match cluster options f o cs with
        | none => .misuse
        | some (f, help) => if help then .help else readArguments options slots false false f rest
      | .option o value =>
        if o.takesValue then
          match value, rest with
          | some v, rest => readArguments options slots false false (addOption f o v) rest
          | none, [] => .misuse
          | none, v :: rest =>
            match if v = "--" then Argument.unknown else classify options v with
            | .operand v => readArguments options slots false false (addOption f o v) rest
            | _ => .misuse
        else if value.isSome then .misuse
        else if o = helpOption then .help
        else readArguments options slots false false (addOption f o "") rest

def nothing : Found := ⟨[], [], false⟩

/-- Reads what follows the name of a command. -/
def readCommand (name : String) (rest : List String) (verbose surplus : Bool) : Request :=
  let read (options : List OptionSpec) (slots : Nat) (make : List String → List (OptionSpec × String) → Option Command) :
      Request :=
    if hasAmbiguous (helpOption :: options) rest then .misuse
    else match readArguments (helpOption :: options) slots false false nothing rest with
    | .help => .help
    | .misuse => .misuse
    | .found f =>
      match make f.operands f.options with
      | some c => if f.surplus || surplus then .misuse else .run verbose c
      | none => .misuse
  match name with
  | "inspect" => read [] 1 fun operands _ =>
    match operands with
    | [file] => some (.inspect file)
    | _ => none
  | "check" => read [policyOption, unsafeOption, importsOption] 1 fun operands options =>
    match operands with
    | [file] => some (.check file (options.lookup policyOption) (options.lookup unsafeOption).isSome
        (options.lookup importsOption).isSome)
    | _ => none
  | "convert" => read [] 2 fun operands _ =>
    match operands with
    | [source, destination] => some (.convert source destination)
    | _ => none
  | _ => .misuse

/-- Reads the arguments up to the name of a command, and then the rest. No command asks for help. -/
def readRequest (verbose surplus : Bool) : List String → Request
  | [] => if surplus then .misuse else .help
  | s :: rest =>
    if s = "--" then .misuse
    else
      let options := [helpOption, verboseOption]
      match classify options s with
      | .operand name => readCommand name rest verbose surplus
      | .unknown => readRequest verbose true rest
      | .ambiguous => .misuse
      | .cluster o cs =>
        match cluster options nothing o cs with
        | none => .misuse
        | some (f, help) =>
          if help then .help
          else readRequest (verbose || (f.options.lookup verboseOption).isSome) (surplus || f.surplus) rest
      | .option o value =>
        if value.isSome then .misuse
        else if o = helpOption then .help
        else readRequest true surplus rest

/-- What a list of arguments asks for. -/
def Request.ofArguments (arguments : List String) : Request :=
  if hasAmbiguous [helpOption, verboseOption] arguments then .misuse
  else readRequest false false arguments

end ExprTree.CommandLine
