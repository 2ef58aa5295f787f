import ExprTree.Query
import ExprTree.Text.Case

/-!
# Built-in methods

The methods of texts, lists, dictionaries and integers. They check their
instance and arguments themselves, change lists in place, and give none when
they have nothing to say.
-/

namespace ExprTree.Builtin

/-! ## Texts -/

/-- Replaces occurrences of a non-empty text, at most `limit` of them. -/
def replaceFrom (old new : List Char) : Nat → Nat → List Char → List Char
  | _, _, [] => []
  | 0, _, cs => cs
  | _, 0, cs => cs
  | fuel + 1, limit + 1, c :: cs =>
    if old.isPrefixOf (c :: cs) then new ++ replaceFrom old new fuel limit ((c :: cs).drop old.length)
    else c :: replaceFrom old new fuel (limit + 1) cs

/-- Puts a text before each character and at the end, at most `limit` times. -/
def interleave (new : List Char) : Nat → List Char → List Char
  | 0, cs => cs
  | _ + 1, [] => new
  | limit + 1, c :: cs => new ++ c :: interleave new limit cs

/-- Replaces a text in another; a negative limit is none. -/
def replace (s old new : String) (limit : Int) : String :=
  let cs := s.toList
  let n := if limit < 0 then cs.length + 1 else limit.toNat
  String.ofList (if old.isEmpty then interleave new.toList n cs
    else replaceFrom old.toList new.toList cs.length n cs)

/-- The parts between occurrences of a non-empty text. -/
def splitFrom (sep : List Char) : Nat → Nat → List Char → List Char → List (List Char)
  | 0, _, part, cs => [part.reverse ++ cs]
  | _, 0, part, cs => [part.reverse ++ cs]
  | _, _, part, [] => [part.reverse]
  | fuel + 1, limit + 1, part, c :: cs =>
    if sep.isPrefixOf (c :: cs) then part.reverse :: splitFrom sep fuel limit [] ((c :: cs).drop sep.length)
    else splitFrom sep fuel (limit + 1) (c :: part) cs

/-- The words between blanks; what is left after `limit` of them stays whole. -/
def wordsFrom : Nat → Nat → List Char → List (List Char)
  | 0, _, _ => []
  | fuel + 1, limit, cs =>
    match cs.dropWhile Text.isBlank with
    | [] => []
    | cs =>
      match limit with
      | 0 => [cs]
      | limit + 1 => cs.takeWhile (!Text.isBlank ·) :: wordsFrom fuel limit (cs.dropWhile (!Text.isBlank ·))

def parts (s : String) (sep : Option String) (limit : Int) : List String :=
  let cs := s.toList
  let n := if limit < 0 then cs.length + 1 else limit.toNat
  (match sep with
    | some t => splitFrom t.toList (cs.length + 1) n [] cs
    | none => wordsFrom (cs.length + 1) n cs).map String.ofList

/-- Fills up to a width with zeros, behind a sign. -/
def zeroFill (s : String) (width : Int) : String :=
  let cs := s.toList
  let zeros := List.replicate (width - cs.length).toNat '0'
  String.ofList (match cs with
    | c :: rest => if c = '+' || c = '-' then c :: (zeros ++ rest) else zeros ++ cs
    | [] => zeros)

def text (v : Value) : Run String :=
  match v.text? with
  | some s => return s
  | none => Run.host .type

/-- The characters to strip: those of a text, or blanks. -/
def strippable (args : List Value) : Run (Char → Bool) := do
  match Query.optional args with
  | some v =>
    let cs := (← text v).toList
    return fun c => cs.contains c
  | none => return Text.isBlank

def texts : List Value → Run (List String)
  | [] => return []
  | v :: vs => do
    let s ← text v
    return s :: (← texts vs)

/-- The bytes of a text in an encoding of one byte for each of the first `size` characters. -/
def narrowBytes (size : Nat) (errors : String) : List Char → Run (List UInt8)
  | [] => return []
  | c :: cs => do
    let rest := narrowBytes size errors cs
    if c.toNat < size then return c.toNat.toUInt8 :: (← rest)
    else if errors = "ignore" then rest
    else if errors = "replace" then return '?'.toNat.toUInt8 :: (← rest)
    else Run.host .value

def encode (s encoding errors : String) : Run Value :=
  let name := encoding.toLower.replace "_" "-"
  if name = "utf-8" || name = "utf8" then return .bytes s.toUTF8.data.toList
  else if name = "ascii" || name = "us-ascii" then return .bytes (← narrowBytes 0x80 errors s.toList)
  else if name = "latin-1" || name = "latin1" || name = "iso-8859-1" then
    return .bytes (← narrowBytes 0x100 errors s.toList)
  else Run.host .type

/-- A method of a text. -/
def ofText (name : String) (s : String) (args : List Value) : Run Value := do
  match name, args with
  | "upper", [] => return .str (Text.upper s)
  | "lower", [] => return .str (Text.lower s)
  | "swapcase", [] => return .str (Text.swapCase s)
  | "title", [] => return .str (Text.title s)
  | "isdigit", [] => return .bool (!s.isEmpty && s.toList.all Text.isDigit)
  | "isupper", [] => return .bool (Text.isUpper s)
  | "strip", [] | "strip", [_] =>
    let p ← strippable args
    return .str (String.ofList (Text.trimWhere p s.toList))
  | "lstrip", [] | "lstrip", [_] =>
    let p ← strippable args
    return .str (String.ofList (s.toList.dropWhile p))
  | "replace", old :: new :: rest =>
    let old ← text old
    let new ← text new
    match rest with
    | [] => return .str (replace s old new (-1))
    | [n] => return .str (replace s old new (← Query.index n))
    | _ => Run.host .type
  | "removeprefix", [before] =>
    let cs := (← text before).toList
    return .str (if cs.isPrefixOf s.toList then String.ofList (s.toList.drop cs.length) else s)
  | "zfill", [width] => return .str (zeroFill s (← Query.index width))
  | "split", args =>
    if args.length > 2 then Run.host .type
    let sep ← (Query.optional (args.take 1)).mapM text
    let limit ← match args.drop 1 with
      | [n] => Query.index n
      | _ => pure (-1)
    if sep = some "" then Run.host .value
    Run.newList ((parts s sep limit).map .str)
  | "join", [source] =>
    let vs ← Query.items source
    return .str (s.intercalate (← texts vs))
  | "encode", [] => encode s "utf-8" "strict"
  | "encode", [e] => encode s (← text e) "strict"
  | "encode", [e, errors] => encode s (← text e) (← text errors)
  | _, _ => Run.host .type

/-! ## Lists -/

/-- Items from and up to places that may count from the end. -/
def bound (length : Nat) (i : Int) : Nat :=
  if i < 0 then (i + length).toNat else min i.toNat length

/-- Removes the item at a place. -/
def pop (a : Nat) (vs : List Value) (i : Int) : Run Value := do
  let i := if i < 0 then i + vs.length else i
  match if i < 0 then none else vs[i.toNat]? with
  | some v =>
    modify (·.set a (.list (vs.eraseIdx i.toNat)))
    return v
  | none => Run.host .index

/-- The place of the first item equal to a value. -/
def indexOf (h : Heap) (w : Value) : Nat → List Value → Except Fault (Option Nat)
  | _, [] => .ok none
  | i, v :: vs => do if ← h.equal v w then return some i else indexOf h w (i + 1) vs

def position (vs : List Value) (v : Value) (start stop : Nat) : Run Value := do
  match ← Run.ofResult (indexOf (← get) v start ((vs.take stop).drop start)) with
  | some i => return .int i
  | none => Run.host .value

def countEqual (h : Heap) (w : Value) : List Value → Except Fault Nat
  | [] => .ok 0
  | v :: vs => do
    let same ← h.equal v w
    return (← countEqual h w vs) + same.toNat

/-- Changes the list at an address and gives none. -/
def change (a : Nat) (vs : List Value) : Run Value := do
  modify (·.set a (.list vs))
  return .none

/-- A method of the list at an address. -/
def ofList (name : String) (a : Nat) (vs : List Value) (args : List Value) : Run Value := do
  match name, args with
  | "append", [v] => change a (vs ++ [v])
  | "reverse", [] => change a vs.reverse
  | "clear", [] => change a []
  | "count", [v] => return .int (← Run.ofResult (countEqual (← get) v vs))
  | "pop", [] => if vs.isEmpty then Run.host .index else pop a vs (-1)
  | "pop", [i] => pop a vs (← Query.index i)
  | "index", [v] => position vs v 0 vs.length
  | "index", [v, start] => position vs v (bound vs.length (← Query.index start)) vs.length
  | "index", [v, start, stop] =>
    let low := bound vs.length (← Query.index start)
    position vs v low (bound vs.length (← Query.index stop))
  | "sort", [] =>
    let es ← Run.ofResult (Query.sort (← get).less (vs.map fun v => (v, v)))
    change a (es.map (·.2))
  | "extend", [source] => change a (vs ++ (← Query.items source))
  | "insert", [i, v] =>
    let i := bound vs.length (← Query.index i)
    change a (vs.take i ++ v :: vs.drop i)
  | _, _ => Run.host .type

/-! ## Dictionaries and integers -/

/-- A method of the dictionary at an address. -/
def ofDict (name : String) (a : Nat) (es : List (Value × Value)) (args : List Value) : Run Value := do
  match name, args with
  | "get", k :: rest =>
    Query.requireKey k
    match rest with
    | [] => return (Heap.lookup? es k).getD .none
    | [d] => return (Heap.lookup? es k).getD d
    | _ => Run.host .type
  | "keys", [] => return .keys a
  | _, _ => Run.host .type

/-- The number of binary digits of the magnitude. -/
def bitLength (n : Int) : Nat :=
  if n = 0 then 0 else n.natAbs.log2 + 1

def ofInt (name : String) (n : Int) (args : List Value) : Run Value :=
  match name, args with
  | "bit_length", [] => return .int (bitLength n)
  | "as_integer_ratio", [] => return .tuple [.int n, .int 1]
  | _, _ => Run.host .type

/-- Runs a method of a built-in class; the first value is the instance. -/
def invoke (c : ClassName) (name : String) (values : List Value) : Run Value := do
  match values with
  | [] => Run.host .type
  | target :: args =>
    let h ← get
    match c.path, target with
    | "str", .str s => ofText name s args
    | "str", .char x => ofText name (String.singleton x) args
    | "int", .int n => ofInt name n args
    | "int", .bool b => ofInt name b.toNat args
    | "list", .ref a =>
      match h.list? target with
      | some vs => ofList name a vs args
      | none => Run.host .type
    | "dict", .ref a =>
      match h.dict? target with
      | some es => ofDict name a es args
      | none => Run.host .type
    | _, _ => Run.host .type

end ExprTree.Builtin
