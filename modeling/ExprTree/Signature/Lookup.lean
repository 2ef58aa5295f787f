import ExprTree.Host.Library

/-!
# Looking up type names

A dotted name does not say where its module ends, so every split is tried,
the longest module first. Splits inside the hinted package come first; a hint
that names a standard package, or no hint at all, admits every split; last,
the loaded modules are searched for a class that calls itself by the name.
Where loading is allowed, a split may load its module. What was found is
remembered; what was not is looked up again each time.
-/

namespace ExprTree

/-- Which modules are loaded, in order, and which lookups succeeded, the latest first. -/
structure Names where
  loaded : List String
  found : List ((String × Option String × Bool) × Ty)

/-- The lookups that are remembered. -/
def Names.memory : Nat := 1024

namespace Library

/-- The parts between the dots. -/
def dotParts : List Char → List (List Char)
  | [] => [[]]
  | c :: cs =>
    if c = '.' then [] :: dotParts cs
    else
      match dotParts cs with
      | p :: ps => (c :: p) :: ps
      | [] => [[c]]

def parts (name : String) : List String :=
  (dotParts name.toList).map String.ofList

/-- The ways to divide the parts into a module and a path in it, the longest module first. -/
def splits (name : String) : List (String × List String) :=
  let ps := parts name
  (List.range (ps.length - 1)).reverse.map fun i =>
    (".".intercalate (ps.take (i + 1)), ps.drop (i + 1))

def isWithin (package module : String) : Bool :=
  module = package || (package ++ ".").toList.isPrefixOf module.toList

/-- May the text be a part of a module's name? -/
def isIdentifier (s : String) : Bool :=
  match s.toList with
  | [] => false
  | c :: cs =>
    let letter (c : Char) := c.isAlpha || c = '_' || c.toNat ≥ 0x80
    letter c && cs.all fun c => letter c || c.isDigit

/-- Loads the modules on the way to a module one by one, as far as they exist. -/
def loadAlong (l : Library) (loaded : List String) : List String → Bool × List String
  | [] => (true, loaded)
  | m :: ms =>
    if loaded.contains m then loadAlong l loaded ms
    else if (l.module? m).isSome then loadAlong l (loaded ++ [m]) ms
    else (false, loaded)

/-- The modules on the way to a module, outermost first. -/
def enclosing (module : String) : List String :=
  let ps := parts module
  (List.range ps.length).map fun i => ".".intercalate (ps.take (i + 1))

/-- Makes a module available; says whether it is, and which modules are loaded now. -/
def load (l : Library) (loads : Bool) (loaded : List String) (module : String) : Bool × List String :=
  if loaded.contains module then (true, loaded)
  else if loads && (parts module).all isIdentifier then l.loadAlong loaded (enclosing module)
  else (false, loaded)

/-- Follows a path through the classes inside a class. -/
def innerType (l : Library) : Ty → List String → Option Ty
  | t, [] => some t
  | .cls c, p :: ps =>
    match (l.lineage c).findSome? (·.inner.lookup p) with
    | some d => innerType l (.cls d) ps
    | none => none
  | _, _ :: _ => none

/-- Follows a path from a module to a type. -/
def typeAt (l : Library) (module : String) : List String → Option Ty
  | [] => none
  | p :: ps =>
    match (l.module? module).bind (·.exports.lookup p) with
    | some (.type t) => l.innerType t ps
    | some (.module m) => typeAt l m ps
    | none => none

/-- Tries the splits whose module is accepted. -/
def tryModules (l : Library) (loads : Bool) (accepts : String → Bool) :
    List String → List (String × List String) → Option Ty × List String
  | loaded, [] => (none, loaded)
  | loaded, (module, path) :: rest =>
    if accepts module then
      let (available, loaded) := l.load loads loaded module
      match if available then l.typeAt module path else none with
      | some t => (some t, loaded)
      | none => tryModules l loads accepts loaded rest
    else tryModules l loads accepts loaded rest

/-- A class that a loaded module exports and that calls itself by the name. -/
def scan (l : Library) (loaded : List String) (name : String) : Option Ty :=
  loaded.findSome? fun m =>
    (l.module? m).bind fun i =>
      i.exports.findSome? fun
        | (_, .type (.cls c)) => if c.dotted = name then some (.cls c) else none
        | _ => none

/-- Looks a name up without memory. An empty hint counts as none. -/
def find (l : Library) (name : String) (hint : Option String) (loads : Bool) (loaded : List String) :
    Option Ty × List String :=
  let anywhere := fun _ => true
  let (first, loaded) :=
    match hint.filter (!·.isEmpty) with
    | none => l.tryModules loads anywhere loaded (splits name)
    | some h =>
      match l.tryModules loads (isWithin h) loaded (splits name) with
      | (none, loaded) =>
        if l.standard.contains h then l.tryModules loads anywhere loaded (splits name) else (none, loaded)
      | r => r
  (first.or (l.scan loaded name), loaded)

/-- Looks a name up, first among the lookups that are remembered. -/
def resolveName (l : Library) (name : String) (hint : Option String) (loads : Bool) (names : Names) :
    Option Ty × Names :=
  let key := (name, hint, loads)
  let others := names.found.filter (·.1 ≠ key)
  match names.found.lookup key with
  | some t => (some t, { names with found := (key, t) :: others })
  | none =>
    match l.find name hint loads names.loaded with
    | (some t, loaded) => (some t, ⟨loaded, ((key, t) :: others).take Names.memory⟩)
    | (none, loaded) => (none, { names with loaded })

end Library

end ExprTree
