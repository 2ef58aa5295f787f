import ExprTree.Text.Case

/-!
# Paths of files

A path is a list of names, from the current directory or from a root. Reading
drops empty names and names of one point; names of two points stay.
-/

namespace ExprTree

structure Path where
  /-- Empty for a path from the current directory. -/
  root : String
  names : List String
deriving DecidableEq, Repr

namespace Path

/-- The parts between slashes. -/
def parts : List Char → List (List Char)
  | [] => [[]]
  | c :: cs =>
    if c = '/' then [] :: parts cs
    else
      match parts cs with
      | p :: ps => (c :: p) :: ps
      | [] => [[c]]

/-- Exactly two slashes at the start are a root of their own. -/
def rootOf : List Char → String
  | '/' :: '/' :: '/' :: _ => "/"
  | '/' :: '/' :: _ => "//"
  | '/' :: _ => "/"
  | _ => ""

def ofString (s : String) : Path :=
  let names := (parts s.toList).filter fun p => p ≠ [] && p ≠ ['.']
  ⟨rootOf s.toList, names.map String.ofList⟩

def toText (p : Path) : String :=
  if p.root.isEmpty && p.names.isEmpty then "." else p.root ++ "/".intercalate p.names

/-- The path of the directory that it is in. -/
def parent (p : Path) : Path :=
  { p with names := p.names.dropLast }

/-- The last point of a name and what follows it, if there is text on both sides. -/
def nameSuffix (cs : List Char) : List Char :=
  let after := cs.reverse.takeWhile (· ≠ '.')
  let before := cs.reverse.drop (after.length + 1)
  if after.length = cs.length || after.isEmpty || before.isEmpty then [] else '.' :: after.reverse

/-- The suffix in lower case; it says what format a file has. -/
def suffix (p : Path) : String :=
  Text.lower (String.ofList (nameSuffix ((p.names.getLast?.getD "").toList)))

end Path

end ExprTree
