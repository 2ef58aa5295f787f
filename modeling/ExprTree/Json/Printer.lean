import ExprTree.Text.Quoted
import ExprTree.Tree

/-!
# Writing JSON

Texts are written in ASCII: a character outside it is written by its one or
two UTF-16 units. A layout is compact, or puts every part of a container on a
line of its own; a container without parts is written in one piece either way.
-/

namespace ExprTree.Json

inductive Layout where
  | compact
  /-- Every level is indented by so many spaces. -/
  | indented (width : Nat)
deriving DecidableEq, Repr

namespace Layout

/-- What comes before a part at a depth, and before the end of a container. -/
def newline (l : Layout) (depth : Nat) : List Char :=
  match l with
  | .compact => []
  | .indented width => '\n' :: List.replicate (width * depth) ' '

/-- What stands between a key and its value. -/
def colon : Layout → List Char
  | .compact => [':']
  | .indented _ => [':', ' ']

end Layout

/-- A UTF-16 unit as an escape. -/
def escapedUnit (n : Nat) : List Char :=
  '\\' :: 'u' :: Text.hexDigits 4 n

/-- One character of a text. -/
def escaped (c : Char) : List Char :=
  if c = '"' then ['\\', '"']
  else if c = '\\' then ['\\', '\\']
  else if c = '\n' then ['\\', 'n']
  else if c = '\r' then ['\\', 'r']
  else if c = '\t' then ['\\', 't']
  else if c = '\x08' then ['\\', 'b']
  else if c = '\x0c' then ['\\', 'f']
  else if ' ' ≤ c && c ≤ '~' then [c]
  else if c.toNat < 0x10000 then escapedUnit c.toNat
  else
    let n := c.toNat - 0x10000
    escapedUnit (0xD800 + n / 0x400) ++ escapedUnit (0xDC00 + n % 0x400)

def quoted (s : String) : List Char :=
  '"' :: (s.toList.flatMap escaped ++ ['"'])

mutual

/-- Writes a tree that starts at a depth. -/
def write (l : Layout) (depth : Nat) : Tree → List Char
  | .null => "null".toList
  | .flag b => (if b then "true" else "false").toList
  | .text s => quoted s
  | .list [] => ['[', ']']
  | .list (t :: ts) =>
    '[' :: (l.newline (depth + 1) ++ write l (depth + 1) t ++ writeItems l (depth + 1) ts ++
      l.newline depth ++ [']'])
  | .map [] => ['\x7b', '\x7d']
  | .map ((k, t) :: es) =>
    '\x7b' :: (l.newline (depth + 1) ++ quoted k ++ l.colon ++ write l (depth + 1) t ++
      writeEntries l (depth + 1) es ++ l.newline depth ++ ['\x7d'])

/-- Further items, each after a comma. -/
def writeItems (l : Layout) (depth : Nat) : List Tree → List Char
  | [] => []
  | t :: ts => ',' :: (l.newline depth ++ write l depth t ++ writeItems l depth ts)

/-- Further entries, each after a comma. -/
def writeEntries (l : Layout) (depth : Nat) : List (String × Tree) → List Char
  | [] => []
  | (k, t) :: es =>
    ',' :: (l.newline depth ++ quoted k ++ l.colon ++ write l depth t ++ writeEntries l depth es)

end

/-- The text of a tree. -/
def render (l : Layout) (t : Tree) : String :=
  String.ofList (write l 0 t)

end ExprTree.Json
