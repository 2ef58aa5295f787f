/-!
# Places in a text

A cursor is what is left of a text, with the line and the column it stands
at. A carriage return with a line feed is one line break; the line and
paragraph separators are line breaks that stay in the text as they are.
-/

namespace ExprTree.Yaml

/-- The mark that may open a text; it takes no column. -/
def byteOrderMark : Char := '\ufeff'

/-- The characters a text may hold. -/
def isAllowed (c : Char) : Bool :=
  let n := c.toNat
  n == 0x09 || n == 0x0A || n == 0x0D || (0x20 ≤ n && n ≤ 0x7E) || n == 0x85 ||
    (0xA0 ≤ n && n ≤ 0xFFFD) || 0x10000 ≤ n

def isBreak (c : Char) : Bool :=
  c = '\n' || c = '\r' || c = '\x85' || c = '\u2028' || c = '\u2029'

/-- Spaces, tabs and line breaks. -/
def isBlank (c : Char) : Bool :=
  c = ' ' || c = '\t' || isBreak c

structure Cursor where
  rest : List Char
  /-- Characters before it, in the whole text and in its line. -/
  index : Nat
  line : Nat
  column : Nat
deriving Repr

namespace Cursor

def start (s : String) : Cursor := ⟨s.toList, 0, 0, 0⟩

def peek? (c : Cursor) : Option Char :=
  c.rest.head?

def peekAt? (c : Cursor) (n : Nat) : Option Char :=
  c.rest[n]?

/-- Does the text end here? -/
def atEnd (c : Cursor) : Bool :=
  c.rest.isEmpty

/-- Is the character here one for which `p` holds? -/
def sees (p : Char → Bool) (c : Cursor) : Bool :=
  c.peek?.any p

/-- Does the text end here, or go on with a character for which `p` holds? -/
def endsOr (p : Char → Bool) (c : Cursor) : Bool :=
  c.peek?.all p

/-- The same for the character `n` places on. -/
def endsOrAt (p : Char → Bool) (c : Cursor) (n : Nat) : Bool :=
  (c.peekAt? n).all p

/-- One character on. -/
def next (c : Cursor) : Cursor :=
  match c.rest with
  | [] => c
  | d :: rest =>
    if isBreak d && !(d = '\r' && rest.head? = some '\n') then ⟨rest, c.index + 1, c.line + 1, 0⟩
    else if d = byteOrderMark then ⟨rest, c.index + 1, c.line, c.column⟩
    else ⟨rest, c.index + 1, c.line, c.column + 1⟩

def skip (c : Cursor) : Nat → Cursor
  | 0 => c
  | n + 1 => c.next.skip n

/-- The longest run of characters for which `p` holds. -/
def run (c : Cursor) (p : Char → Bool) : List Char :=
  c.rest.takeWhile p

/-- The run, and the place after it. -/
def takeWhile (c : Cursor) (p : Char → Bool) : List Char × Cursor :=
  let found := c.run p
  (found, c.skip found.length)

def skipWhile (c : Cursor) (p : Char → Bool) : Cursor :=
  (c.takeWhile p).2

/-- The line break here, as the character it is read as, and the place after it. -/
def lineBreak? (c : Cursor) : Option (Char × Cursor) :=
  match c.rest with
  | '\r' :: '\n' :: _ => some ('\n', c.skip 2)
  | d :: _ =>
    if d = '\u2028' || d = '\u2029' then some (d, c.next)
    else if isBreak d then some ('\n', c.next)
    else none
  | [] => none

/-- Three hyphens or three points in front of a blank, which divide documents. -/
def seesDivider (c : Cursor) : Bool :=
  ("---".toList.isPrefixOf c.rest || "...".toList.isPrefixOf c.rest) && c.endsOrAt isBlank 3

end Cursor

end ExprTree.Yaml
