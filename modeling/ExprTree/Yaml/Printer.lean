import ExprTree.Text.Quoted
import ExprTree.Tree
import ExprTree.Yaml.Cursor
import ExprTree.Yaml.Tag

/-!
# Writing YAML

A map is written in block form, an entry a line, in ASCII. A text is written
plain where it reads back as itself, else in single quotes, and in double
quotes when it holds characters that have to be escaped. Long texts are
broken at spaces; keys stay on one line, unless they cannot.
-/

namespace ExprTree.Yaml

namespace Written

/-! ## Which way a text is written -/

inductive Style where
  | plain | single | double
deriving DecidableEq, Repr

def isLineBreak (c : Char) : Bool :=
  c = '\n' || c = '\x85' || c = '\u2028' || c = '\u2029'

/-- Characters that only double quotes can hold. -/
def isSpecial (c : Char) : Bool :=
  !(c = '\n' || (' ' ≤ c && c ≤ '~'))

/-- Is there no character after this one, or a blank? -/
def beforeBlank (rest : List Char) : Bool :=
  rest.head?.all isBlank

/-- An indicator at the start of a text. -/
def startsWithIndicator : List Char → Bool
  | [] => false
  | c :: rest =>
    "#,[]\x7b\x7d&*!|>'\"%@\x60".toList.contains c ||
      ((c = '?' || c = ':' || c = '-') && beforeBlank rest)

/-- An indicator inside a text: a colon before a blank or a comment after one. -/
def hasIndicator : List Char → Bool
  | c :: d :: rest => (d = ':' && beforeBlank rest) || (d = '#' && isBlank c) || hasIndicator (d :: rest)
  | _ => false

/-- Does a character of one sort come right before one of another? -/
def hasPair (p q : Char → Bool) : List Char → Bool
  | c :: d :: rest => (p c && q d) || hasPair p q (d :: rest)
  | _ => false

def isSpace (c : Char) : Bool :=
  c = ' '

/-- Can a text be written plain, as far as its characters go? -/
def fitsPlain (cs : List Char) : Bool :=
  !("---".toList.isPrefixOf cs || "...".toList.isPrefixOf cs) && !startsWithIndicator cs && !hasIndicator cs &&
    !cs.head?.any isSpace && !cs.getLast?.any isSpace && !cs.any fun c => isLineBreak c || isSpecial c

/-- A text is plain only if it does not read as another sort of scalar. -/
def isPlain (cs : List Char) : Bool :=
  Tag.ofPlain cs = .str && fitsPlain cs

def fitsSingle (cs : List Char) : Bool :=
  !hasPair isLineBreak isSpace cs && !hasPair isSpace isLineBreak cs && !cs.any isSpecial

def style (cs : List Char) : Style :=
  if isPlain cs then .plain else if fitsSingle cs then .single else .double

/-- Can a text be a key without an indicator? It has to be short and in one line. -/
def isSimpleKey (cs : List Char) : Bool :=
  cs.length < 123 && !cs.isEmpty && !cs.any isLineBreak

/-! ## Layout -/

/-- Lines are broken once they are longer. -/
def width : Nat := 80

def spaces (n : Nat) : List Char :=
  List.replicate n ' '

/-- A line break, and the indentation of the next line. -/
def newline (indent : Nat) : List Char :=
  '\n' :: spaces indent

variable (indent : Nat) (splits : Bool)

/-- The characters of a plain or single-quoted text from a column on, after the character `before`.
A space between two words past the width becomes a line break; line breaks of the text are
written with one more. -/
def lines (escape : Char → List Char) : Char → Nat → List Char → List Char
  | _, _, [] => []
  | before, column, c :: cs =>
    if splits && column > width && c = ' ' && before ≠ ' ' && cs.head?.any (· ≠ ' ') then
      newline indent ++ lines escape ' ' indent cs
    else if c = '\n' then
      (if before = '\n' then ['\n'] else ['\n', '\n']) ++
        (if cs.head? = some '\n' then [] else spaces indent) ++ lines escape '\n' indent cs
    else escape c ++ lines escape c (column + (escape c).length) cs

/-- A quote between single quotes is written twice. -/
def singleQuoted (c : Char) : List Char :=
  if c = '\'' then ['\'', '\''] else [c]

def upperHex (digits n : Nat) : List Char :=
  (Text.hexDigits digits n).map Char.toUpper

/-- The escapes of one letter. -/
def letterEscapes : List (Char × Char) :=
  [('\x00', '0'), ('\x07', 'a'), ('\x08', 'b'), ('\t', 't'), ('\n', 'n'), ('\x0b', 'v'), ('\x0c', 'f'),
    ('\r', 'r'), ('\x1b', 'e'), ('"', '"'), ('\\', '\\'), ('\x85', 'N'), ('\u00a0', '_'), ('\u2028', 'L'),
    ('\u2029', 'P')]

/-- How a character is written between double quotes, when it does not stand for itself. -/
def doubleEscape? (c : Char) : Option (List Char) :=
  match letterEscapes.lookup c with
  | some e => some ['\\', e]
  | none =>
    if ' ' ≤ c && c ≤ '~' then none
    else if c.toNat ≤ 0xFF then some ('\\' :: 'x' :: upperHex 2 c.toNat)
    else if c.toNat ≤ 0xFFFF then some ('\\' :: 'u' :: upperHex 4 c.toNat)
    else some ('\\' :: 'U' :: upperHex 8 c.toNat)

/-- A line break that is not read, and the backslash that keeps a space after it. -/
def hiddenBreak (beforeSpace : Bool) : List Char :=
  '\\' :: (newline indent ++ if beforeSpace then ['\\'] else [])

/-- The characters of a double-quoted text from a column on. The line may be broken inside the
text: before a space, and on both sides of an escape. -/
def doubleQuoted (isFirst afterEscape : Bool) : Nat → List Char → List Char
  | _, [] => []
  | column, c :: cs =>
    let inside := splits && !isFirst && !cs.isEmpty
    match doubleEscape? c with
    | some e =>
      let column := column + e.length
      if inside && column > width + 1 then
        let hidden := hiddenBreak indent (cs.head? = some ' ')
        e ++ hidden ++ doubleQuoted false true (hidden.length - 2) cs
      else e ++ doubleQuoted false true column cs
    | none =>
      if inside && (c = ' ' || afterEscape) && column > width then
        let hidden := hiddenBreak indent (c = ' ')
        hidden ++ c :: doubleQuoted false false (hidden.length - 1) cs
      else c :: doubleQuoted false false (column + 1) cs

/-- A text from a column on; further lines are indented. -/
def text (column : Nat) (s : String) : List Char :=
  let cs := s.toList
  match style cs with
  | .plain => lines indent splits (fun c => [c]) ' ' column cs
  | .single => '\'' :: (lines indent splits singleQuoted ' ' (column + 1) cs ++ ['\''])
  | .double => '"' :: (doubleQuoted indent splits true false (column + 1) cs ++ ['"'])

/-! ## Trees -/

/-- A tree without parts, from a column on. -/
def leaf (indent column : Nat) : Tree → List Char
  | .null => "null".toList
  | .flag b => (if b then "true" else "false").toList
  | .text s => text indent true column s
  | .list _ => ['[', ']']
  | .map _ => ['\x7b', '\x7d']

/-- A key and its colon. A key that is not simple is marked, and its colon starts a line. -/
def key (indent : Nat) (k : String) : List Char :=
  if isSimpleKey k.toList then text (indent + 2) false indent k ++ [':']
  else '?' :: ' ' :: (text (indent + 2) true (indent + 2) k ++ newline indent ++ [':'])

mutual

/-- The entries of a map, the first of which starts in the current line. -/
def entries (indent : Nat) : List (String × Tree) → List Char
  | [] => []
  | (k, t) :: es =>
    key indent k ++ (if isSimpleKey k.toList then value indent (indent + (key indent k).length) t else compact indent t) ++
      moreEntries indent es

def moreEntries (indent : Nat) : List (String × Tree) → List Char
  | [] => []
  | (k, t) :: es =>
    newline indent ++ key indent k ++
      (if isSimpleKey k.toList then value indent (indent + (key indent k).length) t else compact indent t) ++
      moreEntries indent es

/-- The items of a list, the first of which starts in the current line. -/
def items (indent : Nat) : List Tree → List Char
  | [] => []
  | t :: ts => '-' :: (compact indent t ++ moreItems indent ts)

def moreItems (indent : Nat) : List Tree → List Char
  | [] => []
  | t :: ts => newline indent ++ '-' :: (compact indent t ++ moreItems indent ts)

/-- A tree after a simple key: a map is indented, a list is not. -/
def value (indent column : Nat) : Tree → List Char
  | .map (e :: es) => newline (indent + 2) ++ entries (indent + 2) (e :: es)
  | .list (t :: ts) => newline indent ++ items indent (t :: ts)
  | t => ' ' :: leaf (indent + 2) (column + 1) t

/-- A tree that starts in the line of its indicator. -/
def compact (indent : Nat) : Tree → List Char
  | .map (e :: es) => ' ' :: entries (indent + 2) (e :: es)
  | .list (t :: ts) => ' ' :: items (indent + 2) (t :: ts)
  | t => ' ' :: leaf (indent + 2) (indent + 2) t

end

end Written

/-- The text of a map. -/
def render (entries : List (String × Tree)) : String :=
  String.ofList (Written.entries 0 entries ++ ['\n'])

end ExprTree.Yaml
