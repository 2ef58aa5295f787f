import ExprTree.Data

/-!
# Reading JSON

A recursive descent over the characters. Besides the standard's texts, the
words for infinities and for what is not a number are read. A surrogate
escape without its partner is kept as it is. Of two entries with one key, the
first gives the place and the last the value.
-/

namespace ExprTree.Json

/-- Why a text cannot be read. -/
inductive Fault where
  | malformed
  /-- An integer with more digits than are read. -/
  | tooManyDigits
deriving DecidableEq, Repr

namespace Reader

/-- A reader takes characters off the front. -/
abbrev Step (α : Type) := List Char → Except Fault (α × List Char)

def isBlank (c : Char) : Bool :=
  c = ' ' || c = '\t' || c = '\n' || c = '\r'

def skipBlanks (cs : List Char) : List Char :=
  cs.dropWhile isBlank

/-- Takes one character. -/
def token (c : Char) : List Char → Except Fault (List Char)
  | [] => .error .malformed
  | d :: cs => if d = c then .ok cs else .error .malformed

/-! ## Texts -/

/-- Four hexadecimal digits. -/
def unit? (cs : List Char) : Option (Nat × List Char) :=
  let ds := cs.take 4
  if ds.length < 4 then none else (Text.natIn? 16 ds).map (·, cs.drop 4)

/-- The character of an escape that is one character long. -/
def escape? : Char → Option Char
  | '"' => some '"'
  | '\\' => some '\\'
  | '/' => some '/'
  | 'b' => some '\x08'
  | 'f' => some '\x0c'
  | 'n' => some '\n'
  | 'r' => some '\r'
  | 't' => some '\t'
  | _ => none

def isHighSurrogate (n : Nat) : Bool :=
  0xD800 ≤ n && n < 0xDC00

def isLowSurrogate (n : Nat) : Bool :=
  0xDC00 ≤ n && n < 0xE000

/-- The code points up to the closing quote; `fuel` bounds their number. -/
def codes : Nat → Step (List Nat)
  | 0, _ => .error .malformed
  | _ + 1, [] => .error .malformed
  | _ + 1, '"' :: cs => .ok ([], cs)
  | fuel + 1, '\\' :: 'u' :: cs =>
    match unit? cs with
    | none => .error .malformed
    | some (n, cs) => do
      let (more, rest) ← codes fuel cs
      match more with
      | m :: ms =>
        -- a low surrogate joins the high one before it only when both are escapes
        if isHighSurrogate n && isLowSurrogate m then
          return ((0x10000 + (n - 0xD800) * 0x400 + (m - 0xDC00)) :: ms, rest)
        else return (n :: m :: ms, rest)
      | [] => return ([n], rest)
  | fuel + 1, '\\' :: c :: cs =>
    match escape? c with
    | none => .error .malformed
    | some d => do
      let (more, rest) ← codes fuel cs
      return (d.toNat :: more, rest)
  | fuel + 1, c :: cs =>
    if c < ' ' || c = '\\' then .error .malformed
    else do
      let (more, rest) ← codes fuel cs
      return (c.toNat :: more, rest)

/-- A text, after its opening quote. -/
def text : Step Data := fun cs => do
  let (found, cs) ← codes (cs.length + 1) cs
  return (Data.ofCodes found, cs)

/-! ## Numbers -/

/-- A lone zero, or digits of which the first is not zero. -/
def wholePart : List Char → List Char × List Char
  | '0' :: cs => (['0'], cs)
  | cs => (cs.takeWhile Char.isDigit, cs.dropWhile Char.isDigit)

/-- A point with digits after it; a point without them is left. -/
def fraction? : List Char → Option (List Char × List Char)
  | '.' :: cs =>
    let digits := cs.takeWhile Char.isDigit
    if digits.isEmpty then none else some (digits, cs.dropWhile Char.isDigit)
  | _ => none

/-- An exponent with its digits; an `e` without them is left. -/
def exponentPart? : List Char → Option (Int × List Char)
  | c :: cs =>
    if c = 'e' || c = 'E' then
      let (negative, cs) := splitSign cs
      let digits := cs.takeWhile Char.isDigit
      if digits.isEmpty then none
      else
        let n : Int := Text.natOfDigits digits
        some (if negative then -n else n, cs.dropWhile Char.isDigit)
    else none
  | [] => none

/-- A number is an integer unless it has a fraction or an exponent. -/
def number : Step Data := fun cs =>
  let (negative, cs) := match cs with
    | '-' :: cs => (true, cs)
    | cs => (false, cs)
  let (digits, cs) := wholePart cs
  if digits.isEmpty then .error .malformed
  else
    let fraction := fraction? cs
    let afterFraction := (fraction.map (·.2)).getD cs
    let exponent := exponentPart? afterFraction
    let rest := (exponent.map (·.2)).getD afterFraction
    if fraction.isNone && exponent.isNone then
      let n : Int := Text.natOfDigits digits
      if digits.length > integerDigitLimit then .error .tooManyDigits
      else .ok (.int (if negative then -n else n), rest)
    else
      let places := (fraction.map (·.1)).getD []
      let power := (exponent.map (·.1)).getD 0
      .ok (.float (Format.double.ofDecimal negative (digits ++ places) (power - places.length)), rest)

/-! ## Values -/

/-- The words that stand for values. -/
def words : List (String × Data) :=
  [("null", .null), ("true", .bool true), ("false", .bool false), ("NaN", .float .nan),
    ("Infinity", .float (.infinite false)), ("-Infinity", .float (.infinite true))]

/-- The word at the front, if there is one. -/
def word? (cs : List Char) : Option (Data × List Char) :=
  words.findSome? fun (w, d) => (w.toList.isPrefixOf? cs).map fun rest => (d, rest)

mutual

/-- A value; `fuel` bounds the depth of nesting and the length of containers. -/
def value : Nat → Step Data
  | 0, _ => .error .malformed
  | _ + 1, '"' :: cs => text cs
  | fuel + 1, '[' :: cs =>
    match skipBlanks cs with
    | ']' :: cs => .ok (.list [], cs)
    | cs => do
      let (items, cs) ← items fuel cs
      return (.list items, cs)
  | fuel + 1, '\x7b' :: cs =>
    match skipBlanks cs with
    | '\x7d' :: cs => .ok (.map [], cs)
    | cs => do
      let (entries, cs) ← entries fuel cs
      return (Data.ofEntries entries, cs)
  | _ + 1, cs =>
    match word? cs with
    | some found => .ok found
    | none => number cs

/-- Items up to the closing bracket, at least one. -/
def items : Nat → Step (List Data)
  | 0, _ => .error .malformed
  | fuel + 1, cs => do
    let (first, cs) ← value fuel cs
    match skipBlanks cs with
    | ',' :: cs =>
      let (more, cs) ← items fuel (skipBlanks cs)
      return (first :: more, cs)
    | ']' :: cs => return ([first], cs)
    | _ => throw .malformed

/-- Entries up to the closing brace, at least one. -/
def entries : Nat → Step (List (Data × Data))
  | 0, _ => .error .malformed
  | fuel + 1, cs => do
    let cs ← token '"' cs
    let (key, cs) ← text cs
    let cs ← token ':' (skipBlanks cs)
    let (first, cs) ← value fuel (skipBlanks cs)
    match skipBlanks cs with
    | ',' :: cs =>
      let (more, cs) ← entries fuel (skipBlanks cs)
      return ((key, first) :: more, cs)
    | '\x7d' :: cs => return ([(key, first)], cs)
    | _ => throw .malformed

end

end Reader

/-- Reads a text that holds one value, with blanks around it. -/
def read (s : String) : Except Fault Data := do
  let cs := Reader.skipBlanks s.toList
  let (found, rest) ← Reader.value (cs.length + 1) cs
  if (Reader.skipBlanks rest).isEmpty then return found else throw .malformed

end ExprTree.Json
