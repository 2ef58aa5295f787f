import ExprTree.Number.FloatText
import ExprTree.Yaml.Token

/-!
# Tags

The sorts of nodes. A tag may be written in front of a node; a plain scalar
without one is of the first sort whose texts include it, and a text if there
is none.
-/

namespace ExprTree.Yaml

inductive Tag where
  | null | bool | int | float | str | binary | timestamp
  /-- The key under which the entries of other mappings are taken over. -/
  | merge
  /-- The key for the value that stands for a whole mapping. -/
  | default
  | seq | map | set | omap | pairs
  | unknown (uri : String)
deriving DecidableEq, Repr

namespace Tag

/-- What the names of the tags below start with. -/
def family : String := "tag:yaml.org,2002:"

def names : List (String × Tag) :=
  [("null", .null), ("bool", .bool), ("int", .int), ("float", .float), ("str", .str), ("binary", .binary),
    ("timestamp", .timestamp), ("merge", .merge), ("value", .default), ("seq", .seq), ("map", .map),
    ("set", .set), ("omap", .omap), ("pairs", .pairs)]

def ofUri (uri : String) : Tag :=
  ((names.find? fun (n, _) => family ++ n = uri).map (·.2)).getD (.unknown uri)

/-! ## The texts of each sort -/

def isNull (cs : List Char) : Bool :=
  ["", "~", "null", "Null", "NULL"].contains (String.ofList cs)

def flagWords : List (String × Bool) :=
  [("yes", true), ("no", false), ("true", true), ("false", false), ("on", true), ("off", false)]

/-- A word for a truth value in lower or upper case, or with a capital. -/
def isFlag (cs : List Char) : Bool :=
  flagWords.any fun (w, _) => [w, w.capitalize, w.toUpper].contains (String.ofList cs)

def isDigitOrUnderscore (c : Char) : Bool :=
  c.isDigit || c = '_'

/-- Further parts of a number in base 60, each a colon and one or two digits below 60. -/
def sixtieths : Nat → List Char → Bool × List Char
  | fuel + 1, ':' :: a :: b :: cs =>
    if '0' ≤ a && a ≤ '5' && b.isDigit then ((true, (sixtieths fuel cs).2))
    else if a.isDigit then (true, (sixtieths fuel (b :: cs)).2)
    else (false, ':' :: a :: b :: cs)
  | _ + 1, [':', a] => if a.isDigit then (true, []) else (false, [':', a])
  | _, cs => (false, cs)

def isInt (cs : List Char) : Bool :=
  let (_, body) := splitSign cs
  match body with
  | ['0'] => true
  | '0' :: 'b' :: ds => !ds.isEmpty && ds.all fun c => c = '0' || c = '1' || c = '_'
  | '0' :: 'x' :: ds =>
    !ds.isEmpty && ds.all fun c =>
      isDigitOrUnderscore c || ('a' ≤ c && c ≤ 'f') || ('A' ≤ c && c ≤ 'F')
  | '0' :: ds => ds.all fun c => ('0' ≤ c && c ≤ '7') || c = '_'
  | d :: ds =>
    d.isDigit &&
      (match ds.dropWhile isDigitOrUnderscore with
        | [] => true
        | rest => sixtieths rest.length rest = (true, []))
  | [] => false

/-- Nothing, or an exponent with its sign. -/
def isExponent : List Char → Bool
  | [] => true
  | e :: s :: d :: ds =>
    (e = 'e' || e = 'E') && (s = '+' || s = '-') && d.isDigit && ds.all Char.isDigit
  | _ => false

def isFloat (cs : List Char) : Bool :=
  let (_, body) := splitSign cs
  [".inf", ".Inf", ".INF"].contains (String.ofList body) ||
    [".nan", ".NaN", ".NAN"].contains (String.ofList cs) ||
    (match cs with
      | '.' :: d :: ds => d.isDigit && isExponent (ds.dropWhile isDigitOrUnderscore)
      | _ => false) ||
    (match body with
      | d :: ds =>
        d.isDigit &&
          (match ds.dropWhile isDigitOrUnderscore with
            | '.' :: rest => isExponent (rest.dropWhile isDigitOrUnderscore)
            | ':' :: rest =>
              (match sixtieths (rest.length + 1) (':' :: rest) with
                | (true, '.' :: places) => places.all isDigitOrUnderscore
                | _ => false)
            | _ => false)
      | [] => false)

end Tag

/-! ## Dates -/

/-- A point in time by its parts; the zone is an offset from universal time in minutes. -/
structure Moment where
  year : Nat
  month : Nat
  day : Nat
  /-- Hour, minute, second and microsecond. -/
  time : Option (Nat × Nat × Nat × Nat)
  zone : Option Int
  /-- Is the whole text two-digit months and days, as a date without a time has to be? -/
  isFull : Bool
deriving Repr

namespace Moment

/-- Digits, at least `least` and at most `most`. -/
def digits? (least most : Nat) (cs : List Char) : Option (List Char × List Char) :=
  let found := (cs.take most).takeWhile Char.isDigit
  if found.length < least then none else some (found, cs.drop found.length)

def token? (c : Char) : List Char → Option (List Char)
  | [] => none
  | d :: cs => if d = c then some cs else none

def isSpace (c : Char) : Bool :=
  c = ' ' || c = '\t'

/-- A zone, up to the end of the text. -/
def zone? (cs : List Char) : Option (Option Int) :=
  match cs.dropWhile isSpace with
  | [] => if cs.isEmpty then some none else none
  | ['Z'] => some (some 0)
  | s :: rest =>
    if s = '+' || s = '-' then do
      let (hour, rest) ← digits? 1 2 rest
      let minute ← match rest with
        | [] => some []
        | ':' :: rest => do
          let (minute, rest) ← digits? 2 2 rest
          if rest.isEmpty then some minute else none
        | _ => none
      let offset : Int := Text.natOfDigits hour * 60 + Text.natOfDigits minute
      return some (if s = '-' then -offset else offset)
    else none

/-- The first six digits of a fraction of a second, as microseconds. -/
def microseconds (fraction : List Char) : Nat :=
  let ds := fraction.take 6
  Text.natOfDigits (ds ++ List.replicate (6 - ds.length) '0')

/-- What stands between a date and a time. -/
def separator? (cs : List Char) : Option (List Char) :=
  match cs with
  | 'T' :: rest | 't' :: rest => some rest
  | c :: rest => if isSpace c then some (rest.dropWhile isSpace) else none
  | [] => none

/-- Reads a date, or a date with a time. -/
def read? (cs : List Char) : Option Moment := do
  let (year, rest) ← digits? 4 4 cs
  let (month, rest) ← digits? 1 2 (← token? '-' rest)
  let (day, rest) ← digits? 1 2 (← token? '-' rest)
  let date (time : Option (Nat × Nat × Nat × Nat)) (zone : Option Int) : Moment :=
    ⟨Text.natOfDigits year, Text.natOfDigits month, Text.natOfDigits day, time, zone,
      month.length = 2 && day.length = 2⟩
  if rest.isEmpty then return date none none
  let (hour, rest) ← digits? 1 2 (← separator? rest)
  let (minute, rest) ← digits? 2 2 (← token? ':' rest)
  let (second, rest) ← digits? 2 2 (← token? ':' rest)
  let (fraction, rest) := match rest with
    | '.' :: more => (more.takeWhile Char.isDigit, more.dropWhile Char.isDigit)
    | _ => ([], rest)
  let zone ← zone? rest
  return date (some (Text.natOfDigits hour, Text.natOfDigits minute, Text.natOfDigits second,
    microseconds fraction)) zone

/-- A plain scalar is a date if it has a time or is written in full. -/
def isPlain (cs : List Char) : Bool :=
  (read? cs).any fun m => m.time.isSome || m.isFull

end Moment

namespace Tag

/-- The sort of a plain scalar. -/
def ofPlain (cs : List Char) : Tag :=
  if isNull cs then .null
  else if isFlag cs then .bool
  else if isFloat cs then .float
  else if isInt cs then .int
  else if cs = ['<', '<'] then .merge
  else if Moment.isPlain cs then .timestamp
  else if cs = ['='] then .default
  -- these three are plain only where an exclamation mark makes them so
  else if cs = ['!'] || cs = ['&'] || cs = ['*'] then .unknown (family ++ "yaml")
  else .str

end Tag

end ExprTree.Yaml
