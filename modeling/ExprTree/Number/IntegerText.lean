import ExprTree.Text.Blank
import ExprTree.Text.Digit

/-!
# Text of integers

Reading accepts blanks around a number, an optional sign, single underscores
between digits and digits of any script. A decimal integer has a bounded
number of digits; in another base there is no bound, and a zero with a marker
of the base may go before the digits.
-/

namespace ExprTree

/-- Digits of any script become ASCII digits and every blank a space. -/
def normalizeDigits (cs : List Char) : List Char :=
  cs.map fun c =>
    match Text.digitValue? c with
    | some d => Char.ofNat ('0'.toNat + d)
    | none => if Text.isBlank c then ' ' else c

/-- Removes underscores that stand between two digits; any other underscore is refused.
`afterDigit` tells whether an underscore may come first. -/
def dropUnderscores? (isDigit : Char → Bool) (afterDigit : Bool) : List Char → Option (List Char)
  | [] => some []
  | '_' :: c :: rest =>
    if afterDigit && isDigit c then (dropUnderscores? isDigit true rest).map (c :: ·) else none
  | '_' :: [] => none
  | c :: rest => (dropUnderscores? isDigit (isDigit c) rest).map (c :: ·)

/-- The sign in front of a number, and the rest. -/
def splitSign : List Char → Bool × List Char
  | '-' :: cs => (true, cs)
  | '+' :: cs => (false, cs)
  | cs => (false, cs)

def withSign (negative : Bool) (n : Nat) : Int :=
  if negative then -n else n

/-- The text of a decimal integer has at most this many digits, in either direction. -/
def integerDigitLimit : Nat := 4300

/-- Reads a decimal integer. -/
def readInteger? (s : String) : Option Int := do
  let (negative, body) := splitSign (Text.trimBlanks (normalizeDigits s.toList))
  let ds ← dropUnderscores? Char.isDigit false body
  if ds ≠ [] && ds.all Char.isDigit && ds.length ≤ integerDigitLimit then
    some (withSign negative (Text.natOfDigits ds))
  else none

/-- Removes a zero with the marker of a base, and tells whether there was one. -/
def splitMarker (marker : Char) : List Char → Bool × List Char
  | '0' :: m :: cs => if m.toLower = marker then (true, cs) else (false, '0' :: m :: cs)
  | cs => (false, cs)

/-- Reads an integer in a base up to 16. -/
def readInBase? (base : Nat) (marker : Char) (cs : List Char) : Option Int := do
  let (negative, body) := splitSign (Text.trimBlanks (normalizeDigits cs))
  let (marked, body) := splitMarker marker body
  let ds ← dropUnderscores? (fun c => (Text.digitIn? base c).isSome) marked body
  if ds.isEmpty then none else (Text.natIn? base ds).map (withSign negative)

end ExprTree
