import ExprTree.Number.Decimal

/-!
# Text of decimal numbers

A decimal is written with its own digits: positional when the exponent is not
positive and the number is not smaller than a millionth, with an `E`
otherwise. Reading accepts blanks around the number, underscores anywhere in
it and digits of any script, and keeps all digits.
-/

namespace ExprTree.Decimal

/-- The exponents that can be represented at all. -/
def exponentLimit : Int := 999999999999999999

/-- Is the exponent of the number, and of its first digit, one that can be represented? -/
def isRepresentable : Decimal → Bool
  | .finite _ c e =>
    (if c = 0 then e else adjusted c e) ≤ exponentLimit && e ≥ -(2 * exponentLimit - 1)
  | _ => true

def render : Decimal → String
  | .infinite s => if s then "-Infinity" else "Infinity"
  | .nan s q p =>
    (if s then "-" else "") ++ (if q then "sNaN" else "NaN") ++ (if p = 0 then "" else toString p)
  | .finite s c e =>
    let digits := Nat.toDigits 10 c
    let count : Int := digits.length
    -- the place of the point, counted from the first digit
    let leading := e + count
    let point := if e ≤ 0 && leading > -6 then leading else 1
    let whole :=
      if point ≤ 0 then '0' :: '.' :: List.replicate (-point).toNat '0' ++ digits
      else if point ≥ count then digits ++ List.replicate (point - count).toNat '0'
      else digits.take point.toNat ++ '.' :: digits.drop point.toNat
    let power :=
      if leading = point then []
      else 'E' :: (if leading - point < 0 then '-' else '+') :: Nat.toDigits 10 (leading - point).natAbs
    String.ofList ((if s then ['-'] else []) ++ whole ++ power)

/-- Digits after `NaN`, if any. -/
def payload? (cs : List Char) : Option Nat :=
  if cs.all Char.isDigit then some (Text.natOfDigits cs) else none

/-- Reads a decimal; the exponent has to be one that can be represented. -/
def read? (s : String) : Option Decimal := do
  let cs := (Text.trimBlanks (normalizeDigits s.toList)).filter (· ≠ '_')
  let (negative, body) := splitSign cs
  let word := body.map Char.toLower
  if word = "inf".toList || word = "infinity".toList then some (.infinite negative)
  else if word.take 3 = "nan".toList then (payload? (word.drop 3)).map (.nan negative false)
  else if word.take 4 = "snan".toList then (payload? (word.drop 4)).map (.nan negative true)
  else
    let (digits, k) ← decimalText? body
    let d := finite negative (Text.natOfDigits digits) k
    if d.isRepresentable then some d else none

/-- The nearest number of the double format; a signaling number has none. -/
def toBinary? : Decimal → Option Binary
  | .infinite s => some (.infinite s)
  | .nan _ q _ => if q then none else some .nan
  | .finite s c e => some (Format.double.ofDecimal s (Nat.toDigits 10 c) e)

end ExprTree.Decimal
