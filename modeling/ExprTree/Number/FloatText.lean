import ExprTree.Number.IntegerText
import ExprTree.Number.Shortest

/-!
# Text of floating-point numbers

Writing takes the shortest digits that read back and lays them out by a
`FloatStyle`: positional with a point inside a range of magnitudes, with an
exponent of at least two digits outside it. Reading takes the exact decimal
and rounds it once.
-/

namespace ExprTree

/-- The magnitudes written without an exponent: from `10 ^ -4` up to, but not with, `10 ^ limit`. -/
structure FloatStyle where
  format : Format
  limit : Nat

namespace FloatStyle

/-- The style of the double format. -/
def double : FloatStyle := ⟨.double, 16⟩

/-- Narrower formats go over to exponents once a unit in the last place may exceed one digit. -/
def single : FloatStyle := ⟨.single, 7⟩

def half : FloatStyle := ⟨.half, 3⟩

/-- Is the magnitude `num / den` written without an exponent? -/
def positional (s : FloatStyle) (num den : Nat) : Bool :=
  num == 0 || (den ≤ num * 10 ^ 4 && num < den * 10 ^ s.limit)

/-- `digits * 10 ^ k` with a decimal point and at least one digit on both sides. -/
def withPoint (digits : List Char) (k : Int) : List Char :=
  if k ≥ 0 then digits ++ List.replicate k.toNat '0' ++ ['.', '0']
  else
    let places := (-k).toNat
    if digits.length > places then
      digits.take (digits.length - places) ++ '.' :: digits.drop (digits.length - places)
    else '0' :: '.' :: List.replicate (places - digits.length) '0' ++ digits

/-- `digits * 10 ^ k` with one digit before the point and an exponent. -/
def withExponent (digits : List Char) (k : Int) : List Char :=
  let exponent := k + digits.length - 1
  let shown := Nat.toDigits 10 exponent.natAbs
  let lead := match digits with
    | [] => []
    | [d] => [d]
    | d :: rest => d :: '.' :: rest
  lead ++ 'e' :: (if exponent < 0 then '-' else '+') :: List.replicate (2 - shown.length) '0' ++ shown

/-- The text of a number in a style. -/
def render (s : FloatStyle) (x : Binary) : String :=
  match s.format.convert x with
  | .nan => "nan"
  | .infinite negative => if negative then "-inf" else "inf"
  | .finite negative m e =>
    let body :=
      if m = 0 then ['0', '.', '0']
      else
        let (d, k) := s.format.shortest m e
        let digits := Nat.toDigits 10 d
        let (num, den) := scaled m 1 e
        if s.positional num den then withPoint digits k else withExponent digits k
    String.ofList (if negative then '-' :: body else body)

end FloatStyle

/-! ## Reading -/

/-- An optional exponent after `e`, which needs at least one digit and ends the text. -/
def exponent? : List Char → Option Int
  | [] => some 0
  | c :: cs =>
    if c = 'e' || c = 'E' then
      let (negative, ds) := splitSign cs
      if ds ≠ [] && ds.all Char.isDigit then
        some (if negative then -(Text.natOfDigits ds : Int) else Text.natOfDigits ds)
      else none
    else none

/-- A decimal `digits * 10 ^ exponent`: digits with an optional point, then an optional exponent. -/
def decimalText? (cs : List Char) : Option (List Char × Int) :=
  let whole := cs.takeWhile Char.isDigit
  let rest := cs.dropWhile Char.isDigit
  let (fraction, rest) := match rest with
    | '.' :: more => (more.takeWhile Char.isDigit, more.dropWhile Char.isDigit)
    | _ => ([], rest)
  if whole.isEmpty && fraction.isEmpty then none
  else (exponent? rest).map fun e => (whole ++ fraction, e - fraction.length)

/-- The nearest number to `digits * 10 ^ k`; magnitudes far outside the format are not computed. -/
def Format.ofDecimal (f : Format) (negative : Bool) (digits : List Char) (k : Int) : Binary :=
  let d := Text.natOfDigits digits
  let magnitude := k + digitCount d
  if d = 0 then .finite negative 0 f.minExponent
  else if magnitude > 400 then .infinite negative
  else if magnitude < -400 then .finite negative 0 f.minExponent
  else if k ≥ 0 then f.round negative (d * 10 ^ k.toNat) 1
  else f.round negative d (10 ^ (-k).toNat)

/-- Reads a number: blanks around it, underscores between digits, digits of any script,
and the words for infinity and for what is not a number, in any case. -/
def Binary.read? (f : Format) (s : String) : Option Binary := do
  let cs := Text.trimBlanks (normalizeDigits s.toList)
  let cs ← dropUnderscores? Char.isDigit false cs
  let (negative, body) := splitSign cs
  let word := String.ofList (body.map Char.toLower)
  if word = "inf" || word = "infinity" then some (.infinite negative)
  else if word = "nan" then some .nan
  else
    let (digits, k) ← decimalText? body
    some (f.ofDecimal negative digits k)

end ExprTree
