import ExprTree.Text.CaseTable
import ExprTree.Text.Digit

/-!
# Letter case

The lower, upper and title case of texts in all scripts. A character may
change into several, and a capital sigma becomes a final one at the end of a
word.
-/

namespace ExprTree.Text

def inRanges (rs : List CharRange) (c : Char) : Bool :=
  rs.any (·.contains c.toNat)

def isLowercase (c : Char) : Bool := inRanges lowercaseRanges c

def isUppercase (c : Char) : Bool := inRanges uppercaseRanges c

def isTitlecase (c : Char) : Bool := inRanges titlecaseRanges c

/-- Does the character have a case? -/
def isCased (c : Char) : Bool :=
  isLowercase c || isUppercase c || isTitlecase c

def isCaseIgnorable (c : Char) : Bool := inRanges caseIgnorableRanges c

/-- A digit of any sort, decimal or not. -/
def isDigit (c : Char) : Bool :=
  (digitValue? c).isSome || inRanges digitRanges c

/-- The character at the distance a table gives. -/
def shifted (offsets : List (CharRange × Int)) (c : Char) : Char :=
  match offsets.find? (·.1.contains c.toNat) with
  | some (_, d) => Char.ofNat (c.toNat + d).toNat
  | none => c

/-- The lower case of a character that stands alone. -/
def lowerOf (c : Char) : List Char :=
  if c.toNat < 0x80 then [c.toLower]
  else if c.toNat = 0x130 then ['i', Char.ofNat 0x307]
  else [shifted lowerOffsets c]

def upperOf (c : Char) : List Char :=
  if c.toNat < 0x80 then [c.toUpper]
  else
    match upperExpansions.lookup c.toNat with
    | some ns => ns.map Char.ofNat
    | none => [shifted upperOffsets c]

/-- The form at the start of a word. -/
def titleOf (c : Char) : List Char :=
  match titleExceptions.lookup c.toNat with
  | some ns => ns.map Char.ofNat
  | none => upperOf c

/-- Is a sigma between these texts, the first one backwards, at the end of a word? -/
def isFinalSigma (before after : List Char) : Bool :=
  (before.dropWhile isCaseIgnorable).head?.any isCased &&
    !(after.dropWhile isCaseIgnorable).head?.any isCased

/-- The lower case of a character between others. -/
def lowerWithin (before : List Char) (c : Char) (after : List Char) : List Char :=
  if c.toNat = 0x3A3 then [Char.ofNat (if isFinalSigma before after then 0x3C2 else 0x3C3)] else lowerOf c

/-- Changes characters one by one; `f` sees what stands before each, backwards, and after it. -/
def mapWithin (f : List Char → Char → List Char → List Char) : List Char → List Char → List Char
  | _, [] => []
  | before, c :: cs => f before c cs ++ mapWithin f (c :: before) cs

def lower (s : String) : String :=
  String.ofList (mapWithin lowerWithin [] s.toList)

def upper (s : String) : String :=
  String.ofList (s.toList.flatMap upperOf)

/-- Lower case becomes upper case and the other way round. -/
def swapCase (s : String) : String :=
  String.ofList (mapWithin (fun before c after =>
    if isUppercase c then lowerWithin before c after
    else if isLowercase c then upperOf c
    else [c]) [] s.toList)

/-- The first cased character of each word in title case, the others in lower case. -/
def title (s : String) : String :=
  String.ofList (mapWithin (fun before c after =>
    if before.head?.any isCased then lowerWithin before c after else titleOf c) [] s.toList)

/-- Is there a cased character, and none of lower or title case? -/
def isUpper (s : String) : Bool :=
  s.toList.any isUppercase && s.toList.all fun c => !isLowercase c && !isTitlecase c

end ExprTree.Text
