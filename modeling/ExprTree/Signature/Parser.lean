import ExprTree.Signature.Basic
import ExprTree.Number.FloatText
import ExprTree.Text.Quoted

/-!
# Reading signatures

A recursive descent over the characters, one pass from left to right. Blanks
may stand around every token. A name runs up to the next of `< > ( ) { } @ ,`
and loses the blanks at its ends. Every construct closes itself, so nothing is
ever tried twice, and an error stands where no text could continue.
-/

namespace ExprTree.Signature

/-- What a reader was looking for when it stopped. -/
inductive Expectation where
  | token (c : Char)
  | typeName | moduleHint | memberName
  | integer
  /-- A type that can declare a method. -/
  | namedType
  | endOfText
deriving DecidableEq, Repr

/-- Why a text is no signature. -/
inductive SyntaxFault where
  /-- The rest of the text where something else was expected. -/
  | unexpected (what : Expectation) (rest : List Char)
  /-- A number with more digits than are read. -/
  | tooManyDigits
deriving DecidableEq, Repr

namespace Reader

/-- A reader takes characters off the front. -/
abbrev Step (α : Type) := List Char → Except SyntaxFault (α × List Char)

/-- The characters that end a name. -/
def isStop (c : Char) : Bool :=
  "<>()\x7b\x7d@,".toList.contains c

def skipBlanks (cs : List Char) : List Char :=
  cs.dropWhile Text.isBlank

/-- Takes one character, after blanks. -/
def token (c : Char) (cs : List Char) : Except SyntaxFault (List Char) :=
  match skipBlanks cs with
  | d :: rest => if d = c then .ok rest else .error (.unexpected (.token c) (d :: rest))
  | [] => .error (.unexpected (.token c) [])

/-- Takes one character, after blanks, if it is there. -/
def token? (c : Char) (cs : List Char) : Option (List Char) :=
  match skipBlanks cs with
  | d :: rest => if d = c then some rest else none
  | [] => none

def name (what : Expectation) : Step String := fun cs =>
  let cs := skipBlanks cs
  let found := Text.trimBlanks (cs.takeWhile (!isStop ·))
  let rest := cs.dropWhile (!isStop ·)
  if found.isEmpty then .error (.unexpected what rest) else .ok (String.ofList found, rest)

def integer : Step Nat := fun cs =>
  let cs := skipBlanks cs
  let digits := cs.takeWhile Char.isDigit
  if digits.isEmpty then .error (.unexpected .integer cs)
  else if digits.length > integerDigitLimit then .error .tooManyDigits
  else .ok (Text.natOfDigits digits, cs.dropWhile Char.isDigit)

/-- The position after `!`. -/
def openParameter : Step TypeSig := fun cs => do
  let cs ← token '!' cs
  let (position, cs) ← integer cs
  let cs ← token '\x7d' cs
  return (.parameter position, cs)

/-- An optional hint, and the brace that closes a named type. -/
def closeNamed (name : String) (arguments : List TypeSig) : Step TypeSig := fun cs => do
  match token? ',' cs with
  | some cs =>
    let (hint, cs) ← Reader.name .moduleHint cs
    let cs ← token '\x7d' cs
    return (.named name arguments (some hint), cs)
  | none =>
    let cs ← token '\x7d' cs
    return (.named name arguments none, cs)

mutual

/-- A type; `fuel` bounds the depth of nesting and the length of lists. -/
def type : Nat → Step TypeSig
  | 0, cs => .error (.unexpected .endOfText cs)
  | fuel + 1, cs => do
    let cs ← token '\x7b' cs
    match token? '!' cs with
    | some cs => openParameter cs
    | none =>
      let (name, cs) ← Reader.name .typeName cs
      match token? '<' cs with
      | some cs =>
        let (first, cs) ← type fuel cs
        let (more, cs) ← moreTypes fuel cs
        let cs ← token '>' cs
        closeNamed name (first :: more) cs
      | none => closeNamed name [] cs

/-- Further types, each after a comma. -/
def moreTypes : Nat → Step (List TypeSig)
  | 0, cs => .error (.unexpected .endOfText cs)
  | fuel + 1, cs =>
    match token? ',' cs with
    | some cs => do
      let (t, cs) ← type fuel cs
      let (more, cs) ← moreTypes fuel cs
      return (t :: more, cs)
    | none => .ok ([], cs)

end

/-- The parameters of a method, up to the closing parenthesis. -/
def parameters (fuel : Nat) : Step (List TypeSig) := fun cs =>
  match token? ')' cs with
  | some cs => .ok ([], cs)
  | none => do
    let (first, cs) ← type fuel cs
    let (more, cs) ← moreTypes fuel cs
    let cs ← token ')' cs
    return (first :: more, cs)

def arity : Step Nat := fun cs =>
  match token? '<' cs with
  | some cs => do
    let (n, cs) ← integer cs
    let cs ← token '>' cs
    return (n, cs)
  | none => .ok (0, cs)

def member (fuel : Nat) : Step MemberSig := fun cs => do
  let (name, cs) ← Reader.name .memberName cs
  let (arity, cs) ← Reader.arity cs
  let cs ← token '@' cs
  let (declaring, rest) ← type fuel cs
  if !declaring.isNamed then throw (.unexpected .namedType cs)
  let rest ← token '(' rest
  let (parameters, rest) ← Reader.parameters fuel rest
  return (⟨name, arity, declaring, parameters⟩, rest)

/-- Runs a reader on a whole text; only blanks may follow. -/
def run {α : Type} (step : Nat → Step α) (s : String) : Except SyntaxFault α := do
  let cs := s.toList
  let (result, rest) ← step (cs.length + 1) cs
  match skipBlanks rest with
  | [] => return result
  | c :: cs => throw (.unexpected .endOfText (c :: cs))

end Reader

/-- Reads the signature of a type. -/
def TypeSig.parse (s : String) : Except SyntaxFault TypeSig :=
  Reader.run Reader.type s

/-- Reads the signature of a method. -/
def MemberSig.parse (s : String) : Except SyntaxFault MemberSig :=
  Reader.run Reader.member s

/-! ## Reporting -/

/-- What stands in place of a token. -/
def foundText : List Char → String
  | [] => "end of input"
  | c :: _ => Text.quoted (String.singleton c)

/-- The complaint about a text that goes on with `rest`. -/
def Expectation.message (rest : List Char) : Expectation → String
  | .token c => "Expected '" ++ String.singleton c ++ "', found " ++ foundText rest
  | .typeName => "Expected a type name"
  | .moduleHint => "Expected a module hint"
  | .memberName => "Expected a member name"
  | .integer => "Expected an integer"
  | .namedType => "Declaring type cannot be an open parameter"
  | .endOfText => "Unexpected trailing characters " ++ Text.quoted (String.ofList rest)

namespace SyntaxFault

/-- How many characters of the text were read. -/
def position? (text : String) : SyntaxFault → Option Nat
  | .unexpected _ rest => some (text.length - rest.length)
  | .tooManyDigits => none

def message? (text : String) (fault : SyntaxFault) : Option String :=
  match fault with
  | .unexpected what rest =>
    some ("Invalid signature " ++ Text.quoted text ++ " at position " ++
      toString (text.length - rest.length) ++ ": " ++ what.message rest)
  | .tooManyDigits => none

end SyntaxFault

end ExprTree.Signature
