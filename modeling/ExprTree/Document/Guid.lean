import ExprTree.Number.IntegerText
import ExprTree.Text.Quoted

/-!
# Identifiers of parameters

An identifier is 32 hexadecimal digits, usually divided by hyphens. Reading is
lenient about how they are wrapped; writing counts from one in a fixed form.
-/

namespace ExprTree.Guid

/-- Removes every occurrence of a word, from left to right. -/
def removeWord (word : List Char) : Nat → List Char → List Char
  | 0, cs => cs
  | _, [] => []
  | fuel + 1, c :: cs =>
    if word.isPrefixOf (c :: cs) then removeWord word fuel ((c :: cs).drop word.length)
    else c :: removeWord word fuel cs

/-- Is the text an identifier? Labels, braces at the ends and hyphens do not count. -/
def isValid (s : String) : Bool :=
  let cs := s.toList
  let cs := removeWord "urn:".toList cs.length cs
  let cs := removeWord "uuid:".toList cs.length cs
  let cs := Text.trimWhere (fun c => c = '\x7b' || c = '\x7d') cs
  let cs := cs.filter (· ≠ '-')
  cs.length = 32 && (readInBase? 16 'x' cs).isSome

/-- The n-th identifier that is handed out. -/
def nth (n : Nat) : String :=
  "00000000-0000-4000-8000-" ++ String.ofList (Text.hexDigits 12 n)

end ExprTree.Guid
