import ExprTree.Text.Digit
import ExprTree.Yaml.Scalar

/-!
# From text to tokens

One step finds the next token, after blanks and comments. A token that may
turn out to be a key is remembered with its place; the colon that confirms it
puts a key token there. Indentation opens and closes block collections; inside
a flow collection it has no meaning.
-/

namespace ExprTree.Yaml

/-- A token that may be a key, until its line ends. -/
structure KeyCandidate where
  /-- The number of tokens before it. -/
  place : Nat
  /-- Its line can only go on as an entry of the mapping around it. -/
  required : Bool
  index : Nat
  line : Nat
  column : Nat
deriving Repr

structure Lexer where
  cursor : Cursor
  /-- The tokens so far, the last first. -/
  tokens : List Token
  /-- How many flow collections are open. -/
  depth : Nat
  /-- The column of the innermost block collection; -1 outside of all. -/
  indent : Int
  /-- The columns of the collections around it. -/
  outer : List Int
  /-- May a key without an indicator start here? -/
  keyAllowed : Bool
  /-- At most one candidate for each depth. -/
  candidates : List (Nat × KeyCandidate)
deriving Repr

namespace Lexer

abbrev Step := Lexer → Except Fault Lexer

def start (s : String) : Lexer :=
  ⟨.start s, [], 0, -1, [], true, []⟩

def emit (l : Lexer) (t : Token) : Lexer :=
  { l with tokens := t :: l.tokens }

/-- Puts a token where so many tokens stand before it. -/
def emitAt (l : Lexer) (place : Nat) (t : Token) : Lexer :=
  let later := l.tokens.length - place
  { l with tokens := l.tokens.take later ++ t :: l.tokens.drop later }

def moveTo (l : Lexer) (c : Cursor) : Lexer :=
  { l with cursor := c }

def inFlow (l : Lexer) : Bool :=
  l.depth ≠ 0

def allowKey (l : Lexer) (b : Bool) : Lexer :=
  { l with keyAllowed := b }

/-! ## Candidates for keys -/

def candidate? (l : Lexer) : Option KeyCandidate :=
  l.candidates.lookup l.depth

def forget (l : Lexer) : Lexer :=
  { l with candidates := l.candidates.filter (·.1 ≠ l.depth) }

/-- Gives up the candidate at this depth; one that had to be a key is an error. -/
def dropCandidate : Step := fun l =>
  if l.candidate?.any (·.required) then .error .malformed else .ok l.forget

/-- Remembers the next token as a candidate, where one is allowed. -/
def addCandidate : Step := fun l =>
  if l.keyAllowed then do
    let c := l.cursor
    let required := !l.inFlow && l.indent = (c.column : Int)
    let l ← l.dropCandidate
    return { l with candidates := (l.depth, ⟨l.tokens.length, required, c.index, c.line, c.column⟩) :: l.candidates }
  else .ok l

/-- A candidate has to be confirmed in its own line, and not too far on. -/
def isStale (c : Cursor) (k : KeyCandidate) : Bool :=
  k.line ≠ c.line || c.index - k.index > 1024

def dropStale : Step := fun l =>
  if l.candidates.any fun (_, k) => isStale l.cursor k && k.required then .error .malformed
  else .ok { l with candidates := l.candidates.filter fun (_, k) => !isStale l.cursor k }

/-! ## Indentation -/

/-- Closes the block collections that are indented further than a column. -/
def closeTo (column : Int) (l : Lexer) : Lexer :=
  if l.inFlow then l
  else go l.outer l
where
  go : List Int → Lexer → Lexer
    | [], l => l
    | before :: rest, l =>
      if l.indent > column then go rest { l with tokens := .blockEnd :: l.tokens, indent := before, outer := rest }
      else l

/-- Opens a block collection, unless one is open at this column or beyond. -/
def openAt (column : Nat) (l : Lexer) : Option Lexer :=
  if l.indent < (column : Int) then some { l with indent := column, outer := l.indent :: l.outer } else none

/-- Opens a block collection with its token. -/
def openWith (t : Token) (l : Lexer) : Lexer :=
  match l.openAt l.cursor.column with
  | some l => l.emit t
  | none => l

/-! ## Between tokens -/

/-- Skips spaces, comments and line breaks. A line break outside of flow collections allows a key. -/
def skipBlanks : Nat → Lexer → Lexer
  | 0, l => l
  | fuel + 1, l =>
    let c := l.cursor.skipWhile (· = ' ')
    let c := if c.sees (· = '#') then c.skipWhile (!isBreak ·) else c
    match c.lineBreak? with
    | some (_, c) => skipBlanks fuel { l with cursor := c, keyAllowed := l.keyAllowed || !l.inFlow }
    | none => l.moveTo c

/-- Skips a byte order mark at the very start. -/
def skipMark (l : Lexer) : Lexer :=
  if l.cursor.index = 0 && l.cursor.sees (· = byteOrderMark) then l.moveTo l.cursor.next else l

/-! ## Names, tags and directives -/

def isNameChar (c : Char) : Bool :=
  c.isAlphanum || c = '-' || c = '_'

/-- A name of at least one character. -/
def name (c : Cursor) : Except Fault (String × Cursor) :=
  let (found, c) := c.takeWhile isNameChar
  if found.isEmpty then .error .malformed else .ok (String.ofList found, c)

/-- The name of an anchor, after its indicator. -/
def anchorName (c : Cursor) : Except Fault (String × Cursor) := do
  let (found, c) ← name c
  if c.endsOr fun d => isBlank d || "?:,]\x7d%@\x60".toList.contains d then return (found, c)
  else throw .malformed

def isUriChar (c : Char) : Bool :=
  c.isAlphanum || "-;/?:@&=+$,_.!~*'()[]".toList.contains c

/-- Escaped bytes, which have to be characters. -/
def escapedBytes : Nat → Cursor → Except Fault (List UInt8 × Cursor)
  | 0, _ => .error .malformed
  | fuel + 1, c =>
    match c.rest with
    | '%' :: a :: b :: _ =>
      match Text.natIn? 16 [a, b] with
      | some n => do
        let (more, c) ← escapedBytes fuel (c.skip 3)
        return (n.toUInt8 :: more, c)
      | none => .error .malformed
    | '%' :: _ => .error .malformed
    | _ => .ok ([], c)

def uriChars : Nat → Cursor → Except Fault (List Char × Cursor)
  | 0, _ => .error .malformed
  | fuel + 1, c =>
    match c.rest with
    | [] => .ok ([], c)
    | d :: _ =>
      if isUriChar d then do
        let (more, c) ← uriChars fuel c.next
        return (d :: more, c)
      else if d = '%' then do
        let (bytes, c) ← escapedBytes (c.rest.length + 1) c
        match String.fromUTF8? (ByteArray.mk bytes.toArray) with
        | none => throw .malformed
        | some s =>
          let (more, c) ← uriChars fuel c
          return (s.toList ++ more, c)
      else .ok ([], c)

/-- The characters of a tag, at least one. -/
def uri (c : Cursor) : Except Fault (String × Cursor) := do
  let (found, c) ← uriChars (c.rest.length + 1) c
  if found.isEmpty then throw .malformed
  return (String.ofList found, c)

/-- A handle: one exclamation mark, or a name between two. -/
def handle (c : Cursor) : Except Fault (String × Cursor) :=
  if !c.sees (· = '!') then .error .malformed
  else
    let c := c.next
    if c.sees (· = ' ') then .ok ("!", c)
    else
      let (found, c) := c.takeWhile isNameChar
      if c.sees (· = '!') then .ok (String.ofList ('!' :: (found ++ ['!'])), c.next)
      else .error .malformed

/-- Does the word here hold a second exclamation mark? -/
def hasHandle (c : Cursor) : Bool :=
  (c.rest.takeWhile fun d => !(d = ' ' || isBreak d)).contains '!'

/-- A tag, after its exclamation mark at `c`. -/
def writtenTag (c : Cursor) : Except Fault (WrittenTag × Cursor) := do
  let after := c.next
  let (t, c) ←
    if after.sees (· = '<') then
      let (suffix, c) ← uri after.next
      if !c.sees (· = '>') then throw .malformed
      pure ((⟨none, suffix⟩ : WrittenTag), c.next)
    else if after.endsOr isBlank then pure (⟨none, "!"⟩, after)
    else
      let (h, c) ← if hasHandle after then handle c else pure ("!", after)
      let (suffix, c) ← uri c
      pure (⟨some h, suffix⟩, c)
  if c.endsOr fun d => d = ' ' || isBreak d then return (t, c) else throw .malformed

def isSpaceOrBreak (c : Char) : Bool :=
  c = ' ' || isBreak c

/-- A number of a version. -/
def versionNumber (c : Cursor) : Except Fault (Nat × Cursor) :=
  let (digits, c) := c.takeWhile Char.isDigit
  if digits.isEmpty then .error .malformed
  else .ok (Text.natOfDigits digits, c)

/-- A directive, after its percent sign. -/
def directive (c : Cursor) : Except Fault (Token × Cursor) := do
  let (found, c) ← name c
  if !c.endsOr isSpaceOrBreak then throw .malformed
  let (t, c) ←
    if found = "YAML" then
      let (major, c) ← versionNumber (c.skipWhile (· = ' '))
      if !c.sees (· = '.') then throw .malformed
      let (_, c) ← versionNumber c.next
      if !c.endsOr isSpaceOrBreak then throw .malformed
      pure (Token.version major, c)
    else if found = "TAG" then
      let (h, c) ← handle (c.skipWhile (· = ' '))
      if !c.sees (· = ' ') then throw .malformed
      let (replacement, c) ← uri (c.skipWhile (· = ' '))
      if !c.endsOr isSpaceOrBreak then throw .malformed
      pure (.tagHandle h replacement, c)
    else pure (.otherDirective, c.skipWhile (!isBreak ·))
  return (t, ← Scalar.emptyLine c)

/-! ## Tokens -/

/-- A directive or a divider ends every block. -/
def atMargin : Step := fun l => do
  let l ← (l.closeTo (-1)).dropCandidate
  return l.allowKey false

/-- An opening bracket. -/
def openFlow (t : Token) : Step := fun l => do
  let l ← l.addCandidate
  return { l with tokens := t :: l.tokens, depth := l.depth + 1, keyAllowed := true, cursor := l.cursor.next }

/-- A closing bracket; one without its opening one is an error. -/
def closeFlow (t : Token) : Step := fun l => do
  if !l.inFlow then throw .malformed
  let l ← l.dropCandidate
  return { l with tokens := t :: l.tokens, depth := l.depth - 1, keyAllowed := false, cursor := l.cursor.next }

def flowEntry : Step := fun l => do
  let l ← l.dropCandidate
  return ((l.allowKey true).emit .flowEntry).moveTo l.cursor.next

def blockEntry : Step := fun l => do
  if !l.inFlow && !l.keyAllowed then throw .malformed
  let l := if l.inFlow then l else l.openWith .blockSequenceStart
  let l ← l.dropCandidate
  return ((l.allowKey true).emit .blockEntry).moveTo l.cursor.next

/-- A key with its indicator. -/
def explicitKey : Step := fun l => do
  if !l.inFlow && !l.keyAllowed then throw .malformed
  let l := if l.inFlow then l else l.openWith .blockMappingStart
  let l ← l.dropCandidate
  return ((l.allowKey !l.inFlow).emit .key).moveTo l.cursor.next

/-- The colon after a key. It makes the candidate a key, which may open a mapping there. -/
def value : Step := fun l => do
  let l ← match l.candidate? with
    | some k =>
      let l := l.forget.emitAt k.place .key
      let l :=
        if l.inFlow then l
        else
          match l.openAt k.column with
          | some l => l.emitAt k.place .blockMappingStart
          | none => l
      pure (l.allowKey false)
    | none =>
      if !l.inFlow && !l.keyAllowed then throw .malformed
      let l := if l.inFlow then l else l.openWith .blockMappingStart
      (l.allowKey !l.inFlow).dropCandidate
  return (l.emit .value).moveTo l.cursor.next

/-- A token that a key may start with. -/
def keyPart (read : Cursor → Except Fault (Token × Cursor)) : Step := fun l => do
  let l ← l.addCandidate
  let (t, c) ← read l.cursor
  return ((l.allowKey false).emit t).moveTo c

def blockScalar (folds : Bool) : Step := fun l => do
  let l ← l.dropCandidate
  let (text, c) ← Scalar.block folds l.indent l.cursor.next
  return ((l.allowKey true).emit (.scalar (Scalar.codesOf text) false)).moveTo c

def plainScalar : Step := fun l => do
  let l ← l.addCandidate
  let p := Scalar.plain l.inFlow (l.indent + 1) l.cursor
  return ((l.allowKey p.crossesLine).emit (.scalar (Scalar.codesOf p.text) true)).moveTo p.after

/-- Can a plain scalar start here? -/
def startsPlain (l : Lexer) : Bool :=
  match l.cursor.peek? with
  | none => false
  | some d =>
    !(isBlank d || "-?:,[]\x7b\x7d#&*!|>'\"%@\x60".toList.contains d) ||
      (!l.cursor.endsOrAt isBlank 1 && (d = '-' || (!l.inFlow && (d = '?' || d = ':'))))

def divider (t : Token) : Step := fun l => do
  let l ← l.atMargin
  return (l.emit t).moveTo (l.cursor.skip 3)

/-- The token that starts with the character `d`. -/
def token (d : Char) : Step := fun l =>
  let c := l.cursor
  let blankNext := c.endsOrAt isBlank 1
  if d = '%' && c.column = 0 then do
    let l ← l.atMargin
    let (t, c) ← directive c.next
    return (l.emit t).moveTo c
  else if c.column = 0 && c.seesDivider then
    l.divider (if d = '-' then .documentStart else .documentEnd)
  else if d = '[' then l.openFlow .flowSequenceStart
  else if d = '\x7b' then l.openFlow .flowMappingStart
  else if d = ']' then l.closeFlow .flowSequenceEnd
  else if d = '\x7d' then l.closeFlow .flowMappingEnd
  else if d = ',' then l.flowEntry
  else if d = '-' && blankNext then l.blockEntry
  else if d = '?' && (l.inFlow || blankNext) then l.explicitKey
  else if d = ':' && (l.inFlow || blankNext) then l.value
  else if d = '*' then l.keyPart fun c => do
    let (n, c) ← anchorName c.next
    return (.alias n, c)
  else if d = '&' then l.keyPart fun c => do
    let (n, c) ← anchorName c.next
    return (.anchor n, c)
  else if d = '!' then l.keyPart fun c => do
    let (t, c) ← writtenTag c
    return (.tag t, c)
  else if d = '|' && !l.inFlow then l.blockScalar false
  else if d = '>' && !l.inFlow then l.blockScalar true
  else if d = '\'' || d = '"' then l.keyPart fun c => do
    let (codes, c) ← Scalar.quoted (d = '"') c
    return (.scalar codes false, c)
  else if l.startsPlain then l.plainScalar
  else .error .malformed

/-- Tokens up to the end of the text. -/
def tokensFrom : Nat → Lexer → Except Fault (List Token)
  | 0, _ => .error .malformed
  | fuel + 1, l => do
    let l := skipBlanks (l.cursor.rest.length + 1) l.skipMark
    let l ← l.dropStale
    let l := l.closeTo l.cursor.column
    match l.cursor.peek? with
    | none =>
      let l ← (l.closeTo (-1)).dropCandidate
      return l.tokens.reverse
    | some d => tokensFrom fuel (← l.token d)

end Lexer

/-- The tokens of a text. -/
def Token.scan (s : String) : Except Fault (List Token) :=
  if s.toList.all isAllowed then Lexer.tokensFrom (s.length + 1) (.start s) else .error .malformed

end ExprTree.Yaml
