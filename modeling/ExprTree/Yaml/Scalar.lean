import ExprTree.Text.Blank
import ExprTree.Text.Digit
import ExprTree.Yaml.Cursor
import ExprTree.Yaml.Token

/-!
# Texts of scalars

The four ways of writing a scalar: plain, in single or double quotes, and as
a block of lines that is kept or folded. A line break inside a scalar that is
not kept is read as a space, and each further one as itself.
-/

namespace ExprTree.Yaml.Scalar

/-- A scalar's text, and the place after it. -/
abbrev Result := Except Fault (List Nat × Cursor)

def codesOf (cs : List Char) : List Nat :=
  cs.map Char.toNat

/-- What a line break becomes when further breaks follow it. -/
def folded (first : Char) (more : List Char) : List Char :=
  if first ≠ '\n' then first :: more else if more.isEmpty then [' '] else more

/-! ## Quoted scalars -/

/-- The escapes of one character. -/
def escape? (c : Char) : Option Char :=
  [('0', '\x00'), ('a', '\x07'), ('b', '\x08'), ('t', '\t'), ('\t', '\t'), ('n', '\n'), ('v', '\x0b'),
    ('f', '\x0c'), ('r', '\r'), ('e', '\x1b'), (' ', ' '), ('"', '"'), ('\\', '\\'), ('/', '/'),
    ('N', '\x85'), ('_', '\u00a0'), ('L', '\u2028'), ('P', '\u2029')].lookup c

/-- The number of digits after an escape of a code point. -/
def escapeWidth? (c : Char) : Option Nat :=
  [('x', 2), ('u', 4), ('U', 8)].lookup c

/-- An escaped code point, after the letter that gives its width. -/
def codePoint (width : Nat) (c : Cursor) : Except Fault (Nat × Cursor) :=
  let digits := c.rest.take width
  if digits.length < width then .error .malformed
  else
    match Text.natIn? 16 digits with
    | none => .error .malformed
    | some n =>
      if n ≥ 0x80000000 then .error (.noCodePoint true)
      else if n > 0x10FFFF then .error (.noCodePoint false)
      else .ok (n, c.skip width)

/-- The breaks, and the blanks around them, up to the next line with text. -/
def breaks : Nat → Cursor → Except Fault (List Char × Cursor)
  | 0, _ => .error .malformed
  | fuel + 1, c =>
    if c.seesDivider then .error .malformed
    else
      let c := c.skipWhile fun d => d = ' ' || d = '\t'
      match c.lineBreak? with
      | none => .ok ([], c)
      | some (b, c) => do
        let (more, c) ← breaks fuel c
        return (b :: more, c)

/-- The blanks between words, and line breaks among them. -/
def spaces (c : Cursor) : Except Fault (List Char × Cursor) :=
  let (found, c) := c.takeWhile fun d => d = ' ' || d = '\t'
  if c.atEnd then .error .malformed
  else
    match c.lineBreak? with
    | none => .ok (found, c)
    | some (b, c) => do
      let (more, c) ← breaks (c.rest.length + 1) c
      return (folded b more, c)

/-- The characters up to the closing quote. -/
def quotedBody (double : Bool) : Nat → Cursor → Result
  | 0, _ => .error .malformed
  | fuel + 1, c =>
    match c.rest with
    | [] => .error .malformed
    | d :: more =>
      if !double && d = '\'' && more.head? = some '\'' then do
        let (cs, c) ← quotedBody double fuel (c.skip 2)
        return ('\''.toNat :: cs, c)
      else if d = (if double then '"' else '\'') then .ok ([], c.next)
      else if double && d = '\\' then
        let c := c.next
        match c.rest with
        | [] => .error .malformed
        | e :: _ =>
          match escape? e, escapeWidth? e, c.lineBreak? with
          | some x, _, _ => do
            let (cs, c) ← quotedBody double fuel c.next
            return (x.toNat :: cs, c)
          | _, some width, _ => do
            let (n, c) ← codePoint width c.next
            let (cs, c) ← quotedBody double fuel c
            return (n :: cs, c)
          | _, _, some (_, c) => do
            let (kept, c) ← breaks (c.rest.length + 1) c
            let (cs, c) ← quotedBody double fuel c
            return (codesOf kept ++ cs, c)
          | none, none, none => .error .malformed
      else if isBlank d then do
        let (found, c) ← spaces c
        let (cs, c) ← quotedBody double fuel c
        return (codesOf found ++ cs, c)
      else do
        let (cs, c) ← quotedBody double fuel c.next
        return (d.toNat :: cs, c)

/-- A quoted scalar, at its opening quote. -/
def quoted (double : Bool) (c : Cursor) : Result :=
  quotedBody double (c.rest.length + 1) c.next

/-! ## Plain scalars -/

/-- Does a plain scalar end here? Inside a flow collection the indicators end it too. -/
def endsPlain (inFlow : Bool) (c : Cursor) : Bool :=
  match c.peek? with
  | none => true
  | some d =>
    isBlank d ||
      (d = ':' && c.endsOrAt (fun e => isBlank e || (inFlow && ",[]\x7b\x7d".toList.contains e)) 1) ||
      (inFlow && ",?[]\x7b\x7d".toList.contains d)

/-- The characters of one word. -/
def word (inFlow : Bool) : Nat → Cursor → List Char × Cursor
  | 0, c => ([], c)
  | fuel + 1, c =>
    match c.rest with
    | [] => ([], c)
    | d :: _ =>
      if endsPlain inFlow c then ([], c)
      else
        let (more, c) := word inFlow fuel c.next
        (d :: more, c)

/-- Line breaks after the first, up to a line with text; `none` at a divider of documents. -/
def plainBreaks : Nat → Cursor → Option (List Char) × Cursor
  | 0, c => (none, c)
  | fuel + 1, c =>
    let c := c.skipWhile (· = ' ')
    match c.lineBreak? with
    | none => (some [], c)
    | some (b, c) =>
      if c.seesDivider then (none, c)
      else
        let (more, c) := plainBreaks fuel c
        (more.map (b :: ·), c)

/-- What stands between two words of a plain scalar. -/
structure Gap where
  /-- What is read for it; nothing when the scalar ends here. -/
  read : List Char
  crossesLine : Bool
  after : Cursor

def gap (c : Cursor) : Gap :=
  let (found, c) := c.takeWhile (· = ' ')
  match c.lineBreak? with
  | none => ⟨found, false, c⟩
  | some (b, c) =>
    if c.seesDivider then ⟨[], true, c⟩
    else
      match plainBreaks (c.rest.length + 1) c with
      | (none, c) => ⟨[], true, c⟩
      | (some more, c) => ⟨folded b more, true, c⟩

/-- A plain scalar: its text, whether its last gap crossed a line, and the place after it. -/
structure Plain where
  text : List Char
  crossesLine : Bool
  after : Cursor

/-- The words of a plain scalar, `before` being the gap in front of the next. A line that is
indented less than `indent` ends it in block context. -/
def plainWords (inFlow : Bool) (indent : Int) (before : List Char) (crossed : Bool) : Nat → Cursor → Plain
  | 0, c => ⟨[], crossed, c⟩
  | fuel + 1, c =>
    if c.sees (· = '#') then ⟨[], crossed, c⟩
    else
      let (found, after) := word inFlow (c.rest.length + 1) c
      if found.isEmpty then ⟨[], crossed, c⟩
      else
        let g := gap after
        if g.read.isEmpty || g.after.sees (· = '#') || (!inFlow && (g.after.column : Int) < indent) then
          ⟨before ++ found, g.crossesLine, g.after⟩
        else
          let more := plainWords inFlow indent g.read g.crossesLine fuel g.after
          { more with text := before ++ found ++ more.text }

def plain (inFlow : Bool) (indent : Int) (c : Cursor) : Plain :=
  plainWords inFlow indent [] false (c.rest.length + 1) c

/-! ## Block scalars -/

/-- What is done with the line breaks at the end. -/
inductive Chomping where
  | clip | strip | keep
deriving DecidableEq, Repr

structure Header where
  chomping : Chomping
  /-- How much further the block is indented, when that is given. -/
  increment : Option Nat
  after : Cursor

def chomping? (c : Cursor) : Option (Chomping × Cursor) :=
  match c.peek? with
  | some '+' => some (.keep, c.next)
  | some '-' => some (.strip, c.next)
  | _ => none

/-- A digit from 1 to 9; a zero is an error. -/
def increment? (c : Cursor) : Except Fault (Option (Nat × Cursor)) :=
  match c.peek? with
  | some d =>
    if d = '0' then .error .malformed
    else if d.isDigit then .ok (some (d.toNat - '0'.toNat, c.next))
    else .ok none
  | none => .ok none

/-- The rest of a line that may only hold a comment, and its break. -/
def emptyLine (c : Cursor) : Except Fault Cursor :=
  let c := c.skipWhile (· = ' ')
  let c := if c.sees (· = '#') then c.skipWhile (!isBreak ·) else c
  match c.lineBreak? with
  | some (_, c) => .ok c
  | none => if c.atEnd then .ok c else .error .malformed

/-- The two indicators after `|` or `>`, in either order, and the end of the line. -/
def header (c : Cursor) : Except Fault Header := do
  let found ← match chomping? c with
    | some (chomping, c) =>
      match ← increment? c with
      | some (n, c) => pure (⟨chomping, some n, c⟩ : Header)
      | none => pure ⟨chomping, none, c⟩
    | none =>
      match ← increment? c with
      | some (n, c) =>
        match chomping? c with
        | some (chomping, c) => pure ⟨chomping, some n, c⟩
        | none => pure ⟨.clip, some n, c⟩
      | none => pure ⟨.clip, none, c⟩
  if !found.after.endsOr fun d => d = ' ' || isBreak d then throw .malformed
  let after ← emptyLine found.after
  return { found with after }

/-- The breaks in front of the first line with text, and the largest indentation among them. -/
def leadingBreaks : Nat → Nat → Cursor → List Char × Nat × Cursor
  | 0, deepest, c => ([], deepest, c)
  | fuel + 1, deepest, c =>
    let c := c.skipWhile (· = ' ')
    let deepest := max deepest c.column
    match c.lineBreak? with
    | none => ([], deepest, c)
    | some (b, c) =>
      let (more, deepest, c) := leadingBreaks fuel deepest c
      (b :: more, deepest, c)

/-- Spaces up to a column. -/
def skipIndent (indent : Nat) (c : Cursor) : Cursor :=
  c.skip (min (indent - c.column) (c.run (· = ' ')).length)

/-- The breaks in front of the next line that is indented enough to hold text. -/
def blockBreaks (indent : Nat) : Nat → Cursor → List Char × Cursor
  | 0, c => ([], c)
  | fuel + 1, c =>
    let c := skipIndent indent c
    match c.lineBreak? with
    | none => ([], c)
    | some (b, c) =>
      let (more, c) := blockBreaks indent fuel c
      (b :: more, c)

def isSpace (c : Char) : Bool :=
  c = ' ' || c = '\t'

/-- The lines of a block, `before` being the breaks in front of the next one: the text, the
break of the last line, the breaks after it and the place where the block ends. -/
def blockLines (folds : Bool) (indent : Nat) (before : List Char) :
    Nat → Cursor → List Char × List Char × List Char × Cursor
  | 0, c => ([], [], before, c)
  | fuel + 1, c =>
    if c.column ≠ indent || c.atEnd then ([], [], before, c)
    else
      let flush := !c.sees isSpace
      let (line, c) := c.takeWhile (!isBreak ·)
      let (broken, c) := match c.lineBreak? with
        | some (b, c) => ([b], c)
        | none => ([], c)
      let (after, c) := blockBreaks indent (c.rest.length + 1) c
      if c.column = indent && !c.atEnd then
        let joint :=
          if folds && broken = ['\n'] && flush && !c.sees isSpace then (if after.isEmpty then [' '] else [])
          else broken
        let (more, last, trailing, c) := blockLines folds indent after fuel c
        (before ++ line ++ joint ++ more, last, trailing, c)
      else (before ++ line, broken, after, c)

/-- A block scalar, after its first indicator, inside a collection at indentation `parent`. -/
def block (folds : Bool) (parent : Int) (c : Cursor) : Except Fault (List Char × Cursor) := do
  let h ← header c
  let least := (max (parent + 1) 1).toNat
  let fuel := h.after.rest.length + 1
  let (before, indent, c) := match h.increment with
    | some n =>
      let indent := least + n - 1
      let (before, c) := blockBreaks indent fuel h.after
      (before, indent, c)
    | none =>
      let (before, deepest, c) := leadingBreaks fuel 0 h.after
      (before, max least deepest, c)
  let (text, last, trailing, c) := blockLines folds indent before fuel c
  let ending := match h.chomping with
    | .strip => []
    | .clip => last
    | .keep => last ++ trailing
  return (text ++ ending, c)

end ExprTree.Yaml.Scalar
