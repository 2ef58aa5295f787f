import ExprTree.Data
import ExprTree.Yaml.Node

/-!
# The content of nodes

A node is read as the data its tag promises. Containers are read level by
level from the outside, so of two faults the one that is nested less deeply is
reported, and of two at one level the first.
-/

namespace ExprTree.Yaml

/-- A fault, and how many levels of containers were complete when it was found. -/
structure DeepFault where
  level : Nat
  fault : Fault

abbrev Reading (α : Type) := Except DeepFault α

namespace Reading

def malformed {α : Type} (level : Nat) : Reading α :=
  .error ⟨level, .malformed⟩

/-- Both results; of two faults the one at the lower level. -/
def both {α β : Type} : Reading α → Reading β → Reading (α × β)
  | .ok a, .ok b => .ok (a, b)
  | .error f, .ok _ => .error f
  | .ok _, .error g => .error g
  | .error f, .error g => .error (if f.level ≤ g.level then f else g)

def all {α : Type} : List (Reading α) → Reading (List α)
  | [] => .ok []
  | r :: rs => (both r (all rs)).map fun (a, as) => a :: as

end Reading

/-! ## Scalars -/

namespace Scalar

/-- A number in base 60, from its parts. -/
def inSixtieths {α : Type} (add : α → α → α) (scale : α → Nat → α) (zero : α) (parts : List α) : α :=
  (parts.reverse.zipIdx.foldl fun sum (part, i) => add sum (scale part (60 ^ i))) zero

def splitColons (cs : List Char) : List (List Char) :=
  cs.splitOn ':'

/-- An integer: binary, octal, hexadecimal, in base 60 or decimal. Underscores do not count. -/
def readInt (cs : List Char) : Except ScalarFault Int :=
  let cs := cs.filter (· ≠ '_')
  if cs.isEmpty then .error .empty
  else
    let (negative, body) := splitSign cs
    let sign (n : Int) : Int := if negative then -n else n
    let inBase (base : Nat) (marker : Char) (ds : List Char) : Except ScalarFault Int :=
      match readInBase? base marker ds with
      | some n => .ok (sign n)
      | none => .error .noNumber
    match body with
    | [] => .error .empty
    | ['0'] => .ok 0
    | '0' :: 'b' :: ds => inBase 2 'b' ds
    | '0' :: 'x' :: ds => inBase 16 'x' ds
    | '0' :: ds => inBase 8 'o' ('0' :: ds)
    | body =>
      let parts := if body.contains ':' then splitColons body else [body]
      match parts.mapM fun p => readInteger? (String.ofList p) with
      | some ns => .ok (sign (inSixtieths (· + ·) (fun (n : Int) (k : Nat) => n * k) 0 ns))
      | none => .error .noNumber

/-- A float: an infinity, no number, in base 60 or decimal. Underscores do not count. -/
def readFloat (cs : List Char) : Except ScalarFault Binary :=
  let cs := (cs.filter (· ≠ '_')).map Char.toLower
  if cs.isEmpty then .error .empty
  else
    let (negative, body) := splitSign cs
    let sign (x : Binary) : Binary := if negative then x.neg else x
    if body = ".inf".toList then .ok (sign (.infinite false))
    else if body = ".nan".toList then .ok .nan
    else
      let parts := if body.contains ':' then splitColons body else [body]
      match parts.mapM fun p => Binary.read? .double (String.ofList p) with
      | some xs =>
        if body.contains ':' then
          .ok (sign (inSixtieths (Binary.add .double) (fun x k => Binary.mul .double x (Format.double.ofInt k))
            (.finite false 0 0) xs))
        else .ok (sign (xs.headD .nan))
      | none => .error .noNumber

def readFlag (cs : List Char) : Except ScalarFault Bool :=
  match Tag.flagWords.lookup (String.ofList (cs.map Char.toLower)) with
  | some b => .ok b
  | none => .error .noFlag

/-! ### Bytes -/

def sextet? (c : Char) : Option Nat :=
  if 'A' ≤ c && c ≤ 'Z' then some (c.toNat - 'A'.toNat)
  else if 'a' ≤ c && c ≤ 'z' then some (c.toNat - 'a'.toNat + 26)
  else if c.isDigit then some (c.toNat - '0'.toNat + 52)
  else if c = '+' then some 62
  else if c = '/' then some 63
  else none

/-- The sextets up to the padding that completes a group of four; other characters do not
count. `none` when a group stays incomplete. -/
def sextets? (inGroup padding : Nat) : List Char → Option (List Nat)
  | [] => if inGroup = 0 then some [] else none
  | '=' :: cs =>
    if inGroup ≥ 2 && inGroup + padding + 1 ≥ 4 then some []
    else sextets? inGroup (if inGroup ≥ 2 then padding + 1 else padding) cs
  | c :: cs =>
    match sextet? c with
    | none => sextets? inGroup padding cs
    | some s => (sextets? ((inGroup + 1) % 4) 0 cs).map (s :: ·)

/-- The bytes that sextets make up; bits that fill no byte are dropped. -/
def bytesOf : List Nat → List UInt8
  | a :: b :: c :: d :: rest =>
    (a * 4 + b / 16).toUInt8 :: (b % 16 * 16 + c / 4).toUInt8 :: (c % 4 * 64 + d).toUInt8 :: bytesOf rest
  | [a, b, c] => [(a * 4 + b / 16).toUInt8, (b % 16 * 16 + c / 4).toUInt8]
  | [a, b] => [(a * 4 + b / 16).toUInt8]
  | _ => []

def readBytes? (cs : List Char) : Option (List UInt8) :=
  if cs.all (·.toNat < 128) then (sextets? 0 0 cs).map bytesOf else none

/-! ### Dates -/

def isLeap (year : Nat) : Bool :=
  year % 4 = 0 && (year % 100 ≠ 0 || year % 400 = 0)

def daysIn (year month : Nat) : Nat :=
  if month = 2 then (if isLeap year then 29 else 28)
  else if [4, 6, 9, 11].contains month then 30
  else 31

end Scalar

namespace Moment

def isValid (m : Moment) : Bool :=
  1 ≤ m.year && 1 ≤ m.month && m.month ≤ 12 && 1 ≤ m.day && m.day ≤ Scalar.daysIn m.year m.month &&
    m.time.all (fun (hour, minute, second, _) => hour < 24 && minute < 60 && second < 60) &&
    m.zone.all fun offset => offset.natAbs < 24 * 60

def sort (m : Moment) : String :=
  if m.time.isSome then "datetime" else "date"

def numbers (ns : List Nat) : String :=
  ", ".intercalate (ns.map toString)

/-- The description of a zone. -/
def zoneText (offset : Int) : String :=
  let name := "datetime.timezone"
  if offset = 0 then name ++ ".utc"
  else
    let seconds := offset * 60
    let days := Int.fdiv seconds 86400
    let rest := "seconds=" ++ toString (Int.fmod seconds 86400)
    let parts := (if days = 0 then [] else ["days=" ++ toString days]) ++
      (if Int.fmod seconds 86400 = 0 then [] else [rest])
    name ++ "(datetime.timedelta(" ++ ", ".intercalate parts ++ "))"

def describe (m : Moment) : String :=
  match m.time with
  | none => "datetime.date(" ++ numbers [m.year, m.month, m.day] ++ ")"
  | some (hour, minute, second, micro) =>
    let fine := if micro ≠ 0 then [second, micro] else if second ≠ 0 then [second] else []
    let zone := match m.zone with
      | some offset => ", tzinfo=" ++ zoneText offset
      | none => ""
    "datetime.datetime(" ++ numbers ([m.year, m.month, m.day, hour, minute] ++ fine) ++ zone ++ ")"

end Moment

/-! ## Nodes -/

namespace Node

/-- The sorts that are read from a text. -/
def readsText : Tag → Bool
  | .null | .bool | .int | .float | .str | .binary | .timestamp => true
  | _ => false

/-- The text of a node: its own, or that of the default value of a mapping. -/
def text? : Nat → Node → Option (List Nat)
  | 0, _ => none
  | fuel + 1, n =>
    match n with
    | .scalar _ codes => some codes
    | .mapping _ entries =>
      (entries.find? fun (k, _) => match k with
        | .scalar .default _ => true
        | _ => false).bind fun (_, v) => text? fuel v
    | _ => none

/-- A text read as the sort its tag promises. -/
def ofText (tag : Tag) (codes : List Nat) : Except Fault Data :=
  let cs := codes.map Char.ofNat
  match tag with
  | .null => .ok .null
  | .bool => (Scalar.readFlag cs).map .bool |>.mapError .scalar
  | .int => (Scalar.readInt cs).map .int |>.mapError .scalar
  | .float => (Scalar.readFloat cs).map .float |>.mapError .scalar
  | .str => .ok (Data.ofCodes codes)
  | .binary =>
    match Scalar.readBytes? cs with
    | some bs => .ok (.bytes bs)
    | none => .error .malformed
  | .timestamp =>
    match Moment.read? cs with
    | none => .error (.scalar .noDate)
    | some m => if m.isValid then .ok (.other m.sort m.describe) else .error (.scalar .invalidDate)
  | _ => .error .malformed

/-- Can the data be a key? Containers cannot. -/
def isKey : Data → Bool
  | .list _ | .set _ | .map _ | .loop => false
  | _ => true

/-- The entries of a mapping: first those it takes over from others, a list of them from last to
first, then its own. `none` if it takes over anything but mappings. -/
def flatten : Nat → List (Node × Node) → Option (List (Node × Node))
  | 0, _ => none
  | fuel + 1, entries => do
    let taken ← entries.filterMapM fun (k, v) =>
      match k with
      | .scalar .merge _ =>
        match v with
        | .mapping _ es => (flatten fuel es).map some
        | .loop => some (some [])
        | .sequence _ items => do
          let lists ← items.mapM fun item =>
            match item with
            | .mapping _ es => flatten fuel es
            | .loop => some []
            | _ => none
          return some lists.reverse.flatten
        | _ => none
      | _ => some none
    let own := entries.filterMap fun (k, v) =>
      match k with
      | .scalar .merge _ => none
      | .scalar .default codes => some (.scalar .str codes, v)
      | k => some (k, v)
    return taken.flatten ++ own

/-- Reads a node; `level` containers are around it and `fuel` is more than its depth. -/
def content : Nat → Nat → Node → Reading Data
  | 0, level, _ => Reading.malformed level
  | fuel + 1, level, n =>
    let items (ns : List Node) : Reading (List Data) := Reading.all (ns.map (content fuel (level + 1)))
    let entries (es : List (Node × Node)) : Reading (List (Data × Data)) :=
      match flatten (fuel + 1) es with
      | none => Reading.malformed (level + 1)
      | some es =>
        Reading.all (es.map fun (k, v) =>
          let key := content fuel (level + 1) k
          -- a container is refused as a key before it is filled
          let key := match k with
            | .scalar .. => key
            | _ => match key with
              | .error f => if f.level ≤ level + 1 then .error f else Reading.malformed (level + 1)
              | .ok d => if isKey d then .ok d else Reading.malformed (level + 1)
          Reading.both key (content fuel (level + 1) v))
    -- lists of entries that keep their order and may repeat a key
    let pairs (ns : List Node) : Reading Data :=
      (Reading.all (ns.map fun n =>
        match n with
        | .mapping _ [(k, v)] =>
          (Reading.both (content fuel (level + 1) k) (content fuel (level + 1) v)).map fun (a, b) => Data.tuple [a, b]
        | _ => Reading.malformed (level + 1))).map .list
    let ofTag (tag : Tag) : Reading Data :=
      if readsText tag then
        match text? (fuel + 1) n with
        | none => Reading.malformed level
        | some codes => (ofText tag codes).mapError fun f => ⟨level, f⟩
      else
        match tag with
        | .seq | .map | .set | .omap | .pairs => Reading.malformed (level + 1)
        | _ => Reading.malformed level
    match n with
    | .loop => .ok .loop
    | .scalar tag _ => ofTag tag
    | .sequence tag ns =>
      match tag with
      | .seq => (items ns).map .list
      | .omap | .pairs => pairs ns
      | tag => ofTag tag
    | .mapping tag es =>
      match tag with
      | .map => (entries es).map Data.ofEntries
      | .set => (entries es).map fun es =>
          match Data.ofEntries es with
          | .map kept => .set (kept.map (·.1))
          | d => d
      | tag => ofTag tag

/-- How deeply nodes are nested, at most. -/
def depth : Node → Nat
  | .scalar .. | .loop => 1
  | .sequence _ items => depths items + 1
  | .mapping _ entries => entryDepths entries + 1
where
  depths : List Node → Nat
    | [] => 0
    | n :: ns => max (depth n) (depths ns)
  entryDepths : List (Node × Node) → Nat
    | [] => 0
    | (k, v) :: es => max (max (depth k) (depth v)) (entryDepths es)

end Node

/-- Reads the document of a text; a text without one holds nothing. -/
def read (s : String) : Except Fault Data := do
  match ← Node.read s with
  | none => return .null
  | some n => (n.content (n.depth + 1) 0).mapError (·.fault)

end ExprTree.Yaml
