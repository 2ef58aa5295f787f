import ExprTree.Disk
import ExprTree.Document.Decode
import ExprTree.Document.Format
import ExprTree.Node.Text
import ExprTree.Policy.File

/-!
# Documents and policies in files

The suffix of a file names the format of its document, in any case of its
letters; a file of another suffix is not touched. Line breaks of every kind
are read as line feeds.
-/

namespace ExprTree.Storage

/-- What a file is read or written as. -/
inductive Purpose where
  | document | policy
deriving DecidableEq, Repr

def Purpose.name : Purpose → String
  | .document => "document"
  | .policy => "policy file"

inductive Failure where
  | unreadable (purpose : Purpose) (path : Path) (fault : FileFault)
  | unwritable (purpose : Purpose) (path : Path) (fault : FileFault)
  /-- The bytes of a file are not text. -/
  | notText
  | unknownFormat (path : Path)
  | document (fault : DocumentFault)
  | policy (path : Path) (fault : PolicyFault)
  | decode (fault : DecodeFault)
  | naming (fault : Signature.NamingFault)
  /-- A number is too long to be shown. -/
  | tooLong
deriving Repr

/-- The wording, if there is one. -/
def Failure.message? : Failure → Option String
  | .unreadable what p f => some ("Cannot read " ++ what.name ++ " '" ++ p.toText ++ "': " ++ f.message)
  | .unwritable what p f => some ("Cannot write " ++ what.name ++ " '" ++ p.toText ++ "': " ++ f.message)
  | .unknownFormat p => some ("Unknown document format '" ++ p.suffix ++ "' for '" ++ p.toText ++ "'")
  | .document f => f.message?
  | .policy p f => f.message? p.toText
  | .decode f => f.message? .empty
  | .naming f => some f.message
  | .notText | .tooLong => none

/-- Work with files that may load modules. -/
abbrev Action (m : Type → Type) := ExceptT Failure (StateT Names m)

variable {m : Type → Type} [Monad m] (files : FileAccess m) (library : Library)

def inFiles {α : Type} (a : m α) : Action m α :=
  ExceptT.lift (StateT.lift a)

def ofResult {α ε : Type} (failure : ε → Failure) : Except ε α → Action m α
  | .ok a => return a
  | .error f => throw (failure f)

/-! ## Texts -/

/-- Every line break of a text as a line feed. -/
def unifyBreaks : List Char → List Char
  | '\r' :: '\n' :: cs => '\n' :: unifyBreaks cs
  | '\r' :: cs => '\n' :: unifyBreaks cs
  | c :: cs => c :: unifyBreaks cs
  | [] => []

def readText (what : Purpose) (p : Path) : Action m String := do
  let bytes ← ofResult (.unreadable what p) (← inFiles (files.read p))
  match String.fromUTF8? (ByteArray.mk bytes.toArray) with
  | some s => return String.ofList (unifyBreaks s.toList)
  | none => throw .notText

/-! ## Documents -/

/-- The format that a suffix names. -/
def formatOf? (p : Path) : Option TextFormat :=
  [(".json", TextFormat.json), (".yaml", .yaml), (".yml", .yaml)].lookup p.suffix

def formatOf (p : Path) : Action m TextFormat :=
  match formatOf? p with
  | some f => return f
  | none => throw (.unknownFormat p)

def readDocument (p : Path) : Action m Document := do
  let format ← formatOf p
  let text ← readText files .document p
  ofResult .document (Document.ofText format text)

/-- JSON in files is indented by two spaces. -/
def fileLayout : Json.Layout := .indented 2

/-- Writes a document, with the directories that its file needs. -/
def writeDocument (d : Document) (p : Path) : Action m Unit := do
  let format ← formatOf p
  ofResult (.unwritable .document p) (← inFiles (files.writeDeep p (d.toText format fileLayout)))

/-- The text of the node that a document is decoded to. -/
def decoded (policy : Policy) (d : Document) : Action m String := do
  let (r, s) := (d.decode library policy).run ⟨← get, [], 0⟩
  set s.names
  let n ← ofResult .decode r
  match n.text .empty with
  | some s => return s
  | none => throw .tooLong

/-! ## Policies -/

def readPolicy (p : Path) : Action m Policy := do
  let text ← readText files .policy p
  let (r, names) := (Policy.ofText library text).run (← get)
  set names
  ofResult (.policy p) r

def writePolicy (policy : Policy) (p : Path) : Action m Unit := do
  let file ← ofResult .naming policy.toFile
  ofResult (.unwritable .policy p) (← inFiles (files.write p file.toText))

end ExprTree.Storage
