import ExprTree.Path
import ExprTree.Text.Quoted

/-!
# Files

What a program needs of a file system, whatever it runs in, and a file system
that is only a value: a tree of directories with the contents of their files.
-/

namespace ExprTree

/-- Why a file cannot be used. -/
inductive FileProblem where
  | notFound | exists | notDirectory | isDirectory
  | other (number : Nat) (description : String)
deriving DecidableEq, Repr

structure FileFault where
  problem : FileProblem
  path : Path
deriving DecidableEq, Repr

def FileProblem.number : FileProblem → Nat
  | .notFound => 2
  | .exists => 17
  | .notDirectory => 20
  | .isDirectory => 21
  | .other n _ => n

def FileProblem.description : FileProblem → String
  | .notFound => "No such file or directory"
  | .exists => "File exists"
  | .notDirectory => "Not a directory"
  | .isDirectory => "Is a directory"
  | .other _ d => d

def FileFault.message (f : FileFault) : String :=
  "[Errno " ++ toString f.problem.number ++ "] " ++ f.problem.description ++ ": " ++ Text.quoted f.path.toText

/-- The operations on files. -/
structure FileAccess (m : Type → Type) where
  read : Path → m (Except FileFault (List UInt8))
  /-- Replaces the content of a file; there has to be a directory for it. -/
  write : Path → String → m (Except FileFault Unit)
  makeDirectory : Path → m (Except FileFault Unit)
  isDirectory : Path → m Bool

namespace FileAccess

variable {m : Type → Type} [Monad m] (files : FileAccess m)

/-- Makes a directory, unless there is one. -/
def makeUnlessThere (p : Path) : m (Except FileFault Unit) := do
  match ← files.makeDirectory p with
  | .ok () => return .ok ()
  | .error f => return if f.problem ≠ .notFound && (← files.isDirectory p) then .ok () else .error f

/-- Makes a directory and those around it, as far as they are missing. `depth` bounds how many. -/
def makeDirectories : Nat → Path → m (Except FileFault Unit)
  | 0, p => files.makeUnlessThere p
  | depth + 1, p => do
    match ← files.makeDirectory p with
    | .ok () => return .ok ()
    | .error f =>
      if f.problem ≠ .notFound then return if ← files.isDirectory p then .ok () else .error f
      else if p.names.isEmpty then return .error f
      else
        match ← makeDirectories depth p.parent with
        | .ok () => files.makeUnlessThere p
        | .error f => return .error f

/-- Writes a file, with the directories that it needs. -/
def writeDeep (p : Path) (text : String) : m (Except FileFault Unit) := do
  match ← files.makeDirectories p.names.length p.parent with
  | .ok () => files.write p text
  | .error f => return .error f

end FileAccess

/-! ## A tree of files -/

inductive FileTree where
  | file (content : List UInt8)
  | directory (entries : List (String × FileTree))
deriving Repr, Inhabited

namespace FileTree

def empty : FileTree := .directory []

def entry? (t : FileTree) (name : String) : Option FileTree :=
  match t with
  | .file _ => none
  | .directory es => es.lookup name

/-- What is at the end of a list of names. -/
def at? (t : FileTree) : List String → Option FileTree
  | [] => some t
  | n :: ns => (t.entry? n).bind (·.at? ns)

def setEntry (es : List (String × FileTree)) (name : String) (t : FileTree) : List (String × FileTree) :=
  match es with
  | [] => [(name, t)]
  | (n, old) :: rest => if n = name then (n, t) :: rest else (n, old) :: setEntry rest name t

/-- Puts a tree at the end of a list of names; the directories on the way have to be there. -/
def put (t : FileTree) (names : List String) (new : FileTree) : FileTree :=
  match names with
  | [] => new
  | n :: ns =>
    match t with
    | .file _ => t
    | .directory es =>
      match es.lookup n with
      | some old => .directory (setEntry es n (old.put ns new))
      | none => if ns.isEmpty then .directory (setEntry es n new) else t

/-- Follows names from a directory. The names that lead there directly, or what is wrong. -/
def follow (t : FileTree) (here : List String) : List String → Except FileProblem (List String)
  | [] => .ok here
  | n :: ns =>
    match t.at? here with
    | some (.directory es) =>
      if n = ".." then follow t here.dropLast ns
      else if (es.lookup n).isSome then follow t (here ++ [n]) ns
      else .error .notFound
    | some (.file _) => .error .notDirectory
    | none => .error .notFound

/-- What is at the end of a path. -/
def find (t : FileTree) (p : Path) : Except FileProblem (List String × FileTree) := do
  let names ← t.follow [] p.names
  match t.at? names with
  | some found => return (names, found)
  | none => throw .notFound

/-- The directory that a path is in, and the last name of the path. -/
def findParent (t : FileTree) (p : Path) : Except FileProblem (List String × String) :=
  match p.names.getLast? with
  | none => .error .exists
  | some name => do
    match ← t.find p.parent with
    | (names, .directory _) => return (names, name)
    | (_, .file _) => throw .notDirectory

def read (t : FileTree) (p : Path) : Except FileProblem (List UInt8) := do
  match ← t.find p with
  | (_, .file content) => return content
  | (_, .directory _) => throw .isDirectory

def isDirectory (t : FileTree) (p : Path) : Bool :=
  match t.find p with
  | .ok (_, .directory _) => true
  | _ => false

def write (t : FileTree) (p : Path) (content : List UInt8) : Except FileProblem FileTree :=
  if t.isDirectory p then .error .isDirectory
  else do
    let (names, name) ← t.findParent p
    return t.put (names ++ [name]) (.file content)

def makeDirectory (t : FileTree) (p : Path) : Except FileProblem FileTree :=
  match t.find p with
  | .ok _ => .error .exists
  | .error _ => do
    let (names, name) ← t.findParent p
    return t.put (names ++ [name]) empty

/-- All files, with the paths that lead to them. -/
def files : FileTree → List (List String × List UInt8)
  | .file content => [([], content)]
  | .directory es => filesOf es
where
  filesOf : List (String × FileTree) → List (List String × List UInt8)
    | [] => []
    | (n, t) :: rest => (files t).map (fun (ns, c) => (n :: ns, c)) ++ filesOf rest

end FileTree

/-- The file system that is a value. -/
def FileTree.access : FileAccess (StateM FileTree) where
  read p := return (← get).read p |>.mapError (⟨·, p⟩)
  write p text := do
    match (← get).write p text.toUTF8.toList with
    | .ok t =>
      set t
      return .ok ()
    | .error problem => return .error ⟨problem, p⟩
  makeDirectory p := do
    match (← get).makeDirectory p with
    | .ok t =>
      set t
      return .ok ()
    | .error problem => return .error ⟨problem, p⟩
  isDirectory p := return (← get).isDirectory p

/-- Adds a file, with the directories that it needs. -/
def FileTree.add (t : FileTree) (p : Path) (content : List UInt8) : FileTree :=
  let (_, t) := (FileTree.access.makeDirectories p.names.length p.parent).run t
  (t.write p content).toOption.getD t

/-- The content of a file that holds text. -/
def FileTree.text? (t : FileTree) (p : Path) : Option String :=
  (t.read p).toOption.bind fun bs => String.fromUTF8? ⟨bs.toArray⟩

end ExprTree
