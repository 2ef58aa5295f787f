import ExprTree.Yaml.Tag
import ExprTree.Yaml.Token.Lexer

/-!
# Nodes

What the tokens of a document stand for, once tags and aliases are resolved.
An alias inside the node it names becomes a loop; any other is replaced by
what it names. A stream holds at most one document.
-/

namespace ExprTree.Yaml

inductive Node where
  | scalar (tag : Tag) (codes : List Nat)
  | sequence (tag : Tag) (items : List Node)
  | mapping (tag : Tag) (entries : List (Node × Node))
  | loop
deriving Repr, Inhabited

namespace Node

/-- A node that nothing is written for. -/
def empty : Node :=
  .scalar .null []

/-! ## Reading tokens -/

/-- The handles that directives and the format define, and the nodes that anchors name. An
anchor without a node names one that is not complete. -/
structure Scope where
  handles : List (String × String)
  anchors : List (String × Option Node)

/-- The tokens that are left. -/
structure Reader where
  tokens : List Token
  scope : Scope

/-- Only a malformed text can fail here. -/
abbrev Step (α : Type) := Reader → Option (α × Reader)

def Reader.drop (r : Reader) : Reader :=
  { r with tokens := r.tokens.tail }

def Reader.sees (r : Reader) (t : Token) : Bool :=
  r.tokens.head? = some t

/-- What is written in front of a node. -/
structure Properties where
  anchor : Option String
  tag : Option WrittenTag

def anchorOf? (r : Reader) : Option String × Reader :=
  match r.tokens with
  | .anchor n :: _ => (some n, r.drop)
  | _ => (none, r)

def tagOf? (r : Reader) : Option WrittenTag × Reader :=
  match r.tokens with
  | .tag t :: _ => (some t, r.drop)
  | _ => (none, r)

/-- An anchor and a tag, in either order. -/
def properties (r : Reader) : Properties × Reader :=
  match anchorOf? r with
  | (some n, r) =>
    let (t, r) := tagOf? r
    (⟨some n, t⟩, r)
  | (none, r) =>
    let (t, r) := tagOf? r
    let (n, r) := anchorOf? r
    (⟨n, t⟩, r)

/-- The tag in front of a node: `some none` if there is none or only an exclamation mark. -/
def tagIn? (scope : Scope) : Option WrittenTag → Option (Option Tag)
  | none => some none
  | some ⟨none, suffix⟩ => some (if suffix = "!" then none else some (.ofUri suffix))
  | some ⟨some h, suffix⟩ => (scope.handles.lookup h).map fun start => some (.ofUri (start ++ suffix))

/-- Makes a node known under its anchor. -/
def define (p : Properties) (n : Option Node) (r : Reader) : Option Reader :=
  match p.anchor with
  | none => some r
  | some a => some { r with scope := { r.scope with anchors := (a, n) :: r.scope.anchors } }

/-- The tag of a scalar: a plain one without a tag tells its own sort, and so does any that is
marked by an exclamation mark. -/
def scalarTag (p : Properties) (tag : Option Tag) (codes : List Nat) (plain : Bool) : Tag :=
  match tag with
  | some t => t
  | none => if plain || p.tag.isSome then .ofPlain (codes.map Char.ofNat) else .str

/-- The ends of the places where a node may be missing. -/
def afterEntry : List Token := [.blockEntry, .blockEnd]

def afterIndentlessEntry : List Token := [.blockEntry, .key, .value, .blockEnd]

def afterKey : List Token := [.key, .value, .blockEnd]

mutual

/-- A node. In block context a block collection may start here, and as a value in a mapping
also a sequence that is not indented. -/
def node (block indentless : Bool) : Nat → Step Node
  | 0, _ => none
  | fuel + 1, r =>
    match r.tokens with
    | .alias name :: _ =>
      match r.scope.anchors.lookup name with
      | some n => some (n.getD .loop, r.drop)
      | none => none
    | _ => do
      let (p, r) := properties r
      let tag ← tagIn? r.scope p.tag
      -- an anchor names one node only
      if p.anchor.any fun a => (r.scope.anchors.lookup a).isSome then none
      let finish (n : Node) (r : Reader) : Option (Node × Reader) := do
        return (n, ← define p (some n) r)
      match r.tokens with
      | .scalar codes plain :: _ => finish (.scalar (scalarTag p tag codes plain) codes) r.drop
      | .blockEntry :: _ =>
        if indentless then do
          let (items, r) ← indentlessItems fuel (← define p none r)
          finish (.sequence (tag.getD .seq) items) r
        else if p.anchor.isSome || p.tag.isSome then
          finish (.scalar (tag.getD .null) []) r
        else none
      | .flowSequenceStart :: _ => do
        let (items, r) ← flowItems true fuel (← define p none r.drop)
        finish (.sequence (tag.getD .seq) items) r
      | .flowMappingStart :: _ => do
        let (entries, r) ← flowEntries true fuel (← define p none r.drop)
        finish (.mapping (tag.getD .map) entries) r
      | t :: _ =>
        if block && t = .blockSequenceStart then do
          let (items, r) ← blockItems fuel (← define p none r.drop)
          finish (.sequence (tag.getD .seq) items) r
        else if block && t = .blockMappingStart then do
          let (entries, r) ← blockEntries fuel (← define p none r.drop)
          finish (.mapping (tag.getD .map) entries) r
        else if p.anchor.isSome || p.tag.isSome then
          finish (.scalar (tag.getD .null) []) r
        else none
      | [] =>
        if p.anchor.isSome || p.tag.isSome then finish (.scalar (tag.getD .null) []) r
        else none

/-- A node, unless one of the given tokens shows that it is missing. -/
def nodeUnless (ends : List Token) (block indentless : Bool) : Nat → Step Node
  | 0, _ => none
  | fuel + 1, r => if r.tokens.head?.any ends.contains then some (empty, r) else node block indentless fuel r

/-- The items of a block sequence, up to its end. -/
def blockItems : Nat → Step (List Node)
  | 0, _ => none
  | fuel + 1, r =>
    match r.tokens with
    | .blockEntry :: _ => do
      let (first, r) ← nodeUnless afterEntry true false fuel r.drop
      let (more, r) ← blockItems fuel r
      return (first :: more, r)
    | .blockEnd :: _ => some ([], r.drop)
    | _ => none

/-- The items of a sequence that is not indented: it ends where no further item starts. -/
def indentlessItems : Nat → Step (List Node)
  | 0, _ => none
  | fuel + 1, r =>
    match r.tokens with
    | .blockEntry :: _ => do
      let (first, r) ← nodeUnless afterIndentlessEntry true false fuel r.drop
      let (more, r) ← indentlessItems fuel r
      return (first :: more, r)
    | _ => some ([], r)

/-- The entries of a block mapping, up to its end. -/
def blockEntries : Nat → Step (List (Node × Node))
  | 0, _ => none
  | fuel + 1, r =>
    match r.tokens with
    | .blockEnd :: _ => some ([], r.drop)
    | .key :: _ => do
      let (key, r) ← nodeUnless afterKey true true fuel r.drop
      let (value, r) ← blockValue fuel r
      let (more, r) ← blockEntries fuel r
      return ((key, value) :: more, r)
    | _ => none

/-- The value after a key in a block mapping. -/
def blockValue : Nat → Step Node
  | 0, _ => none
  | fuel + 1, r =>
    match r.tokens with
    | .value :: _ => nodeUnless afterKey true true fuel r.drop
    | _ => some (empty, r)

/-- The items of a flow sequence, up to its bracket. An item with a key is a mapping of one entry. -/
def flowItems (isFirst : Bool) : Nat → Step (List Node)
  | 0, _ => none
  | fuel + 1, r =>
    if r.sees .flowSequenceEnd then some ([], r.drop)
    else do
      let r ← if isFirst then some r else if r.sees .flowEntry then some r.drop else none
      if r.sees .flowSequenceEnd then some ([], r.drop)
      else if r.sees .key then do
        let (key, r) ← nodeUnless [.value, .flowEntry, .flowSequenceEnd] false false fuel r.drop
        let (value, r) ←
          if r.sees .value then nodeUnless [.flowEntry, .flowSequenceEnd] false false fuel r.drop
          else some (empty, r)
        let (more, r) ← flowItems false fuel r
        return (.mapping .map [(key, value)] :: more, r)
      else do
        let (first, r) ← node false false fuel r
        let (more, r) ← flowItems false fuel r
        return (first :: more, r)

/-- The entries of a flow mapping, up to its brace. An entry may be a key alone. -/
def flowEntries (isFirst : Bool) : Nat → Step (List (Node × Node))
  | 0, _ => none
  | fuel + 1, r =>
    if r.sees .flowMappingEnd then some ([], r.drop)
    else do
      let r ← if isFirst then some r else if r.sees .flowEntry then some r.drop else none
      if r.sees .flowMappingEnd then some ([], r.drop)
      else if r.sees .key then do
        let (key, r) ← nodeUnless [.value, .flowEntry, .flowMappingEnd] false false fuel r.drop
        let (value, r) ←
          if r.sees .value then nodeUnless [.flowEntry, .flowMappingEnd] false false fuel r.drop
          else some (empty, r)
        let (more, r) ← flowEntries false fuel r
        return ((key, value) :: more, r)
      else do
        let (key, r) ← node false false fuel r
        let (more, r) ← flowEntries false fuel r
        return ((key, empty) :: more, r)

end

/-! ## Documents -/

/-- The directives in front of a document: at most one version, which has to be a first one, and
at most one replacement for each handle. -/
def directives (seenVersion : Bool) (handles : List (String × String)) :
    List Token → Option (Bool × List (String × String) × List Token)
  | .version major :: ts =>
    if seenVersion || major ≠ 1 then none else directives true handles ts
  | .tagHandle h replacement :: ts =>
    if (handles.lookup h).isSome then none else directives seenVersion ((h, replacement) :: handles) ts
  | .otherDirective :: ts => directives seenVersion handles ts
  | ts => some (seenVersion, handles, ts)

/-- The handles that need no directive; one in `handles` goes before them. -/
def withDefaults (handles : List (String × String)) : List (String × String) :=
  handles ++ [("!", "!"), ("!!", Tag.family)]

/-- Nothing but ends of documents. -/
def isFinished (ts : List Token) : Bool :=
  ts.all (· = .documentEnd)

/-- The tokens that start a document without a node. -/
def startsNoNode (t : Token) : Bool :=
  t.isDirective || t = .documentStart || t = .documentEnd

/-- The document of a stream of tokens, if there is one: `some none` for an empty stream. -/
def ofTokens? (ts : List Token) : Option (Option Node) := do
  let fuel := 4 * ts.length + 4
  match ts with
  | [] => return none
  | t :: _ =>
    let (handles, explicit, rest) ←
      if t.isDirective || t = .documentStart then do
        let (_, handles, rest) ← directives false [] ts
        match rest with
        | .documentStart :: rest => some (handles, true, rest)
        | _ => none
      else some ([], false, ts)
    let r : Reader := ⟨rest, ⟨withDefaults handles, []⟩⟩
    let (n, r) ←
      if explicit && r.tokens.head?.all startsNoNode then some (empty, r)
      else node true false fuel r
    if isFinished r.tokens then return some n else none

end Node

/-- The document that a text holds. -/
def Node.read (s : String) : Except Fault (Option Node) := do
  let ts ← Token.scan s
  match Node.ofTokens? ts with
  | some n => return n
  | none => throw .malformed

end ExprTree.Yaml
