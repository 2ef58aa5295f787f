/-!
# Documents

An expression as plain data: the tag of a kind, named children and named
texts, both in the order they were written. A child or a text may be present
and empty.
-/

namespace ExprTree

inductive Document where
  | node (kind : String) (children : List (String × Option Document)) (values : List (String × Option String))
deriving Repr, BEq, Inhabited

namespace Document

def kind : Document → String
  | .node k _ _ => k

def children : Document → List (String × Option Document)
  | .node _ cs _ => cs

def values : Document → List (String × Option String)
  | .node _ _ vs => vs

/-- The child under a role, when there is one. -/
def child? (d : Document) (role : String) : Option Document :=
  (d.children.lookup role).join

/-- The text under a role, when there is one. -/
def value? (d : Document) (role : String) : Option String :=
  (d.values.lookup role).join

theorem sizeOf_lookup {cs : List (String × Option Document)} {role : String} {c : Document}
    (h : cs.lookup role = some (some c)) : sizeOf c < sizeOf cs := by
  induction cs with
  | nil => simp at h
  | cons entry rest ih =>
    obtain ⟨r, d⟩ := entry
    rw [List.lookup_cons] at h
    split at h
    · cases h; simp; omega
    · have := ih h; simp; omega

/-- Children are smaller than their parent. -/
theorem sizeOf_child {d c : Document} {role : String} (h : d.child? role = some c) :
    sizeOf c < sizeOf d := by
  obtain ⟨k, cs, vs⟩ := d
  have := sizeOf_lookup (Option.join_eq_some_iff.mp h)
  simp [children] at this ⊢
  omega

/-! ## Revisions -/

/-- Sets an entry in its place or at the end, or removes it. -/
def setEntry {α : Type} (entries : List (String × α)) (key : String) : Option α → List (String × α)
  | none => entries.filter (·.1 ≠ key)
  | some a =>
    if entries.any (·.1 = key) then entries.map fun e => if e.1 = key then (key, a) else e
    else entries ++ [(key, a)]

def setEntries {α : Type} (entries : List (String × α)) (changes : List (String × Option α)) : List (String × α) :=
  changes.foldl (fun es (k, a) => setEntry es k a) entries

/-- What a document is changed to; what is not mentioned stays. -/
structure Revision where
  kind : Option String
  children : List (String × Option Document)
  values : List (String × Option String)

def revise (r : Revision) (d : Document) : Document :=
  .node (r.kind.getD d.kind)
    (setEntries d.children (r.children.map fun (k, c) => (k, c.map some)))
    (setEntries d.values (r.values.map fun (k, s) => (k, s.map some)))

/-- Revises the document that a list of roles leads to, if it leads anywhere. -/
def reviseAt (r : Revision) : List String → Document → Option Document
  | [], d => some (d.revise r)
  | role :: roles, d => do
    let c ← reviseAt r roles (← d.child? role)
    return .node d.kind (setEntry d.children role (some (some c))) d.values

end Document

end ExprTree
