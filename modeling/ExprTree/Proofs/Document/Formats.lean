import ExprTree.Document.Format
import ExprTree.Proofs.Json.RoundTrip

/-!
# Documents in text formats

What a document is written as is accepted as a document again, and it is the
same one: the same tags, children and texts under the same names, in the same
order. So a format loses nothing whose reader undoes its writer. That of JSON
does, for every layout.
-/

namespace ExprTree

/-! ## Data of trees -/

namespace Tree

mutual

/-- Is this the data that a tree stands for? -/
def standsFor : Tree → Data → Bool
  | .null, .null => true
  | .flag b, .bool c => c = b
  | .text s, .text s' => s' = s
  | .list ts, .list ds => allStandFor ts ds
  | .map es, .map ds => entriesStandFor es ds
  | _, _ => false

def allStandFor : List Tree → List Data → Bool
  | [], [] => true
  | t :: ts, d :: ds => standsFor t d && allStandFor ts ds
  | _, _ => false

def entriesStandFor : List (String × Tree) → List (Data × Data) → Bool
  | [], [] => true
  | (k, t) :: es, (.text k', d) :: ds => k' = k && standsFor t d && entriesStandFor es ds
  | _, _ => false

end

mutual

theorem standsFor_iff : ∀ (t : Tree) (d : Data), t.standsFor d = true ↔ d = t.toData
  | .null, d => by cases d <;> simp [standsFor, toData]
  | .flag b, d => by cases d <;> simp [standsFor, toData]
  | .text s, d => by cases d <;> simp [standsFor, toData]
  | .list ts, d => by cases d <;> simp [standsFor, toData, allStandFor_iff ts]
  | .map es, d => by cases d <;> simp [standsFor, toData, entriesStandFor_iff es]

theorem allStandFor_iff : ∀ (ts : List Tree) (ds : List Data), allStandFor ts ds = true ↔ ds = itemsToData ts
  | [], ds => by cases ds <;> simp [allStandFor, itemsToData]
  | t :: ts, ds => by cases ds <;> simp [allStandFor, itemsToData, standsFor_iff t, allStandFor_iff ts]

theorem entriesStandFor_iff : ∀ (es : List (String × Tree)) (ds : List (Data × Data)),
    entriesStandFor es ds = true ↔ ds = entriesToData es
  | [], ds => by cases ds <;> simp [entriesStandFor, entriesToData]
  | (k, t) :: es, [] => by simp [entriesStandFor, entriesToData]
  | (k, t) :: es, (k', d) :: ds => by
    cases k' <;> simp [entriesStandFor, entriesToData, standsFor_iff t, entriesStandFor_iff es, and_assoc]

end

end Tree

namespace Document

open Schema (Step)

/-! ## Distinct names -/

/-- Does every node of a document name each of its children and each of its texts once? -/
inductive HasDistinctNames : Document → Prop where
  | node {kind : String} {cs : List (String × Option Document)} {vs : List (String × Option String)}
      (hchildren : (cs.map (·.1)).Nodup) (hvalues : (vs.map (·.1)).Nodup)
      (h : ∀ role c, (role, some c) ∈ cs → HasDistinctNames c) : HasDistinctNames (.node kind cs vs)

theorem childTrees_eq_map (cs : List (String × Option Document)) :
    childTrees cs = cs.map fun (role, c) => (role, (c.map fun d => Tree.map d.entries).getD .null) := by
  induction cs with
  | nil => rfl
  | cons c cs ih =>
    obtain ⟨role, _ | d⟩ := c
    · rw [childTrees, ih]
      rfl
    · rw [childTrees, ih]
      rfl

theorem HasDistinctNames.entries {d : Document} (h : d.HasDistinctNames) : (Tree.map d.entries).HasDistinctKeys := by
  induction h with
  | @node kind cs vs hchildren hvalues h ih =>
    have hcs : (Tree.map (childTrees cs)).HasDistinctKeys := by
      rw [childTrees_eq_map]
      refine .map (by simpa [Function.comp_def] using hchildren) fun e he => ?_
      obtain ⟨⟨role, c⟩, hc, rfl⟩ := List.mem_map.mp he
      cases c with
      | none => exact .null
      | some c => exact ih role c hc
    have hvs : (Tree.map (vs.map fun e => (e.1, Tree.textOrNull e.2))).HasDistinctKeys := by
      refine .map (by simpa [Function.comp_def] using hvalues) fun e he => ?_
      obtain ⟨⟨name, s⟩, -, rfl⟩ := List.mem_map.mp he
      cases s with
      | none => exact .null
      | some s => exact .text s
    rw [Document.entries]
    refine .map (by simp) fun e he => ?_
    simp only [List.mem_cons, List.not_mem_nil, or_false] at he
    obtain rfl | rfl | rfl := he
    · exact .text kind
    · exact hcs
    · exact hvs

/-! ## Checking what was written -/

theorem valueEntries_written (place : List Step) (vs : List (String × Option String)) :
    valueEntries place (Tree.map (vs.map fun (r, s) => (r, Tree.textOrNull s))).toData = .ok vs := by
  rw [Tree.toData, valueEntries]
  induction vs with
  | nil => rfl
  | cons v vs ih =>
    obtain ⟨name, s⟩ := v
    simp only [List.map_cons, Tree.entriesToData, Schema.all, ih]
    cases s <;> rfl

/-- What is read from the three entries is what they hold. -/
theorem fieldsOf_written (place : List Step) (kind : String) (children values : List (String × Tree)) :
    let es := Tree.entriesToData [("NodeType", .text kind), ("Expressions", .map children), ("Values", .map values)]
    fieldsOf place es es =
      ⟨some (.ok kind), some (childrenOf (place ++ [.name childrenField.name]) (Tree.map children).toData),
        some (valueEntries (place ++ [.name valuesField.name]) (Tree.map values).toData), []⟩ := by
  intro es
  rfl

mutual

/-- What a document is written as is accepted, wherever it stands. -/
theorem ofData_written : ∀ (d : Document) (place : List Step), ofData place (Tree.map d.entries).toData = .ok d
  | .node kind cs vs, place => by
    have hchildren := childEntries_written cs (place ++ [.name childrenField.name])
    have hvalues := valueEntries_written (place ++ [.name valuesField.name]) vs
    rw [Tree.toData, entries, ofData, fieldsOf_written, hvalues, Tree.toData, childrenOf, hchildren]
    rfl

theorem childEntries_written : ∀ (cs : List (String × Option Document)) (place : List Step),
    childEntries place (Tree.entriesToData (childTrees cs)) = .ok cs
  | [], _ => rfl
  | (role, none) :: cs, place => by
    rw [childTrees, Tree.entriesToData, Tree.toData, childEntries, childEntries_written cs place]
    rfl
  | (role, some d) :: cs, place => by
    have hchild := ofData_written d (place ++ [.name role])
    rw [Tree.toData] at hchild
    rw [childTrees, Tree.entriesToData, Tree.toData, childEntries, childEntries_written cs place]
    · dsimp only [Schema.stepOf]
      rw [hchild]
      rfl
    · nofun

end

theorem ofRoot_written (d : Document) : ofRoot (Tree.map d.entries).toData = .ok d := by
  have h := ofData_written d []
  rw [Tree.toData] at h ⊢
  rw [ofRoot, h]
  rfl

/-! ## Formats -/

theorem ofJson_of_read {s : String} {d : Document} (h : Json.read s = .ok (Tree.map d.entries).toData) :
    ofJson s = .ok d := by
  rw [ofJson, h]
  exact ofRoot_written d

theorem ofYaml_of_read {s : String} {d : Document} (h : Yaml.read s = .ok (Tree.map d.entries).toData) :
    ofYaml s = .ok d := by
  rw [ofYaml, h]
  exact ofRoot_written d

/-- Names of the schema as roles, characters that are escaped and one outside the basic plane, and
children and texts that are present and empty. -/
def awkward : Document :=
  .node "a\"\\\n" [("Values", some (.node "" [] [])), ("", none)]
    [("NodeType", none), ("children", some "\x00\x7f\u00e9\ud7ff"), ("😀", some "😀/")]

/-- Does the reader of YAML find in the text of a document what was written? -/
def IsReadBackAsYaml (d : Document) : Prop :=
  Yaml.read d.toYaml = .ok (Tree.map d.entries).toData

instance (d : Document) : Decidable d.IsReadBackAsYaml :=
  match h : Yaml.read d.toYaml with
  | .ok found => decidable_of_iff ((Tree.map d.entries).standsFor found = true) (by
      rw [IsReadBackAsYaml, h, Except.ok.injEq, Tree.standsFor_iff])
  | .error f => isFalse (by simp [IsReadBackAsYaml, h])

theorem ofText_toText {d : Document} (hd : d.HasDistinctNames) (hyaml : d.IsReadBackAsYaml) (f : TextFormat)
    (l : Json.Layout) : ofText f (d.toText f l) = .ok d := by
  cases f with
  | json => exact ofJson_of_read (Json.read_render l hd.entries)
  | yaml => exact ofYaml_of_read hyaml

end Document

end ExprTree
