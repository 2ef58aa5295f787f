import ExprTree.CommandLine
import ExprTree.Host.Sample
import ExprTree.Proofs.Storage

/-!
# Converting documents

However often a document is converted, the last file holds the document that
the first one was written with. A conversion whose source holds no document, or
whose destination has no format, ends before anything is written.
-/

namespace ExprTree.CommandLine

open Storage

variable (library : Library) (names : Names)

/-! ## Commands on a tree of files -/

theorem run_perform (c : Command) (t : FileTree) :
    ((perform FileTree.access library c).run names).run t =
      match onTree (act FileTree.access library c) names t with
      | ((r, names'), t') => ((outcome r, names'), t') := rfl

/-- A failure ends a command with the status that says so, whether it has a wording or not. -/
theorem status_failed (f : Failure) : (outcome (.error f)).status = 1 := by
  unfold outcome
  dsimp only
  split <;> rfl

theorem onTree_convert (source destination : String) (t : FileTree) :
    onTree (act FileTree.access library (.convert source destination)) names t =
      match documentAt t (.ofString source) with
      | .error f => ((.error f, names), t)
      | .ok d =>
        match onTree (writeDocument FileTree.access d (.ofString destination)) names t with
        | ((.error f, names'), t') => ((.error f, names'), t')
        | ((.ok _, names'), t') =>
          ((.ok (asLines ["Converted '" ++ (Path.ofString source).toText ++ "' to '" ++
            (Path.ofString destination).toText ++ "'."]), names'), t') := by
  unfold act
  rw [onTree_bind, onTree_readDocument]
  cases documentAt t (.ofString source) with
  | error f => rfl
  | ok d =>
    dsimp only
    rw [onTree_bind]
    rcases onTree (writeDocument FileTree.access d (.ofString destination)) names t with ⟨⟨_ | _, names'⟩, t'⟩ <;> rfl

/-! ## One conversion -/

variable {t t' : FileTree} {source destination : String} {d : Document} {format : TextFormat}

/-- A document is written as text of the format that the destination has. -/
theorem convert_writes (hsource : documentAt t (.ofString source) = .ok d)
    (hformat : formatOf? (.ofString destination) = some format)
    (hwrite : (FileTree.access.writeDeep (.ofString destination) (d.toText format fileLayout)).run t = (.ok (), t')) :
    ∃ out, ((perform FileTree.access library (.convert source destination)).run names).run t =
      ((.finished 0 out "", names), t') := by
  rw [run_perform, onTree_convert, hsource]
  dsimp only
  rw [onTree_writeDocument hformat, hwrite]
  exact ⟨_, rfl⟩

/-- Without a document in the source, nothing is written. -/
theorem convert_without_source {f : Failure} (hsource : documentAt t (.ofString source) = .error f) :
    ((perform FileTree.access library (.convert source destination)).run names).run t =
      ((outcome (.error f), names), t) := by
  rw [run_perform, onTree_convert, hsource]

/-- Without a format for the destination, nothing is written. -/
theorem convert_without_format (t : FileTree) (source : String) (hformat : formatOf? (.ofString destination) = none) :
    ∃ f, ((perform FileTree.access library (.convert source destination)).run names).run t =
      ((outcome (.error f), names), t) := by
  rcases hsource : documentAt t (.ofString source) with f | d
  · exact ⟨f, convert_without_source library names hsource⟩
  · refine ⟨.unknownFormat (.ofString destination), ?_⟩
    rw [run_perform, onTree_convert, hsource]
    dsimp only
    rw [onTree_writeDocument_unknown hformat]

/-! ## One conversion after the other -/

/-- Converts from a first file to the next of a list, and from each file of it to the one after. -/
def convertAlong (source : String) : List String → StateT Names (StateM FileTree) (List Outcome)
  | [] => return []
  | destination :: rest => do
    let o ← perform FileTree.access library (.convert source destination)
    return o :: (← convertAlong destination rest)

/-- Can any text be written to the first of these files, and then to the others one after the other? -/
def AreWritable : List String → FileTree → Prop
  | [], _ => True
  | file :: files, t =>
    ∀ text, ∃ t', (FileTree.access.writeDeep (.ofString file) text).run t = (.ok (), t') ∧ AreWritable files t'

theorem run_convertAlong_cons {o : Outcome} {rest : List String}
    (h : ((perform FileTree.access library (.convert source destination)).run names).run t = ((o, names), t')) :
    ((convertAlong library source (destination :: rest)).run names).run t =
      match ((convertAlong library destination rest).run names).run t' with
      | ((os, names''), t'') => ((o :: os, names''), t'') := by
  rw [convertAlong, StateT.run_bind, StateT.run_bind, h]
  rfl

/-- What is written to a file that can be written is read from it. -/
theorem exists_written {file : String} {files : List String} (hd : d.HasDistinctNames) (hyaml : d.IsReadBackAsYaml)
    (hformat : formatOf? (.ofString file) = some format) (hfiles : AreWritable (file :: files) t) :
    ∃ t', (FileTree.access.writeDeep (.ofString file) (d.toText format fileLayout)).run t = (.ok (), t') ∧
      documentAt t' (.ofString file) = .ok d ∧ AreWritable files t' := by
  obtain ⟨t', hwrite, hrest⟩ := hfiles (d.toText format fileLayout)
  exact ⟨t', hwrite, documentAt_written hformat (FileTree.read_writeDeep hwrite) hd hyaml, hrest⟩

/-- A document goes unchanged through every file that it is converted to. -/
theorem convertAlong_keeps (hd : d.HasDistinctNames) (hyaml : d.IsReadBackAsYaml) {rest : List String}
    (hsource : documentAt t (.ofString source) = .ok d) (hformats : ∀ file ∈ rest, (formatOf? (.ofString file)).isSome)
    (hrest : AreWritable rest t) :
    ∃ os t', ((convertAlong library source rest).run names).run t = ((os, names), t') ∧
      (∀ o ∈ os, ∃ out, o = .finished 0 out "") ∧
      documentAt t' (.ofString ((source :: rest).getLast (by simp))) = .ok d := by
  induction rest generalizing source t with
  | nil => exact ⟨[], t, rfl, nofun, hsource⟩
  | cons destination rest ih =>
    obtain ⟨format, hformat⟩ := Option.isSome_iff_exists.mp (hformats destination List.mem_cons_self)
    obtain ⟨t₁, hwrite, hdestination, hrest⟩ := exists_written hd hyaml hformat hrest
    obtain ⟨out, hstep⟩ := convert_writes library names hsource hformat hwrite
    obtain ⟨os, t₂, hrun, hcodes, hlast⟩ :=
      ih hdestination (fun file hfile => hformats file (List.mem_cons_of_mem _ hfile)) hrest
    refine ⟨.finished 0 out "" :: os, t₂, ?_, ?_, ?_⟩
    · rw [run_convertAlong_cons library names hstep, hrun]
    · rintro o (_ | ⟨_, ho⟩)
      · exact ⟨out, rfl⟩
      · exact hcodes o ho
    · rwa [List.getLast_cons (by simp)]

/-- Converting a document from file to file loses nothing, and a conversion that cannot start from a
document or has no format to write exits with status 1 and leaves all files as they are. -/
theorem convert_lossless (library : Library) (names : Names) {d : Document} (hd : d.HasDistinctNames)
    (hyaml : d.IsReadBackAsYaml) :
    (∀ (first : String) (rest : List String) (t : FileTree),
      (∀ file ∈ first :: rest, (formatOf? (.ofString file)).isSome) → AreWritable (first :: rest) t →
      ∃ t₁ os t₂, onTree (writeDocument FileTree.access d (.ofString first)) names t = ((.ok (), names), t₁) ∧
        ((convertAlong library first rest).run names).run t₁ = ((os, names), t₂) ∧
        (∀ o ∈ os, ∃ out, o = .finished 0 out "") ∧
        onTree (readDocument FileTree.access (.ofString ((first :: rest).getLast (by simp)))) names t₂ =
          ((.ok d, names), t₂)) ∧
    ∀ (source destination : String) (t : FileTree),
      (∃ f, (onTree (readDocument FileTree.access (.ofString source)) names t).1.1 = .error f) ∨
        formatOf? (.ofString destination) = none →
      ∃ o, ((perform FileTree.access library (.convert source destination)).run names).run t = ((o, names), t) ∧
        o.status = 1 := by
  constructor
  · intro first rest t hformats hwritable
    obtain ⟨format, hformat⟩ := Option.isSome_iff_exists.mp (hformats first List.mem_cons_self)
    obtain ⟨t₁, hwrite, hfirst, hrest⟩ := exists_written hd hyaml hformat hwritable
    obtain ⟨os, t₂, hrun, hcodes, hlast⟩ := convertAlong_keeps library names hd hyaml hfirst
      (fun file hfile => hformats file (List.mem_cons_of_mem _ hfile)) hrest
    refine ⟨t₁, os, t₂, ?_, hrun, hcodes, ?_⟩
    · rw [onTree_writeDocument hformat, hwrite]
      rfl
    · rw [onTree_readDocument, hlast]
  · rintro source destination t (⟨f, hsource⟩ | hformat)
    · rw [onTree_readDocument] at hsource
      dsimp only at hsource
      exact ⟨_, convert_without_source library names hsource, status_failed f⟩
    · obtain ⟨f, hf⟩ := convert_without_format library names t source hformat
      exact ⟨_, hf, status_failed f⟩

/-- A document with texts that YAML quotes, and with parts that are present and empty. -/
def sparse : Document :=
  .node "a: b" [("Left", some (.node "" [] [])), ("", none)] [("NodeType", some "null"), ("v", none)]

theorem convert_lossless_sparse :
    sparse.HasDistinctNames ∧ sparse.IsReadBackAsYaml ∧ ∃ t₁ os t₂,
      onTree (writeDocument FileTree.access sparse (.ofString "a.JSON")) ⟨[], []⟩ .empty = ((.ok (), ⟨[], []⟩), t₁) ∧
      ((convertAlong Sample.library "a.JSON" ["out/b.yaml", "c.YmL"]).run ⟨[], []⟩).run t₁ = ((os, ⟨[], []⟩), t₂) ∧
      (∀ o ∈ os, ∃ out, o = .finished 0 out "") ∧
      onTree (readDocument FileTree.access (.ofString "c.YmL")) ⟨[], []⟩ t₂ = ((.ok sparse, ⟨[], []⟩), t₂) ∧
      ∃ o, ((perform FileTree.access Sample.library (.convert "c.YmL" "d.txt")).run ⟨[], []⟩).run t₂ = ((o, ⟨[], []⟩), t₂) ∧
        o.status = 1 := by
  have hd : sparse.HasDistinctNames := by
    refine .node (by decide) (by decide) fun role c hc => ?_
    obtain ⟨rfl, rfl⟩ : role = "Left" ∧ c = .node "" [] [] := by simpa using hc
    exact .node .nil .nil nofun
  have hyaml : sparse.IsReadBackAsYaml := by decide +kernel
  have hformats : ∀ file ∈ ["a.JSON", "out/b.yaml", "c.YmL"], (formatOf? (.ofString file)).isSome := by decide +kernel
  have hwritable : AreWritable ["a.JSON", "out/b.yaml", "c.YmL"] .empty := by
    have ha : Path.ofString "a.JSON" = ⟨"", ["a.JSON"]⟩ := by decide +kernel
    have hb : Path.ofString "out/b.yaml" = ⟨"", ["out", "b.yaml"]⟩ := by decide +kernel
    have hc : Path.ofString "c.YmL" = ⟨"", ["c.YmL"]⟩ := by decide +kernel
    simp only [AreWritable, ha, hb, hc]
    exact fun _ => ⟨_, rfl, fun _ => ⟨_, rfl, fun _ => ⟨_, rfl, trivial⟩⟩⟩
  obtain ⟨hchain, hfailure⟩ := convert_lossless Sample.library ⟨[], []⟩ hd hyaml
  obtain ⟨t₁, os, t₂, hwrite, hrun, hcodes, hread⟩ := hchain _ _ _ hformats hwritable
  exact ⟨hd, hyaml, t₁, os, t₂, hwrite, hrun, hcodes, hread, hfailure "c.YmL" "d.txt" t₂ (.inr (by decide +kernel))⟩

end ExprTree.CommandLine
