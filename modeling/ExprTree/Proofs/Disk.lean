import ExprTree.Disk
import ExprTree.Proofs.Action

/-!
# Writing and reading files

A file that was written holds what was written. Writing it takes no name away
from a directory, so the path that led to the file's place still leads there.
-/

namespace ExprTree

namespace FileTree

variable {t t' new : FileTree} {es : List (String × FileTree)} {name : String} {names here ns : List String}
  {p : Path} {content : List UInt8}

/-! ## Entries -/

theorem lookup_setEntry (es : List (String × FileTree)) (name n : String) (t : FileTree) :
    (setEntry es name t).lookup n = if n = name then some t else es.lookup n := by
  have hcons : ∀ (m : String) (u : FileTree) (rest : List (String × FileTree)),
      List.lookup n ((m, u) :: rest) = if n = m then some u else rest.lookup n := fun m u rest => by
    rw [List.lookup_cons]
    by_cases h : n = m
    · simp [h]
    · simp [h, beq_eq_false_iff_ne.mpr h]
  induction es with
  | nil => exact hcons name t []
  | cons e es ih =>
    obtain ⟨m, old⟩ := e
    rw [setEntry]
    by_cases hm : m = name
    · subst hm
      rw [if_pos rfl, hcons, hcons]
      split <;> rfl
    · rw [if_neg hm, hcons, hcons, ih]
      by_cases h : n = m
      · rw [if_pos h, if_pos h, if_neg (h ▸ hm)]
      · rw [if_neg h, if_neg h]

theorem isSome_lookup_setEntry {n : String} (t : FileTree) (h : (es.lookup n).isSome) :
    ((setEntry es name t).lookup n).isSome := by
  rw [lookup_setEntry]
  split
  · rfl
  · exact h

theorem at?_cons (t : FileTree) (n : String) (ns : List String) : t.at? (n :: ns) = (t.entry? n).bind (·.at? ns) := rfl

theorem at?_append (t : FileTree) (ms ns : List String) : t.at? (ms ++ ns) = (t.at? ms).bind (·.at? ns) := by
  induction ms generalizing t with
  | nil => rfl
  | cons m ms ih =>
    rw [List.cons_append, at?_cons, at?_cons]
    cases t.entry? m with
    | none => rfl
    | some sub => exact ih sub

/-- What is above a directory is a directory. -/
theorem directory_of_at?_append {ms : List String} (h : t.at? (ms ++ ns) = some (.directory es)) :
    ∃ es', t.at? ms = some (.directory es') := by
  rw [at?_append] at h
  obtain ⟨sub, hsub, hat⟩ := Option.bind_eq_some_iff.mp h
  cases sub with
  | directory es' => exact ⟨es', hsub⟩
  | file c =>
    cases ns with
    | nil => simp [at?] at hat
    | cons n ns => simp [at?, entry?] at hat

/-! ## Putting a tree into a directory -/

/-- The directory that a path of names starts in, when it passes through one more. -/
theorem directory_of_at?_cons {n : String} (h : t.at? (n :: ns) = some new) :
    ∃ es sub, t = .directory es ∧ es.lookup n = some sub ∧ sub.at? ns = some new := by
  rw [at?_cons] at h
  obtain ⟨sub, hsub, hat⟩ := Option.bind_eq_some_iff.mp h
  cases t with
  | file c => simp [ entry?] at hsub
  | directory es => exact ⟨es, sub, rfl, hsub, hat⟩

theorem put_single (es : List (String × FileTree)) (name : String) (new : FileTree) :
    (directory es).put [name] new = .directory (setEntry es name new) := by
  rw [put]
  split
  · rw [put]
  · rfl

theorem put_cons {n : String} {sub : FileTree} (h : es.lookup n = some sub) (ns : List String) (new : FileTree) :
    (directory es).put (n :: ns) new = .directory (setEntry es n (sub.put ns new)) := by
  rw [put, h]

theorem at?_put_append (h : t.at? names = some (.directory es)) (name : String) (new : FileTree) :
    (t.put (names ++ [name]) new).at? names = some (.directory (setEntry es name new)) := by
  induction names generalizing t with
  | nil =>
    obtain rfl : t = .directory es := by simpa [at?] using h
    rw [List.nil_append, put_single]
    rfl
  | cons n ns ih =>
    obtain ⟨es', sub, rfl, hsub, hat⟩ := directory_of_at?_cons h
    rw [List.cons_append, put_cons hsub, at?_cons, entry?, lookup_setEntry, if_pos rfl]
    exact ih hat

/-- Every directory stays one, with at least the names that it had. -/
def Keeps (t t' : FileTree) : Prop :=
  ∀ ns es, t.at? ns = some (.directory es) →
    ∃ es', t'.at? ns = some (.directory es') ∧ ∀ n, (es.lookup n).isSome → (es'.lookup n).isSome

theorem Keeps.setEntry {n : String} {sub sub' : FileTree} (hsub : es.lookup n = some sub) (h : Keeps sub sub') :
    Keeps (.directory es) (.directory (setEntry es n sub')) := by
  rintro (_ | ⟨m, ns⟩) es₁ hat
  · obtain rfl : es = es₁ := by simpa [at?] using hat
    exact ⟨_, rfl, fun m hm => isSome_lookup_setEntry sub' hm⟩
  · rw [at?_cons, entry?, lookup_setEntry]
    by_cases hm : m = n
    · subst hm
      rw [at?_cons, entry?, hsub] at hat
      rw [if_pos rfl]
      exact h ns es₁ hat
    · rw [if_neg hm]
      exact ⟨es₁, hat, fun _ hname => hname⟩

/-- Putting a tree where no directory is takes no directory and no name away. -/
theorem Keeps.put (h : t.at? names = some (.directory es)) (name : String) (new : FileTree)
    (hfree : ∀ es', t.at? (names ++ [name]) ≠ some (.directory es')) : Keeps t (t.put (names ++ [name]) new) := by
  induction names generalizing t with
  | nil =>
    obtain rfl : t = .directory es := by simpa [at?] using h
    rw [List.nil_append, put_single]
    rintro (_ | ⟨m, ns⟩) es₁ hat
    · obtain rfl : es = es₁ := by simpa [at?] using hat
      exact ⟨_, rfl, fun m hm => isSome_lookup_setEntry new hm⟩
    · obtain ⟨es', hes'⟩ := (directory_of_at?_append hat : ∃ es', (directory es).at? [m] = some (.directory es'))
      have hm : m ≠ name := fun hm => hfree es' (hm ▸ hes')
      rw [at?_cons, entry?, lookup_setEntry, if_neg hm]
      exact ⟨es₁, hat, fun _ hname => hname⟩
  | cons n ns ih =>
    obtain ⟨es', sub, rfl, hsub, hat⟩ := directory_of_at?_cons h
    rw [List.cons_append, put_cons hsub]
    refine Keeps.setEntry hsub (ih hat fun es₁ => ?_)
    simpa [at?_cons, entry?, hsub] using hfree es₁

/-! ## Following a path -/

theorem follow_cons_ok {n : String} {end_ : List String} (h : t.follow here (n :: ns) = .ok end_) :
    ∃ es, t.at? here = some (.directory es) ∧
      (n = ".." ∧ t.follow here.dropLast ns = .ok end_ ∨
        n ≠ ".." ∧ (es.lookup n).isSome ∧ t.follow (here ++ [n]) ns = .ok end_) := by
  rw [follow] at h
  split at h
  · next es hes =>
    split at h
    · next hup => exact ⟨es, hes, .inl ⟨hup, h⟩⟩
    · next hdown =>
      split at h
      · next hname => exact ⟨es, hes, .inr ⟨hdown, hname, h⟩⟩
      · cases h
  · cases h
  · cases h

theorem follow_append {ms : List String} (h : t.follow here ms = .ok names) (ns : List String) :
    t.follow here (ms ++ ns) = t.follow names ns := by
  induction ms generalizing here with
  | nil =>
    cases h
    rfl
  | cons m ms ih =>
    obtain ⟨es, hes, ⟨rfl, hrest⟩ | ⟨hdown, hname, hrest⟩⟩ := follow_cons_ok h
    · rw [List.cons_append, follow, hes]
      exact ih hrest
    · rw [List.cons_append, follow, hes]
      simp only [if_neg hdown, if_pos hname]
      exact ih hrest

/-- A path leads where it led. -/
theorem Keeps.follow (hkeeps : Keeps t t') (h : t.follow here ns = .ok names) : t'.follow here ns = .ok names := by
  induction ns generalizing here with
  | nil => exact h
  | cons n ns ih =>
    obtain ⟨es, hes, hstep⟩ := follow_cons_ok h
    obtain ⟨es', hes', hnames⟩ := hkeeps here es hes
    rw [FileTree.follow, hes']
    obtain ⟨rfl, hrest⟩ | ⟨hdown, hname, hrest⟩ := hstep
    · exact ih hrest
    · simp only [if_neg hdown, if_pos (hnames n hname)]
      exact ih hrest

/-! ## A file that was written -/

theorem find_eq_ok {found : FileTree} :
    t.find p = .ok (names, found) ↔ t.follow [] p.names = .ok names ∧ t.at? names = some found := by
  rw [find, bind_eq_ok]
  constructor
  · rintro ⟨names', hfollow, h⟩
    split at h
    · next hat =>
      cases h
      exact ⟨hfollow, hat⟩
    · cases h
  · rintro ⟨hfollow, hat⟩
    exact ⟨names, hfollow, by rw [hat]; rfl⟩

theorem findParent_ok (h : t.findParent p = .ok (names, name)) :
    p.names = p.parent.names ++ [name] ∧ ∃ es, t.find p.parent = .ok (names, .directory es) := by
  unfold findParent at h
  split at h
  · cases h
  · next last hlast =>
    obtain ⟨⟨names', _ | es⟩, hfind, h⟩ := bind_eq_ok.mp h
    · cases h
    · cases h
      obtain ⟨before, hbefore⟩ := List.getLast?_eq_some_iff.mp hlast
      exact ⟨by rw [Path.parent, hbefore, List.dropLast_concat], es, hfind⟩

theorem isDirectory_of_find (h : t.find p = .ok (names, .directory es)) : t.isDirectory p = true := by
  rw [isDirectory, h]

/-- One name from a directory leads to one above it, or to what the directory has under the name. -/
theorem follow_name (hat : t.at? names = some (.directory es)) :
    t.follow names [name] =
      if name = ".." then .ok names.dropLast
      else if (es.lookup name).isSome then .ok (names ++ [name]) else .error .notFound := by
  rw [follow, hat]
  rfl

/-- What is above a directory is a directory, and so is the root. -/
theorem directory_of_at?_dropLast (hat : t.at? names = some (.directory es)) :
    ∃ es', t.at? names.dropLast = some (.directory es') := by
  rcases List.eq_nil_or_concat names with rfl | ⟨ms, m, rfl⟩
  · exact ⟨es, hat⟩
  · rw [List.concat_eq_append] at hat ⊢
    rw [List.dropLast_concat]
    exact directory_of_at?_append hat

theorem isSome_lookup_of_at?_append {found : FileTree} (hat : t.at? names = some (.directory es))
    (h : t.at? (names ++ [name]) = some found) : (es.lookup name).isSome := by
  rw [at?_append, hat] at h
  obtain ⟨es', sub, hes', hsub, -⟩ := directory_of_at?_cons h
  obtain rfl : es = es' := by simpa using hes'
  exact Option.isSome_of_eq_some hsub

/-- A file is put into a directory that its path leads to, where no directory is. -/
theorem write_ok (h : t.write p content = .ok t') :
    ∃ names name es, p.names = p.parent.names ++ [name] ∧ name ≠ ".." ∧ t.follow [] p.parent.names = .ok names ∧
      t.at? names = some (.directory es) ∧ (∀ es', t.at? (names ++ [name]) ≠ some (.directory es')) ∧
      t' = t.put (names ++ [name]) (.file content) := by
  unfold write at h
  split at h
  · cases h
  · next hplace =>
    obtain ⟨⟨names, name⟩, hparent, h⟩ := bind_eq_ok.mp h
    cases h
    obtain ⟨hnames, es, hfind⟩ := findParent_ok hparent
    obtain ⟨hfollow, hat⟩ := find_eq_ok.mp hfind
    -- the path itself leads to no directory
    have hno : ∀ end_ es', t.follow names [name] = .ok end_ → t.at? end_ ≠ some (.directory es') := by
      intro end_ es' hend hdir
      exact hplace (isDirectory_of_find (find_eq_ok.mpr ⟨by rw [hnames, follow_append hfollow, hend], hdir⟩))
    have hdown : name ≠ ".." := by
      intro hup
      obtain ⟨es', hes'⟩ := directory_of_at?_dropLast hat
      exact hno _ es' (by rw [follow_name hat, if_pos hup]) hes'
    refine ⟨names, name, es, hnames, hdown, hfollow, hat, fun es' hes' => ?_, rfl⟩
    have hname := isSome_lookup_of_at?_append hat hes'
    exact hno _ es' (by rw [follow_name hat, if_neg hdown, if_pos hname]) hes'

theorem read_write (h : t.write p content = .ok t') : t'.read p = .ok content := by
  obtain ⟨names, name, es, hnames, hdown, hfollow, hat, hfree, rfl⟩ := write_ok h
  have hput := at?_put_append hat name (.file content)
  have hlast : (t.put (names ++ [name]) (.file content)).at? (names ++ [name]) = some (.file content) := by
    rw [at?_append, hput]
    simp [at?, entry?, lookup_setEntry]
  have hfind : (t.put (names ++ [name]) (.file content)).find p = .ok (names ++ [name], .file content) := by
    refine find_eq_ok.mpr ⟨?_, hlast⟩
    rw [hnames, follow_append ((Keeps.put hat name _ hfree).follow hfollow), follow, hput]
    simp [hdown, lookup_setEntry, follow]
  rw [read, hfind]
  rfl

end FileTree

/-! ## Running the operations -/

namespace FileTree

theorem run_read (t : FileTree) (p : Path) :
    (FileTree.access.read p).run t = ((t.read p).mapError (⟨·, p⟩), t) := rfl

theorem run_write_ok {t t' : FileTree} {p : Path} {text : String}
    (h : (FileTree.access.write p text).run t = (.ok (), t')) : t.write p text.toUTF8.toList = .ok t' := by
  cases hwrite : t.write p text.toUTF8.toList with
  | ok t₁ =>
    have hrun : (FileTree.access.write p text).run t = (.ok (), t₁) := by
      simp only [access, StateT.run_bind, StateT.run_get, pure_bind, hwrite]
      rfl
    rw [hrun] at h
    cases h
    rfl
  | error problem =>
    have hrun : (FileTree.access.write p text).run t = (.error ⟨problem, p⟩, t) := by
      simp only [access, StateT.run_bind, StateT.run_get, pure_bind, hwrite]
      rfl
    rw [hrun] at h
    cases h

/-- A file that was written with its directories holds the text. -/
theorem read_writeDeep {t t' : FileTree} {p : Path} {text : String}
    (h : (FileTree.access.writeDeep p text).run t = (.ok (), t')) : t'.read p = .ok text.toUTF8.toList := by
  unfold FileAccess.writeDeep at h
  rw [StateT.run_bind] at h
  rcases hmade : (FileTree.access.makeDirectories p.names.length p.parent).run t with ⟨_ | ⟨⟩, t₁⟩
  · rw [hmade] at h
    cases h
  · rw [hmade] at h
    exact read_write (run_write_ok h)

end FileTree

end ExprTree
