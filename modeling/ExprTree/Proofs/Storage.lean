import ExprTree.Proofs.Disk
import ExprTree.Proofs.Document.Formats
import ExprTree.Proofs.Document.Lines
import ExprTree.Storage

/-!
# Documents in a tree of files

Reading a file changes nothing, and what is read depends on the tree alone. A
document that was written is read back, whatever its format, as long as the
format's reader undoes its writer.
-/

namespace ExprTree

/-! ## Bytes of texts -/

theorem loop_toList (bs : ByteArray) (i : Nat) (before : List UInt8) :
    ByteArray.toList.loop bs i before = before.reverse ++ bs.data.toList.drop i := by
  fun_induction ByteArray.toList.loop bs i before with
  | case1 i before h ih =>
    have hi : i < bs.data.toList.length := by simpa using h
    rw [ih, List.reverse_cons, List.append_assoc, List.singleton_append, List.drop_eq_getElem_cons hi]
    simp [ByteArray.get!, getElem!_pos, h]
  | case2 i before h => rw [List.drop_of_length_le (by simpa using h), List.append_nil]

/-- The bytes of a text are those of that text. -/
theorem fromUTF8_toUTF8 (s : String) : String.fromUTF8? ⟨s.toUTF8.toList.toArray⟩ = some s := by
  have h : (⟨s.toUTF8.toList.toArray⟩ : ByteArray) = s.toByteArray := by
    rw [ByteArray.toList, loop_toList]
    simp
  rw [h, String.fromUTF8?, dif_pos s.isValidUTF8]
  rfl

namespace Storage

theorem unifyBreaks_of_isLines {cs : List Char} (h : Text.IsLines cs) : unifyBreaks cs = cs := by
  induction cs with
  | nil => rfl
  | cons c cs ih =>
    obtain ⟨hc, hcs⟩ := Text.isLines_cons.mp h
    have hreturn : c ≠ '\r' := by
      rintro rfl
      revert hc
      decide
    rw [unifyBreaks, ih hcs]
    · exact fun _ h _ => hreturn h
    · exact hreturn

/-! ## Running work on a tree -/

/-- What work with files ends with when the files are those of a tree. -/
def onTree {α : Type} (x : Action (StateM FileTree) α) (names : Names) (t : FileTree) :
    (Except Failure α × Names) × FileTree :=
  ((ExceptT.run x).run names).run t

section
variable {α β : Type} (names : Names) (t : FileTree)

@[simp] theorem onTree_get : onTree get names t = ((.ok names, names), t) := rfl

@[simp] theorem onTree_set (names' : Names) : onTree (set names') names t = ((.ok ⟨⟩, names'), t) := rfl

theorem onTree_bind (x : Action (StateM FileTree) α) (f : α → Action (StateM FileTree) β) :
    onTree (x >>= f) names t =
      match onTree x names t with
      | ((.ok a, names'), t') => onTree (f a) names' t'
      | ((.error e, names'), t') => ((.error e, names'), t') := by
  change (match onTree x names t with | ((r, names'), t') => ((ExceptT.bindCont f r).run names').run t') = _
  obtain ⟨⟨r, names'⟩, t'⟩ := onTree x names t
  cases r <;> rfl

@[simp] theorem onTree_inFiles (a : StateM FileTree α) :
    onTree (inFiles a) names t = ((.ok (a.run t).1, names), (a.run t).2) := rfl

@[simp] theorem onTree_ofResult {ε : Type} (failure : ε → Failure) (r : Except ε α) :
    onTree (ofResult failure r) names t = ((r.mapError failure, names), t) := by
  cases r <;> rfl

end

/-- Does work leave the files of this tree as they are, and yield what `P` says or fail as `Q` says? -/
def Reads {α : Type} (t : FileTree) (P : α → Prop) (Q : Failure → Prop) (x : Action (StateM FileTree) α) : Prop :=
  ∀ names, ∃ r names', onTree x names t = ((r, names'), t) ∧ Gives P Q r

namespace Reads

variable {α β : Type} {t : FileTree} {P : α → Prop} {Q : Failure → Prop} {R : β → Prop} {x : Action (StateM FileTree) α}
  {f : α → Action (StateM FileTree) β}

theorem pure {a : α} (h : P a) : Reads t P Q (Pure.pure a) :=
  fun names => ⟨.ok a, names, rfl, .ok h⟩

theorem bind (hx : Reads t P Q x) (hf : ∀ a, P a → Reads t R Q (f a)) : Reads t R Q (x >>= f) := by
  intro names
  obtain ⟨r, names₁, hrun, hr⟩ := hx names
  rw [onTree_bind, hrun]
  cases hr with
  | ok ha => exact hf _ ha names₁
  | error he => exact ⟨_, names₁, rfl, .error he⟩

end Reads

/-! ## Reading -/

/-- The text in a file of a tree. -/
def textAt (t : FileTree) (what : Purpose) (p : Path) : Except Failure String :=
  match t.read p with
  | .error problem => .error (.unreadable what p ⟨problem, p⟩)
  | .ok bytes =>
    match String.fromUTF8? ⟨bytes.toArray⟩ with
    | some s => .ok (String.ofList (unifyBreaks s.toList))
    | none => .error .notText

/-- The document in a file of a tree. -/
def documentAt (t : FileTree) (p : Path) : Except Failure Document :=
  match formatOf? p with
  | none => .error (.unknownFormat p)
  | some f => (textAt t .document p).bind fun s => (Document.ofText f s).mapError .document

-- the equations of a definition that matches on a format would look into the cases of letters
section
variable {p : Path} {f : TextFormat}

theorem formatOf_some {m : Type → Type} [Monad m] (hf : formatOf? p = some f) : (formatOf p : Action m TextFormat) = pure f := by
  unfold formatOf
  rw [hf]

theorem formatOf_none {m : Type → Type} [Monad m] (hf : formatOf? p = none) :
    (formatOf p : Action m TextFormat) = throw (.unknownFormat p) := by
  unfold formatOf
  rw [hf]

theorem documentAt_some (t : FileTree) (hf : formatOf? p = some f) :
    documentAt t p = (textAt t .document p).bind fun s => (Document.ofText f s).mapError .document := by
  unfold documentAt
  rw [hf]

theorem documentAt_none (t : FileTree) (hf : formatOf? p = none) : documentAt t p = .error (.unknownFormat p) := by
  unfold documentAt
  rw [hf]

end

theorem onTree_readText (what : Purpose) (p : Path) (names : Names) (t : FileTree) :
    onTree (readText FileTree.access what p) names t = ((textAt t what p, names), t) := by
  rw [readText, onTree_bind, onTree_inFiles, FileTree.run_read, textAt]
  dsimp only
  rw [onTree_bind, onTree_ofResult]
  rcases t.read p with problem | bytes
  · rfl
  · dsimp only [Except.mapError]
    cases String.fromUTF8? ⟨bytes.toArray⟩ <;> rfl

/-- Reading a document depends on the tree alone, and leaves it and the names as they are. -/
theorem onTree_readDocument (p : Path) (names : Names) (t : FileTree) :
    onTree (readDocument FileTree.access p) names t = ((documentAt t p, names), t) := by
  rw [readDocument]
  cases hf : formatOf? p with
  | none =>
    rw [formatOf_none hf, documentAt_none t hf]
    rfl
  | some f =>
    rw [formatOf_some hf, documentAt_some t hf, pure_bind, onTree_bind, onTree_readText]
    rcases textAt t .document p with e | s
    · rfl
    · exact onTree_ofResult names t _ _

/-! ## Writing -/

theorem onTree_writeDocument {p : Path} {f : TextFormat} (hf : formatOf? p = some f) (d : Document) (names : Names)
    (t : FileTree) :
    onTree (writeDocument FileTree.access d p) names t =
      ((((FileTree.access.writeDeep p (d.toText f fileLayout)).run t).1.mapError (.unwritable .document p), names),
        ((FileTree.access.writeDeep p (d.toText f fileLayout)).run t).2) := by
  rw [writeDocument, formatOf_some hf, pure_bind, onTree_bind, onTree_inFiles]
  exact onTree_ofResult names _ _ _

/-- A file of a format that is not known is not written, and nothing else is. -/
theorem onTree_writeDocument_unknown {p : Path} (hp : formatOf? p = none) (d : Document) (names : Names) (t : FileTree) :
    onTree (writeDocument FileTree.access d p) names t = ((.error (.unknownFormat p), names), t) := by
  rw [writeDocument, formatOf_none hp]
  rfl

/-- What a document is written as is read back from the file that holds it. -/
theorem documentAt_written {t : FileTree} {p : Path} {f : TextFormat} {d : Document} (hf : formatOf? p = some f)
    (hread : t.read p = .ok (d.toText f fileLayout).toUTF8.toList) (hd : d.HasDistinctNames)
    (hyaml : d.IsReadBackAsYaml) : documentAt t p = .ok d := by
  have htext : textAt t .document p = .ok (d.toText f fileLayout) := by
    rw [textAt, hread]
    dsimp only
    rw [fromUTF8_toUTF8]
    dsimp only
    rw [unifyBreaks_of_isLines (Document.isLines_toText d f _), String.ofList_toList]
  rw [documentAt_some t hf, htext]
  dsimp only [Except.bind]
  rw [Document.ofText_toText hd hyaml]
  rfl

end Storage

end ExprTree
