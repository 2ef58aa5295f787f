import ExprTree.Document.Format
import ExprTree.Proofs.Document.Guid
import ExprTree.Proofs.Ty.Sameness

/-!
# Lines of written documents

In either format a document is written in printable characters of ASCII and
line feeds, whatever its texts are: what is neither is escaped.
-/

namespace ExprTree

/-! ## Printable characters in lines -/

/-- Is every character printable ASCII or a line feed? -/
def Text.IsLines (cs : List Char) : Prop :=
  ∀ c ∈ cs, c = '\n' ∨ ' ' ≤ c ∧ c ≤ '~'

namespace Text

variable {cs ds : List Char} {c : Char}

@[simp] theorem isLines_nil : IsLines [] := nofun

@[simp] theorem isLines_cons : IsLines (c :: cs) ↔ (c = '\n' ∨ ' ' ≤ c ∧ c ≤ '~') ∧ IsLines cs :=
  List.forall_mem_cons

@[simp] theorem isLines_append : IsLines (cs ++ ds) ↔ IsLines cs ∧ IsLines ds :=
  List.forall_mem_append

@[simp] theorem isLines_spaces (n : Nat) : IsLines (List.replicate n ' ') := fun c hc =>
  .inr (by rw [List.eq_of_mem_replicate hc]; decide)

theorem isLines_flatMap {f : Char → List Char} (h : ∀ c ∈ cs, IsLines (f c)) : IsLines (cs.flatMap f) := by
  intro d hd
  obtain ⟨c, hc, hd⟩ := List.mem_flatMap.mp hd
  exact h c hc d hd

theorem isLines_hexDigits (w n : Nat) : IsLines (hexDigits w n) :=
  forall_hexDigits w n fun d hd => .inr ((by decide : ∀ d < 16, ' ' ≤ d.digitChar ∧ d.digitChar ≤ '~') d hd)

end Text

/-! ## JSON -/

namespace Json

open Text (IsLines isLines_hexDigits)

theorem isLines_escapedUnit (n : Nat) : IsLines (escapedUnit n) := by
  simp [escapedUnit, isLines_hexDigits]

theorem isLines_escaped (c : Char) : IsLines (escaped c) := by
  unfold escaped
  split_ifs with _ _ _ _ _ _ _ hprintable
  iterate 7 simp
  · simpa using Or.inr (by simpa using hprintable)
  · exact isLines_escapedUnit _
  · simp [isLines_escapedUnit]

theorem isLines_quoted (s : String) : IsLines (quoted s) := by
  simp [quoted, Text.isLines_flatMap fun c _ => isLines_escaped c]

@[simp] theorem isLines_newline (l : Layout) (depth : Nat) : IsLines (l.newline depth) := by
  cases l <;> simp [Layout.newline]

@[simp] theorem isLines_colon (l : Layout) : IsLines l.colon := by
  cases l <;> simp [Layout.colon]

mutual

theorem isLines_write (l : Layout) : ∀ (depth : Nat) (t : Tree), IsLines (write l depth t)
  | _, .null => by simp [write]
  | _, .flag b => by cases b <;> simp [write]
  | _, .text s => by simpa [write] using isLines_quoted s
  | _, .list [] => by simp [write]
  | depth, .list (t :: ts) => by
    simp [write, isLines_write l (depth + 1) t, isLines_writeItems l (depth + 1) ts]
  | _, .map [] => by simp [write]
  | depth, .map ((k, t) :: es) => by
    simp [write, isLines_quoted, isLines_write l (depth + 1) t, isLines_writeEntries l (depth + 1) es]

theorem isLines_writeItems (l : Layout) : ∀ (depth : Nat) (ts : List Tree), IsLines (writeItems l depth ts)
  | _, [] => by simp [writeItems]
  | depth, t :: ts => by simp [writeItems, isLines_write l depth t, isLines_writeItems l depth ts]

theorem isLines_writeEntries (l : Layout) : ∀ (depth : Nat) (es : List (String × Tree)), IsLines (writeEntries l depth es)
  | _, [] => by simp [writeEntries]
  | depth, (k, t) :: es => by
    simp [writeEntries, isLines_quoted, isLines_write l depth t, isLines_writeEntries l depth es]

end

end Json

/-! ## YAML -/

namespace Yaml.Written

open Text (IsLines)

@[simp] theorem isLines_newline (indent : Nat) : IsLines (newline indent) := by
  simp [newline, spaces]

theorem isSpecial_eq_false {c : Char} : isSpecial c = false ↔ c = '\n' ∨ ' ' ≤ c ∧ c ≤ '~' := by
  simp [isSpecial, or_iff_not_imp_left]

theorem isLines_lines {escape : Char → List Char} {cs : List Char} (indent : Nat) (splits : Bool)
    (h : ∀ c ∈ cs, IsLines (escape c)) (before : Char) (column : Nat) :
    IsLines (lines indent splits escape before column cs) := by
  induction cs generalizing before column with
  | nil => simp [lines]
  | cons c cs ih =>
    have hrest := ih fun d hd => h d (List.mem_cons_of_mem _ hd)
    unfold lines
    split_ifs <;> simp [hrest, h c List.mem_cons_self, spaces]

theorem isLines_upperHex (digits n : Nat) : IsLines (upperHex digits n) := by
  intro c hc
  obtain ⟨d, hd, rfl⟩ := List.mem_map.mp hc
  have hdigits : ∀ d < 16, ' ' ≤ d.digitChar.toUpper ∧ d.digitChar.toUpper ≤ '~' := by decide
  exact .inr (Text.forall_hexDigits (P := fun d => ' ' ≤ d.toUpper ∧ d.toUpper ≤ '~') digits n hdigits d hd)

theorem isLines_doubleEscape {c : Char} {e : List Char} (h : doubleEscape? c = some e) : IsLines e := by
  unfold doubleEscape? at h
  split at h
  · next letter hletter =>
    have hletters : ∀ p ∈ letterEscapes, ' ' ≤ p.2 ∧ p.2 ≤ '~' := by decide
    cases h
    simp [hletters _ (mem_of_lookup hletter)]
  · split_ifs at h <;> cases h <;> simp [isLines_upperHex]

theorem printable_of_doubleEscape {c : Char} (h : doubleEscape? c = none) : ' ' ≤ c ∧ c ≤ '~' := by
  unfold doubleEscape? at h
  split at h
  · cases h
  · split_ifs at h with hprintable
    simpa using hprintable

theorem isLines_doubleQuoted (indent : Nat) (splits isFirst afterEscape : Bool) (column : Nat) (cs : List Char) :
    IsLines (doubleQuoted indent splits isFirst afterEscape column cs) := by
  have hhidden : ∀ b, IsLines (hiddenBreak indent b) := fun b => by cases b <;> simp [hiddenBreak]
  induction cs generalizing isFirst afterEscape column with
  | nil => simp [doubleQuoted]
  | cons c cs ih =>
    unfold doubleQuoted
    cases h : doubleEscape? c with
    | some e =>
      dsimp only
      split_ifs <;> simp [ih, hhidden, isLines_doubleEscape h]
    | none =>
      dsimp only
      split_ifs <;> simp [ih, hhidden, printable_of_doubleEscape h]

theorem isPlain_of_style {cs : List Char} (h : style cs = .plain) : isPlain cs = true := by
  unfold style at h
  split_ifs at h with hplain
  exact hplain

theorem fitsSingle_of_style {cs : List Char} (h : style cs = .single) : fitsSingle cs = true := by
  unfold style at h
  split_ifs at h with _ hsingle
  exact hsingle

theorem isLines_text (indent : Nat) (splits : Bool) (column : Nat) (s : String) :
    IsLines (text indent splits column s) := by
  unfold text
  dsimp only
  cases hstyle : style s.toList with
  | plain =>
    have hplain := isPlain_of_style hstyle
    simp only [isPlain, fitsPlain, Bool.and_eq_true, Bool.not_eq_true', List.any_eq_false, Bool.or_eq_true, not_or] at hplain
    refine isLines_lines indent splits (fun c hc => ?_) ' ' column
    simpa using isSpecial_eq_false.mp (by simpa using (hplain.2.2 c hc).2)
  | single =>
    have hsingle := fitsSingle_of_style hstyle
    simp only [fitsSingle, Bool.and_eq_true, Bool.not_eq_true', List.any_eq_false] at hsingle
    have hquoted : ∀ c ∈ s.toList, IsLines (singleQuoted c) := fun c hc => by
      unfold singleQuoted
      split
      · simp
      · simpa using isSpecial_eq_false.mp (by simpa using hsingle.2 c hc)
    simp [isLines_lines indent splits hquoted]
  | double => simp [isLines_doubleQuoted]

theorem isLines_leaf (indent column : Nat) (t : Tree) : IsLines (leaf indent column t) := by
  cases t with
  | flag b => cases b <;> simp [leaf]
  | text s => simpa [leaf] using isLines_text indent true column s
  | _ => simp [leaf]

theorem isLines_key (indent : Nat) (k : String) : IsLines (key indent k) := by
  unfold key
  split <;> simp [isLines_text]

mutual

theorem isLines_entries : ∀ (indent : Nat) (es : List (String × Tree)), IsLines (entries indent es)
  | _, [] => by simp [entries]
  | indent, (k, t) :: es => by
    unfold entries
    split <;> simp [isLines_key, isLines_value indent _ t, isLines_compact indent t, isLines_moreEntries indent es]

theorem isLines_moreEntries : ∀ (indent : Nat) (es : List (String × Tree)), IsLines (moreEntries indent es)
  | _, [] => by simp [moreEntries]
  | indent, (k, t) :: es => by
    unfold moreEntries
    split <;> simp [isLines_key, isLines_value indent _ t, isLines_compact indent t, isLines_moreEntries indent es]

theorem isLines_items : ∀ (indent : Nat) (ts : List Tree), IsLines (items indent ts)
  | _, [] => by simp [items]
  | indent, t :: ts => by simp [items, isLines_compact indent t, isLines_moreItems indent ts]

theorem isLines_moreItems : ∀ (indent : Nat) (ts : List Tree), IsLines (moreItems indent ts)
  | _, [] => by simp [moreItems]
  | indent, t :: ts => by simp [moreItems, isLines_compact indent t, isLines_moreItems indent ts]

theorem isLines_value : ∀ (indent column : Nat) (t : Tree), IsLines (value indent column t)
  | indent, _, .map (e :: es) => by simp [value, isLines_entries (indent + 2) (e :: es)]
  | indent, _, .list (t :: ts) => by simp [value, isLines_items indent (t :: ts)]
  | _, _, .map [] | _, _, .list [] | _, _, .null | _, _, .flag _ | _, _, .text _ => by simp [value, isLines_leaf]

theorem isLines_compact : ∀ (indent : Nat) (t : Tree), IsLines (compact indent t)
  | indent, .map (e :: es) => by simp [compact, isLines_entries (indent + 2) (e :: es)]
  | indent, .list (t :: ts) => by simp [compact, isLines_items (indent + 2) (t :: ts)]
  | _, .map [] | _, .list [] | _, .null | _, .flag _ | _, .text _ => by simp [compact, isLines_leaf]

end

end Yaml.Written

/-! ## Documents -/

theorem Document.isLines_toText (d : Document) (f : TextFormat) (l : Json.Layout) :
    Text.IsLines (d.toText f l).toList := by
  cases f with
  | json =>
    rw [toText, toJson, Json.render, String.toList_ofList]
    exact Json.isLines_write l 0 _
  | yaml =>
    rw [toText, toYaml, Yaml.render, String.toList_ofList, Text.isLines_append]
    exact ⟨Yaml.Written.isLines_entries 0 _, by simp⟩

end ExprTree
