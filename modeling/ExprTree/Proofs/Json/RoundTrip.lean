import ExprTree.Proofs.Json.Text

/-!
# Reading what was written as JSON

In either layout, a tree whose maps have each key once is read back as the data
that it stands for, in the order in which it was written. The induction is on
the tree; the text of a part is followed by any text, and the fuel is bounded by
the length of what was written.
-/

namespace ExprTree

/-! ## Trees as data -/

namespace Tree

mutual

/-- The data that a tree stands for. -/
def toData : Tree → Data
  | .null => .null
  | .flag b => .bool b
  | .text s => .text s
  | .list ts => .list (itemsToData ts)
  | .map es => .map (entriesToData es)

def itemsToData : List Tree → List Data
  | [] => []
  | t :: ts => toData t :: itemsToData ts

def entriesToData : List (String × Tree) → List (Data × Data)
  | [] => []
  | (k, t) :: es => (.text k, toData t) :: entriesToData es

end

/-- Does every map in a tree have each key once? -/
inductive HasDistinctKeys : Tree → Prop where
  | null : HasDistinctKeys .null
  | flag (b : Bool) : HasDistinctKeys (.flag b)
  | text (s : String) : HasDistinctKeys (.text s)
  | list {ts : List Tree} (h : ∀ t ∈ ts, HasDistinctKeys t) : HasDistinctKeys (.list ts)
  | map {es : List (String × Tree)} (hkeys : (es.map (·.1)).Nodup) (h : ∀ e ∈ es, HasDistinctKeys e.2) :
      HasDistinctKeys (.map es)

end Tree

namespace Data

/-- An entry with a key of its own goes to the end. -/
theorem put_new {entries : List (Data × Data)} {key : Data} (value : Data)
    (h : ∀ e ∈ entries, e.1.sameKey key = false) : put entries key value = entries ++ [(key, value)] := by
  induction entries with
  | nil => rfl
  | cons e entries ih =>
    obtain ⟨k, v⟩ := e
    rw [put, if_neg (by simp [h (k, v) (.head _)]), ih fun e he => h e (.tail _ he)]
    rfl

theorem foldl_put_texts (es : List (String × Tree)) (done : List (Data × Data)) (hkeys : (es.map (·.1)).Nodup)
    (hnew : ∀ e ∈ done, ∀ k ∈ es.map (·.1), e.1.sameKey (.text k) = false) :
    (Tree.entriesToData es).foldl (fun es (k, v) => put es k v) done = done ++ Tree.entriesToData es := by
  induction es generalizing done with
  | nil => simp [Tree.entriesToData]
  | cons e es ih =>
    obtain ⟨k, t⟩ := e
    rw [List.map_cons, List.nodup_cons] at hkeys
    have hput : put done (.text k) t.toData = done ++ [(.text k, t.toData)] :=
      put_new t.toData fun e he => hnew e he k (by simp)
    rw [Tree.entriesToData, List.foldl_cons]
    dsimp only
    rw [hput, ih _ hkeys.2 ?_, List.append_assoc]
    · rfl
    · intro e he k' hk'
      obtain he | he := List.mem_append.mp he
      · exact hnew e he k' (by simp [hk'])
      · obtain rfl := List.mem_singleton.mp he
        have hne : k ≠ k' := fun h => hkeys.1 (h ▸ hk')
        simpa [sameKey, quotient?] using hne

/-- A map of texts that are all different holds them as they come. -/
theorem ofEntries_texts {es : List (String × Tree)} (hkeys : (es.map (·.1)).Nodup) :
    ofEntries (Tree.entriesToData es) = (Tree.map es).toData := by
  have h := foldl_put_texts es [] hkeys (by simp)
  rw [ofEntries, Tree.toData, h, List.nil_append]

end Data

namespace Json

/-! ## Blanks -/

variable (l : Layout)

theorem Layout.isBlank_of_newline {depth : Nat} {c : Char} (h : c ∈ l.newline depth) : Reader.isBlank c = true := by
  cases l with
  | compact => cases h
  | indented width =>
    cases h with
    | head => rfl
    | tail _ h =>
      rw [List.eq_of_mem_replicate h]
      rfl

theorem Layout.skipBlanks_newline (depth : Nat) (cs : List Char) :
    Reader.skipBlanks (l.newline depth ++ cs) = Reader.skipBlanks cs :=
  List.dropWhile_append_of_pos fun _ => l.isBlank_of_newline

theorem Reader.skipBlanks_cons {c : Char} (hc : Reader.isBlank c = false) (cs : List Char) :
    Reader.skipBlanks (c :: cs) = c :: cs :=
  List.dropWhile_cons_of_neg (by simp [hc])

/-- What a written tree starts with is neither a blank nor the end of a container. -/
theorem write_starts (depth : Nat) (t : Tree) :
    ∃ c cs, write l depth t = c :: cs ∧ Reader.isBlank c = false ∧ c ≠ ']' := by
  cases t with
  | flag b => cases b <;> exact ⟨_, _, rfl, rfl, by decide⟩
  | list ts => cases ts <;> exact ⟨_, _, rfl, rfl, by decide⟩
  | map es => cases es <;> exact ⟨_, _, rfl, rfl, by decide⟩
  | _ => exact ⟨_, _, rfl, rfl, by decide⟩

theorem skipBlanks_write (depth : Nat) (t : Tree) (cs : List Char) :
    Reader.skipBlanks (write l depth t ++ cs) = write l depth t ++ cs := by
  obtain ⟨c, text, htext, hblank, -⟩ := write_starts l depth t
  rw [htext]
  exact Reader.skipBlanks_cons hblank _

theorem skipBlanks_colon (depth : Nat) (t : Tree) (cs : List Char) :
    ∃ blanks, l.colon = ':' :: blanks ∧
      Reader.skipBlanks (blanks ++ (write l depth t ++ cs)) = write l depth t ++ cs := by
  cases l with
  | compact => exact ⟨[], rfl, skipBlanks_write _ depth t cs⟩
  | indented width =>
    refine ⟨[' '], rfl, ?_⟩
    exact (List.dropWhile_cons_of_pos (show Reader.isBlank ' ' = true from rfl)).trans (skipBlanks_write _ depth t cs)

/-! ## Steps of the reader -/

namespace Reader

variable {fuel : Nat} {cs next after rest : List Char} {d : Data} {ds : List Data} {k : String}
  {es : List (Data × Data)}

theorem value_list (hcs : ∀ tail, skipBlanks cs ≠ ']' :: tail) (h : items fuel (skipBlanks cs) = .ok (ds, rest)) :
    value (fuel + 1) ('[' :: cs) = .ok (.list ds, rest) := by
  rw [value]
  split
  · next htail => exact absurd htail (hcs _)
  · rw [h]
    rfl

theorem value_map (hcs : ∀ tail, skipBlanks cs ≠ '\x7d' :: tail) (h : entries fuel (skipBlanks cs) = .ok (es, rest)) :
    value (fuel + 1) ('\x7b' :: cs) = .ok (Data.ofEntries es, rest) := by
  rw [value]
  split
  · next htail => exact absurd htail (hcs _)
  · rw [h]
    rfl

theorem items_last (h : value fuel cs = .ok (d, after)) (hafter : skipBlanks after = ']' :: rest) :
    items (fuel + 1) cs = .ok ([d], rest) := by
  rw [items, h, ok_bind]
  dsimp only
  rw [hafter]
  rfl

theorem items_more (h : value fuel cs = .ok (d, after)) (hafter : skipBlanks after = ',' :: next)
    (hmore : items fuel (skipBlanks next) = .ok (ds, rest)) : items (fuel + 1) cs = .ok (d :: ds, rest) := by
  rw [items, h, ok_bind]
  dsimp only
  rw [hafter]
  simp only [hmore, ok_bind, pure_eq_ok]

theorem token_self (c : Char) (cs : List Char) : token c (c :: cs) = .ok cs :=
  if_pos rfl

theorem token_quoted (k : String) (cs : List Char) : token '"' (quoted k ++ cs) = .ok ((quoted k).tail ++ cs) :=
  token_self '"' ((quoted k).tail ++ cs)

theorem entries_last (hcolon : skipBlanks cs = ':' :: next) (h : value fuel (skipBlanks next) = .ok (d, after))
    (hafter : skipBlanks after = '\x7d' :: rest) : entries (fuel + 1) (quoted k ++ cs) = .ok ([(.text k, d)], rest) := by
  simp only [entries, token_quoted, text_quoted, hcolon, token_self, h, hafter, ok_bind, pure_eq_ok]

theorem entries_more {later : List Char} (hcolon : skipBlanks cs = ':' :: next)
    (h : value fuel (skipBlanks next) = .ok (d, after)) (hafter : skipBlanks after = ',' :: later)
    (hmore : entries fuel (skipBlanks later) = .ok (es, rest)) :
    entries (fuel + 1) (quoted k ++ cs) = .ok ((.text k, d) :: es, rest) := by
  simp only [entries, token_quoted, text_quoted, hcolon, token_self, h, hafter, hmore, ok_bind, pure_eq_ok]

end Reader

/-! ## Values -/

mutual

theorem value_write (depth : Nat) : ∀ t : Tree, t.HasDistinctKeys → ∀ (fuel : Nat) (rest : List Char),
    (write l depth t).length ≤ fuel → Reader.value fuel (write l depth t ++ rest) = .ok (t.toData, rest)
  | t, _, 0, _, hfuel => by
    -- no tree is written as nothing
    obtain ⟨c, cs, htext, -⟩ := write_starts l depth t
    rw [htext] at hfuel
    cases hfuel
  | .null, _, _ + 1, _, _ => rfl
  | .flag true, _, _ + 1, _, _ => rfl
  | .flag false, _, _ + 1, _, _ => rfl
  | .text s, _, _ + 1, rest, _ => Reader.text_quoted s rest
  | .list [], _, _ + 1, _, _ => rfl
  | .list (t :: ts), h, fuel + 1, rest, hfuel => by
    cases h with
    | list h =>
      simp only [write, List.length_cons, List.length_append, List.length_nil] at hfuel
      have hitems := items_write (depth + 1) depth t ts h fuel rest (by omega)
      simp only [write, List.cons_append, List.append_assoc, List.nil_append]
      refine Reader.value_list ?_ ?_
      · intro tail htail
        obtain ⟨c, cs, htext, -, hc⟩ := write_starts l (depth + 1) t
        rw [l.skipBlanks_newline, skipBlanks_write, htext] at htail
        exact hc (List.cons.inj htail).1
      · rwa [l.skipBlanks_newline, skipBlanks_write]
  | .map [], _, _ + 1, _, _ => rfl
  | .map ((k, t) :: es), h, fuel + 1, rest, hfuel => by
    cases h with
    | map hkeys h =>
      simp only [write, List.length_cons, List.length_append, List.length_nil] at hfuel
      have hentries := entries_write (depth + 1) depth k t es (h (k, t) (.head _)) (fun e he => h e (.tail _ he)) fuel
        rest (by simp only [List.length_append]; omega)
      simp only [write, List.cons_append, List.append_assoc, List.nil_append]
      rw [← Data.ofEntries_texts hkeys]
      refine Reader.value_map ?_ ?_
      · intro tail htail
        rw [l.skipBlanks_newline] at htail
        cases htail
      · rwa [l.skipBlanks_newline]
termination_by structural _ _ fuel => fuel

theorem items_write (depth outer : Nat) : ∀ (t : Tree) (ts : List Tree), (∀ u ∈ t :: ts, u.HasDistinctKeys) →
    ∀ (fuel : Nat) (rest : List Char), (write l depth t).length + (writeItems l depth ts).length + 1 ≤ fuel →
      Reader.items fuel (write l depth t ++ (writeItems l depth ts ++ (l.newline outer ++ ']' :: rest))) =
        .ok (t.toData :: Tree.itemsToData ts, rest)
  | t, [], h, fuel + 1, rest, hfuel => by
    have hvalue := value_write depth t (h t (.head _)) fuel (l.newline outer ++ ']' :: rest) (by omega)
    refine Reader.items_last hvalue ?_
    rw [l.skipBlanks_newline, Reader.skipBlanks_cons rfl]
  | t, u :: ts, h, fuel + 1, rest, hfuel => by
    simp only [writeItems, List.length_cons, List.length_append] at hfuel
    have hvalue := value_write depth t (h t (.head _)) fuel
      (writeItems l depth (u :: ts) ++ (l.newline outer ++ ']' :: rest)) (by omega)
    have hmore := items_write depth outer u ts (fun v hv => h v (.tail _ hv)) fuel rest (by omega)
    refine Reader.items_more hvalue (Reader.skipBlanks_cons rfl _) ?_
    simp only [List.append_eq, List.append_assoc]
    rw [l.skipBlanks_newline, skipBlanks_write]
    exact hmore
termination_by structural _ _ _ fuel => fuel

theorem entries_write (depth outer : Nat) : ∀ (k : String) (t : Tree) (es : List (String × Tree)), t.HasDistinctKeys →
    (∀ e ∈ es, e.2.HasDistinctKeys) → ∀ (fuel : Nat) (rest : List Char),
      (quoted k ++ (l.colon ++ write l depth t)).length + (writeEntries l depth es).length + 1 ≤ fuel →
        Reader.entries fuel (quoted k ++ (l.colon ++ (write l depth t ++ (writeEntries l depth es ++
          (l.newline outer ++ '\x7d' :: rest))))) = .ok ((.text k, t.toData) :: Tree.entriesToData es, rest)
  | k, t, [], ht, h, fuel + 1, rest, hfuel => by
    simp only [List.length_append] at hfuel
    have hvalue := value_write depth t ht fuel (l.newline outer ++ '\x7d' :: rest) (by omega)
    obtain ⟨blanks, hcolon, hblanks⟩ := skipBlanks_colon l depth t (l.newline outer ++ '\x7d' :: rest)
    rw [← hblanks] at hvalue
    rw [hcolon]
    refine Reader.entries_last (Reader.skipBlanks_cons rfl _) hvalue ?_
    rw [l.skipBlanks_newline, Reader.skipBlanks_cons rfl]
  | k, t, (k', t') :: es, ht, h, fuel + 1, rest, hfuel => by
    simp only [writeEntries, List.length_cons, List.length_append] at hfuel
    have hvalue := value_write depth t ht fuel
      (writeEntries l depth ((k', t') :: es) ++ (l.newline outer ++ '\x7d' :: rest)) (by omega)
    have hmore := entries_write depth outer k' t' es (h (k', t') (.head _)) (fun e he => h e (.tail _ he)) fuel rest
      (by simp only [List.length_append]; omega)
    obtain ⟨blanks, hcolon, hblanks⟩ := skipBlanks_colon l depth t
      (writeEntries l depth ((k', t') :: es) ++ (l.newline outer ++ '\x7d' :: rest))
    rw [← hblanks] at hvalue
    rw [hcolon]
    refine Reader.entries_more (Reader.skipBlanks_cons rfl _) hvalue (Reader.skipBlanks_cons rfl _) ?_
    simp only [List.append_eq, List.append_assoc]
    rw [l.skipBlanks_newline]
    exact hmore
termination_by structural _ _ _ _ _ fuel => fuel

end

/-- Reading undoes writing. -/
theorem read_render (l : Layout) {t : Tree} (h : t.HasDistinctKeys) : read (render l t) = .ok t.toData := by
  have hstart := skipBlanks_write l 0 t []
  have hvalue := value_write l 0 t h ((write l 0 t).length + 1) [] (by omega)
  rw [List.append_nil] at hstart hvalue
  unfold read render
  simp only [String.toList_ofList, hstart, hvalue, ok_bind]
  rfl

end Json

end ExprTree
