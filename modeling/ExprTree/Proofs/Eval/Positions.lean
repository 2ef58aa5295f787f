import ExprTree.Proofs.Eval.Binding
import ExprTree.Proofs.Eval.Lexical
import ExprTree.Proofs.Eval.Scopes

/-!
# Scopes as records

A heap of scopes becomes a heap of records when the numbers in its scopes are
dropped and its functions are resolved in what their frames bind. As long as no
scope binds a number twice, the scope in which a chain finds a number is the
record of the position that the number has among all that the chain binds, and
the number has the place of the cell in it.
-/

namespace ExprTree

open Node (Scope)

variable {h k : Heap} {frame : Frame} {scope : Scope}

/-! ## Binding once -/

namespace Node

variable {own : Scope} {n m : Node} {ps : List Parameter}

/-- Does no lambda in a tree list a parameter twice? -/
inductive BindsOnce : Node → Prop where
  | intro {n : Node} (nodup : ∀ own m, (own, m) ∈ n.parts → own.Nodup)
      (parts : ∀ own m, (own, m) ∈ n.parts → BindsOnce m) : BindsOnce n

theorem bindsOnce_iff : n.BindsOnce ↔ ∀ part ∈ n.parts, part.1.Nodup ∧ part.2.BindsOnce := by
  constructor
  · rintro ⟨hnodup, hparts⟩ ⟨own, m⟩ hm
    exact ⟨hnodup own m hm, hparts own m hm⟩
  · exact fun h => .intro (fun own m hm => (h (own, m) hm).1) fun own m hm => (h (own, m) hm).2

theorem areDistinct_iff : areDistinct ps = true ↔ (ps.map (·.number)).Nodup := by
  induction ps with
  | nil => simp [areDistinct]
  | cons p ps ih => simp [areDistinct, ih]

/-- The builders refuse a lambda that lists a parameter twice. -/
theorem IsMade.own_nodup {l : Library} (hn : n.IsMade l) (hm : (own, m) ∈ n.parts) : own.Nodup := by
  cases hn with
  | constant hn =>
    obtain ⟨-, rfl⟩ := mkConstant_eq_ok.mp hn
    simp [parts] at hm
  | parameter p => simp [parts] at hm
  | lambda _ hn =>
    obtain ⟨ps, -, hdistinct, rfl⟩ := mkLambda_eq_ok.mp hn
    simp only [parts, List.mem_singleton, Prod.mk.injEq] at hm
    exact hm.1 ▸ areDistinct_iff.mp hdistinct
  | binary _ _ hn =>
    obtain ⟨b, t, rfl, -, rfl⟩ := mkBinary_eq_ok.mp hn
    simp only [parts, List.mem_cons, Prod.mk.injEq, List.not_mem_nil, or_false] at hm
    obtain ⟨rfl, -⟩ | ⟨rfl, -⟩ := hm <;> exact List.nodup_nil
  | converted _ _ _ hn =>
    obtain ⟨p, body, -, rfl, -, -, rfl⟩ := mkConverted_eq_ok.mp hn
    simp only [parts, List.mem_cons, Prod.mk.injEq, List.not_mem_nil, or_false] at hm
    obtain ⟨rfl, -⟩ | ⟨rfl, -⟩ | ⟨rfl, -⟩ := hm
    · exact List.nodup_nil
    · exact List.nodup_nil
    · simp
  | unary _ hn =>
    obtain ⟨u, t, -, rfl⟩ := mkUnary_shape hn
    simp only [parts, List.mem_singleton, Prod.mk.injEq] at hm
    exact hm.1 ▸ List.nodup_nil
  | member _ hn =>
    obtain ⟨-, rfl⟩ := mkMember_eq_ok.mp hn
    simp only [parts, List.mem_singleton, Prod.mk.injEq] at hm
    exact hm.1 ▸ List.nodup_nil
  | call _ hn =>
    obtain ⟨-, -, -, rfl⟩ := mkCall_eq_ok.mp hn
    simp only [callOf, parts, List.mem_map, Prod.mk.injEq] at hm
    obtain ⟨a, -, rfl, -⟩ := hm
    exact List.nodup_nil
  | callOn _ _ hn =>
    obtain ⟨-, -, -, rfl⟩ := mkCall_eq_ok.mp hn
    simp only [callOf, parts, List.mem_cons, List.mem_map, Prod.mk.injEq] at hm
    obtain ⟨rfl, -⟩ | ⟨a, -, rfl, -⟩ := hm <;> exact List.nodup_nil
  | conditional _ _ _ hn =>
    obtain ⟨-, -, rfl⟩ := mkConditional_eq_ok.mp hn
    simp only [parts, List.mem_cons, Prod.mk.injEq, List.not_mem_nil, or_false] at hm
    obtain ⟨rfl, -⟩ | ⟨rfl, -⟩ | ⟨rfl, -⟩ := hm <;> exact List.nodup_nil

theorem IsMade.bindsOnce {l : Library} (n : Node) (hn : n.IsMade l) : n.BindsOnce :=
  .intro (fun _ _ hm => hn.own_nodup hm) fun _ m hm => IsMade.bindsOnce m (hn.part hm)
termination_by sizeOf n
decreasing_by exact sizeOf_part hm

end Node

/-! ## Frames -/

namespace Frame

/-- Are the scopes of a frame in the heap? -/
def IsIn (h : Heap) (frame : Frame) : Prop :=
  ∀ a ∈ frame, a < h.cells.size

/-- All numbers that the scopes of a frame bind, those of the innermost first. -/
def numbers (h : Heap) (frame : Frame) : Scope :=
  frame.flatMap h.keys

theorem IsIn.mono (hf : frame.IsIn h) (hk : h.Keeps k) : frame.IsIn k :=
  fun a ha => (hf a ha).trans_le hk.size

theorem IsIn.numbers (hf : frame.IsIn h) (hk : h.Keeps k) : frame.numbers k = frame.numbers h := by
  unfold Frame.numbers
  induction frame with
  | nil => rfl
  | cons a frame ih =>
    rw [List.flatMap_cons, List.flatMap_cons, hk.keys a (hf a List.mem_cons_self),
      ih fun b hb => hf b (List.mem_cons_of_mem a hb)]

end Frame

/-! ## Heaps of records -/

namespace Cell

/-- Does a cell bind no number twice, and, if it is a function, nor does its body, and is its frame in the heap? -/
def BindsOnce (h : Heap) : Cell → Prop
  | .scope bs => (bs.map (·.1)).Nodup
  | .function ps body frame => (ps.map (·.number)).Nodup ∧ body.BindsOnce ∧ Frame.IsIn h frame
  | _ => True

/-- A scope as a record, and a function as it is resolved in what its frame binds. -/
def resolved (h : Heap) : Cell → Cell
  | .scope bs => .scope (bs.map fun b => (0, b.2))
  | .function ps body frame =>
    .function (ps.map Parameter.nameless) (body.resolve (ps.map (·.number) ++ Frame.numbers h frame)) frame
  | c => c

variable {c : Cell}

theorem BindsOnce.mono (hc : c.BindsOnce h) (hk : h.Keeps k) : c.BindsOnce k := by
  cases c with
  | scope bs => exact hc
  | function ps body frame => exact ⟨hc.1, hc.2.1, hc.2.2.mono hk⟩
  | _ => trivial

theorem BindsOnce.resolved (hc : c.BindsOnce h) (hk : h.Keeps k) : c.resolved k = c.resolved h := by
  cases c with
  | function ps body frame => simp only [Cell.resolved, hc.2.2.numbers hk]
  | _ => rfl

theorem IsPlain.bindsOnce (hc : c.IsPlain) (h : Heap) : c.BindsOnce h := by
  cases c with
  | scope | function => exact hc.elim
  | _ => trivial

theorem IsPlain.resolved (hc : c.IsPlain) (h : Heap) : c.resolved h = c := by
  cases c with
  | scope | function => exact hc.elim
  | _ => rfl

end Cell

namespace Heap

def BindsOnce (h : Heap) : Prop :=
  ∀ a c, h.get? a = some c → c.BindsOnce h

/-- The heap in which nothing has a number any more. -/
def resolved (h : Heap) : Heap :=
  ⟨h.cells.map (Cell.resolved h)⟩

theorem bindsOnce_empty : empty.BindsOnce := by
  intro a c hc
  simp [empty, get?] at hc

theorem ext_get? (hget : ∀ a, h.get? a = k.get? a) : h = k :=
  congrArg Heap.mk (Array.ext_getElem? hget)

theorem get?_resolved (h : Heap) (a : Nat) : h.resolved.get? a = (h.get? a).map (Cell.resolved h) := by
  simp [resolved, get?]

theorem looks_resolved (h : Heap) : h.LooksLike h.resolved := by
  refine ext_get? fun a => ?_
  rw [get?_blind, get?_blind, get?_resolved, Option.map_map]
  refine Option.map_congr fun c _ => ?_
  cases c <;> rfl

theorem bindings_resolved (h : Heap) (a : Nat) :
    Frame.bindings h.resolved a = (Frame.bindings h a).map fun b => (0, b.2) := by
  unfold Frame.bindings
  rw [get?_resolved]
  rcases h.get? a with _ | c
  · rfl
  · cases c <;> rfl

theorem keys_resolved (h : Heap) (a : Nat) : h.resolved.keys a = (h.keys a).map fun _ => 0 := by
  rw [← Frame.keys_bindings, ← Frame.keys_bindings, bindings_resolved, List.map_map, List.map_map]
  rfl

theorem Keeps.resolved (hk : h.Keeps k) : h.resolved.Keeps k.resolved := by
  refine ⟨?_, fun a ha => ?_⟩
  · simpa [Heap.resolved] using hk.size
  · rw [keys_resolved, keys_resolved, hk.keys a (by simpa [Heap.resolved] using ha)]

variable {c : Cell}

theorem BindsOnce.add (hh : h.BindsOnce) (hc : c.BindsOnce h) : (h.add c).2.BindsOnce := by
  intro a d hd
  rw [get?_add] at hd
  split at hd
  · cases hd
    exact hc.mono (keeps_add c)
  · exact (hh a d hd).mono (keeps_add c)

theorem BindsOnce.set (hh : h.BindsOnce) {a : Nat} (hc : c.BindsOnce h) (hkeys : c.keys = h.keys a) :
    (h.set a c).BindsOnce := by
  intro b d hd
  rw [get?_set] at hd
  split at hd
  · split at hd
    · cases hd
      exact hc.mono (keeps_set hkeys)
    · cases hd
  · exact (hh b d hd).mono (keeps_set hkeys)

/-- Cells that were there are resolved as before, since their frames bind what they did. -/
theorem BindsOnce.map_resolved (hh : h.BindsOnce) (hk : h.Keeps k) (a : Nat) :
    (h.get? a).map (Cell.resolved k) = (h.get? a).map (Cell.resolved h) :=
  Option.map_congr fun c hc => (hh a c hc).resolved hk

theorem BindsOnce.resolved_add (hh : h.BindsOnce) (hc : c.BindsOnce h) :
    (h.add c).2.resolved = (h.resolved.add (c.resolved h)).2 := by
  refine ext_get? fun a => ?_
  have hsize : h.resolved.cells.size = h.cells.size := (looks_resolved h).size.symm
  rw [get?_resolved, get?_add, get?_add, hsize]
  split
  · rw [Option.map_some, hc.resolved (keeps_add c)]
  · rw [hh.map_resolved (keeps_add c), get?_resolved]

theorem BindsOnce.resolved_set (hh : h.BindsOnce) {a : Nat} (hc : c.BindsOnce h) (hkeys : c.keys = h.keys a) :
    (h.set a c).resolved = h.resolved.set a (c.resolved h) := by
  refine ext_get? fun b => ?_
  have hsize : h.resolved.cells.size = h.cells.size := (looks_resolved h).size.symm
  rw [get?_resolved, get?_set, get?_set, hsize]
  split
  · split
    · rw [Option.map_some, hc.resolved (keeps_set hkeys)]
    · rfl
  · rw [hh.map_resolved (keeps_set hkeys), get?_resolved]

theorem BindsOnce.nodup_keys (hh : h.BindsOnce) (a : Nat) : (h.keys a).Nodup := by
  unfold keys
  cases ha : h.get? a with
  | none => exact List.nodup_nil
  | some c =>
    cases c with
    | scope bs => exact hh a _ ha
    | _ => exact List.nodup_nil

end Heap

/-- A heap that binds once is like its heap of records, and a fault is like itself. -/
def Likeness.positions : Likeness where
  heaps h h' := h.BindsOnce ∧ h' = h.resolved
  faults e e' := e = e'
  looks := by
    rintro h _ ⟨-, rfl⟩
    exact h.looks_resolved
  add := by
    rintro h _ c ⟨hh, rfl⟩ hc
    have hbinds := hc.bindsOnce h
    exact ⟨hh.add hbinds, by rw [hh.resolved_add hbinds, hc.resolved]⟩
  set := by
    rintro h _ a c ⟨hh, rfl⟩ ha hc
    have hbinds := hc.bindsOnce h
    have hkeys : c.keys = h.keys a := hc.keys.trans ha.keys.symm
    exact ⟨hh.set hbinds hkeys, by rw [hh.resolved_set hbinds hkeys, hc.resolved]⟩
  plain _ := rfl

/-! ## Scopes and positions -/

namespace Lexical

variable {a number : Nat} {bs : List (Nat × Value)}

theorem any_iff_mem_keys : ((Frame.bindings h a).any (·.1 = number)) = true ↔ number ∈ h.keys a := by
  rw [← Frame.keys_bindings, List.any_eq_true, List.mem_map]
  simp

theorem length_bindings_resolved (h : Heap) (a : Nat) :
    (Frame.bindings h.resolved a).length = (h.keys a).length := by
  rw [Heap.bindings_resolved, ← Frame.keys_bindings, List.length_map, List.length_map]

/-- The position of a number denotes a cell of the record that comes of the innermost scope that binds the number. -/
theorem cell?_idxOf (h : Heap) (frame : Frame) (number : Nat) :
    cell? h.resolved frame ((frame.numbers h).idxOf number) =
      (frame.scopeOf? h number).map fun a => (a, (h.keys a).idxOf number) := by
  induction frame with
  | nil => rfl
  | cons a frame ih =>
    rw [Frame.numbers, List.flatMap_cons, ← Frame.numbers, cell?, length_bindings_resolved, Frame.scopeOf?,
      List.find?_cons]
    by_cases hmem : number ∈ h.keys a
    · rw [List.idxOf_append_of_mem hmem, if_pos (List.idxOf_lt_length_of_mem hmem), any_iff_mem_keys.mpr hmem]
      rfl
    · have hany : (Frame.bindings h a).any (·.1 = number) = false := by
        rwa [← Bool.not_eq_true, any_iff_mem_keys]
      rw [List.idxOf_append_of_notMem hmem, if_neg (by omega), Nat.add_sub_cancel_left, hany]
      exact ih

theorem lookup_eq_getElem? (bs : List (Nat × Value)) (number : Nat) :
    bs.lookup number = bs[(bs.map (·.1)).idxOf number]?.map (·.2) := by
  induction bs with
  | nil => rfl
  | cons b bs ih =>
    rw [List.lookup_cons, List.map_cons, List.idxOf_cons]
    by_cases hb : b.1 = number
    · simp [hb]
    · rw [beq_false_of_ne hb, beq_false_of_ne (Ne.symm hb)]
      simpa using ih

theorem content?_idxOf (h : Heap) (a number : Nat) :
    content? h.resolved (a, (h.keys a).idxOf number) = (Frame.bindings h a).lookup number := by
  rw [content?, Heap.bindings_resolved, lookup_eq_getElem?, Frame.keys_bindings, List.getElem?_map, Option.map_map]
  rfl

theorem map_rebind (hnodup : (bs.map (·.1)).Nodup) (hmem : number ∈ bs.map (·.1)) (v : Value) :
    ((bs.map fun b => if b.1 = number then (number, v) else b).map fun b => (0, b.2)) =
      (bs.map fun b => (0, b.2)).set ((bs.map (·.1)).idxOf number) (0, v) := by
  induction bs with
  | nil => simp at hmem
  | cons b bs ih =>
    rw [List.map_cons, List.nodup_cons] at hnodup
    rw [List.map_cons, List.map_cons, List.map_cons, List.map_cons, List.idxOf_cons]
    by_cases hb : b.1 = number
    · -- no later binding has the number, so only this one changes
      have hrest : (bs.map fun b => if b.1 = number then (number, v) else b) = bs.map id := by
        refine List.map_congr_left fun c hc => if_neg ?_
        rintro rfl
        exact hnodup.1 (hb ▸ List.mem_map_of_mem hc)
      simp [hb, hrest]
    · rw [beq_false_of_ne hb]
      have hmem : number ∈ bs.map (·.1) := by simpa [Ne.symm hb] using hmem
      simp [hb, ih hnodup.2 hmem]

/-- To assign the cell is to rebind the number in its scope. -/
theorem update_idxOf (hh : h.BindsOnce) (hmem : number ∈ h.keys a) (v : Value) :
    (Frame.rebind h a number v).BindsOnce ∧ h.Keeps (Frame.rebind h a number v) ∧
      update h.resolved (a, (h.keys a).idxOf number) v = (Frame.rebind h a number v).resolved := by
  have hkeys : Cell.keys (.scope ((Frame.bindings h a).map fun b => if b.1 = number then (number, v) else b)) =
      h.keys a := (Frame.keys_rebind v).trans (Frame.keys_bindings h a)
  have hbinds : Cell.BindsOnce h
      (.scope ((Frame.bindings h a).map fun b => if b.1 = number then (number, v) else b)) := by
    rw [Cell.BindsOnce, Frame.keys_rebind, Frame.keys_bindings]
    exact hh.nodup_keys a
  refine ⟨hh.set hbinds hkeys, Heap.keeps_set hkeys, ?_⟩
  rw [Frame.rebind, hh.resolved_set hbinds hkeys, update, Heap.bindings_resolved, Cell.resolved, map_rebind,
    Frame.keys_bindings]
  · rw [Frame.keys_bindings]
    exact hh.nodup_keys a
  · rwa [Frame.keys_bindings]

end Lexical

end ExprTree
