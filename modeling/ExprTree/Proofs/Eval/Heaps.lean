import ExprTree.Eval.Run
import ExprTree.Proofs.Node.Mirror

/-!
# Heaps that are alike

Two heaps are alike if they hold the same lists, dictionaries and objects, and
functions that mirror each other, whose scopes hold the same values under
numbers that correspond. What does not look into functions and scopes
cannot tell such heaps apart.
-/

namespace ExprTree

/-- The numbers that a cell binds. -/
def Cell.keys : Cell → List Nat
  | .scope bs => bs.map (·.1)
  | _ => []

namespace Heap

/-- The numbers that are bound at an address. -/
def keys (h : Heap) (a : Nat) : List Nat :=
  ((h.get? a).map Cell.keys).getD []

/-- Does the second heap have every cell of the first, and bind the same numbers there? -/
structure Keeps (h k : Heap) : Prop where
  size : h.cells.size ≤ k.cells.size
  keys : ∀ a < h.cells.size, k.keys a = h.keys a

theorem Keeps.refl (h : Heap) : h.Keeps h :=
  ⟨le_refl _, fun _ _ => rfl⟩

theorem Keeps.trans {h k m : Heap} (hk : h.Keeps k) (hm : k.Keeps m) : h.Keeps m :=
  ⟨hk.size.trans hm.size, fun a ha => (hm.keys a (ha.trans_le hk.size)).trans (hk.keys a ha)⟩

end Heap

/-- Do the scopes of a frame bind corresponding numbers at the same places? -/
def Frame.Links (R : Nat → Nat → Prop) (h h' : Heap) (frame : Frame) : Prop :=
  ∀ a ∈ frame, a < h.cells.size ∧ a < h'.cells.size ∧
    ∀ x y, R x y → List.Forall₂ (fun k k' => k = x ↔ k' = y) (h.keys a) (h'.keys a)

theorem Frame.Links.mono {R : Nat → Nat → Prop} {h h' k k' : Heap} {frame : Frame} (hf : frame.Links R h h')
    (hk : h.Keeps k) (hk' : h'.Keeps k') : frame.Links R k k' := by
  intro a ha
  obtain ⟨hsize, hsize', hkeys⟩ := hf a ha
  refine ⟨hsize.trans_le hk.size, hsize'.trans_le hk'.size, fun x y hxy => ?_⟩
  rw [hk.keys a hsize, hk'.keys a hsize']
  exact hkeys x y hxy

/-- Do cells of two heaps hold the same, up to a correspondence of parameters? -/
inductive Cell.Alike (h h' : Heap) : Cell → Cell → Prop where
  | list (items : List Value) : Alike h h' (.list items) (.list items)
  | dict (entries : List (Value × Value)) : Alike h h' (.dict entries) (.dict entries)
  | object (c : ClassName) (attributes : List (String × Value)) :
      Alike h h' (.object c attributes) (.object c attributes)
  | scope {bs bs' : List (Nat × Value)} (hbs : List.Forall₂ (fun b b' => b.2 = b'.2) bs bs') :
      Alike h h' (.scope bs) (.scope bs')
  | function {R : Nat → Nat → Prop} {ps qs : List Parameter} {body body' : Node} {frame : Frame}
      (hR : Relator.BiUnique R) (hps : Parameter.Correspond R ps qs) (hb : Node.Mirrors R body body')
      (hf : frame.Links R h h') :
      Alike h h' (.function ps body frame) (.function qs body' frame)

theorem Cell.Alike.mono {h h' k k' : Heap} {c c' : Cell} (hc : Cell.Alike h h' c c') (hk : h.Keeps k)
    (hk' : h'.Keeps k') :
    Cell.Alike k k' c c' := by
  cases hc with
  | list => exact .list _
  | dict => exact .dict _
  | object => exact .object _ _
  | scope hbs => exact .scope hbs
  | function hR hps hb hf => exact .function hR hps hb (hf.mono hk hk')

namespace Heap

/-- Do the heaps hold the same at every address, up to correspondences of parameters? -/
def Alike (h h' : Heap) : Prop :=
  ∀ a, Option.Rel (Cell.Alike h h') (h.get? a) (h'.get? a)

variable {h h' k k' : Heap}

theorem Alike.cell (hh : h.Alike h') (a : Nat) :
    (h.get? a = none ∧ h'.get? a = none) ∨ ∃ c c', h.get? a = some c ∧ h'.get? a = some c' ∧ Cell.Alike h h' c c' := by
  have ha := hh a
  generalize h.get? a = c, h'.get? a = c' at ha
  cases ha with
  | none => exact .inl ⟨rfl, rfl⟩
  | some hc => exact .inr ⟨_, _, rfl, rfl, hc⟩

theorem Alike.mono (hh : h.Alike h') (hk : h.Keeps k) (hk' : h'.Keeps k') (a : Nat) :
    Option.Rel (Cell.Alike k k') (h.get? a) (h'.get? a) := by
  obtain ⟨ha, ha'⟩ | ⟨c, c', ha, ha', hc⟩ := hh.cell a
  · rw [ha, ha']
    exact .none
  · rw [ha, ha']
    exact .some (hc.mono hk hk')

theorem isSome_get? {a : Nat} : (h.get? a).isSome ↔ a < h.cells.size := by
  simp [get?]

theorem Alike.size (hh : h.Alike h') : h.cells.size = h'.cells.size := by
  have hiff (a : Nat) : a < h.cells.size ↔ a < h'.cells.size := by
    rw [← isSome_get?, ← isSome_get?]
    obtain ⟨ha, ha'⟩ | ⟨c, c', ha, ha', -⟩ := hh.cell a <;> simp [ha, ha']
  have h₁ := hiff h'.cells.size
  have h₂ := hiff h.cells.size
  omega

/-- Are the second heaps alike, and do they keep what the first ones bind? -/
structure Grows (h h' k k' : Heap) : Prop where
  alike : k.Alike k'
  left : h.Keeps k
  right : h'.Keeps k'

theorem Grows.refl (hh : h.Alike h') : Grows h h' h h' :=
  ⟨hh, .refl h, .refl h'⟩

theorem Grows.trans {m m' : Heap} (hk : Grows h h' k k') (hm : Grows k k' m m') : Grows h h' m m' :=
  ⟨hm.alike, hk.left.trans hm.left, hk.right.trans hm.right⟩

/-! ## Changing cells -/

theorem get?_add (c : Cell) (a : Nat) : (h.add c).2.get? a = if a = h.cells.size then some c else h.get? a := by
  simp only [add, get?, Array.getElem?_push]

theorem get?_set (a b : Nat) (c : Cell) :
    (h.set a c).get? b = if a = b then if a < h.cells.size then some c else none else h.get? b := by
  simp only [set, get?, Array.getElem?_setIfInBounds]

theorem keeps_add (c : Cell) : h.Keeps (h.add c).2 := by
  refine ⟨by simp [add], fun a ha => ?_⟩
  rw [keys, keys, get?_add, if_neg ha.ne]

theorem keys_add_self (c : Cell) : (h.add c).2.keys (h.add c).1 = c.keys := by
  rw [keys, get?_add, if_pos (show (h.add c).1 = h.cells.size from rfl)]
  rfl

theorem Alike.add (hh : h.Alike h') {c c' : Cell} (hc : Cell.Alike h h' c c') :
    (h.add c).1 = (h'.add c').1 ∧ Grows h h' (h.add c).2 (h'.add c').2 := by
  have hsize := hh.size
  refine ⟨hsize, fun a => ?_, keeps_add c, keeps_add c'⟩
  rw [get?_add, get?_add, ← hsize]
  split
  · exact .some (hc.mono (keeps_add c) (keeps_add c'))
  · exact hh.mono (keeps_add c) (keeps_add c') a

theorem keeps_set {a : Nat} {c : Cell} (hc : c.keys = h.keys a) : h.Keeps (h.set a c) := by
  refine ⟨by simp [set], fun b hb => ?_⟩
  rw [keys, get?_set]
  split
  · next heq =>
    subst heq
    rw [if_pos hb, ← hc]
    rfl
  · rfl

/-- A cell is replaced by one that binds the same numbers. -/
theorem Alike.set (hh : h.Alike h') {a : Nat} {c c' : Cell} (hc : Cell.Alike h h' c c') (hkeys : c.keys = h.keys a)
    (hkeys' : c'.keys = h'.keys a) : Grows h h' (h.set a c) (h'.set a c') := by
  have hk := keeps_set hkeys
  have hk' := keeps_set hkeys'
  refine ⟨fun b => ?_, hk, hk'⟩
  rw [get?_set, get?_set, ← hh.size]
  split
  · split
    · exact .some (hc.mono hk hk')
    · exact .none
  · exact hh.mono hk hk' b

end Heap

/-! ## Changing bindings -/

namespace Frame

theorem run_opened (h : Heap) (frame : Frame) (ps : List Parameter) (vs : List Value) :
    (Run.opened frame ps vs).run h =
      (.ok ((h.add (.scope ((ps.zip vs).map fun (p, v) => (p.number, v)))).1 :: frame),
        (h.add (.scope ((ps.zip vs).map fun (p, v) => (p.number, v)))).2) :=
  rfl

theorem bindings_add (h : Heap) (bs : List (Nat × Value)) (a : Nat) :
    bindings (h.add (.scope bs)).2 a = if a = h.cells.size then bs else bindings h a := by
  unfold bindings
  rw [Heap.get?_add]
  by_cases ha : a = h.cells.size
  · rw [if_pos ha, if_pos ha]
  · rw [if_neg ha, if_neg ha]

theorem bindings_rebind (h : Heap) (a number : Nat) (v : Value) (b : Nat) :
    bindings (rebind h a number v) b =
      if b = a then (bindings h a).map fun e => if e.1 = number then (number, v) else e else bindings h b := by
  unfold rebind
  generalize hbs : ((bindings h a).map fun e => if e.1 = number then (number, v) else e) = bs
  unfold bindings at hbs ⊢
  rw [Heap.get?_set]
  by_cases hb : b = a
  · subst hb
    by_cases hlt : b < h.cells.size
    · simp [hlt]
    · -- where there is no cell, nothing is bound and nothing is set
      have hnone : h.get? b = none := by simpa [Heap.get?] using hlt
      simp only [hlt, if_true, if_false]
      simpa [hnone] using hbs
  · simp only [Ne.symm hb, hb, if_false]

end Frame

/-- A function runs its body in a scope of its own if it is given as many values as it has parameters. -/
theorem Host.run_applyAt {host : Host} {h : Heap} {ps : List Parameter} {body : Node} {frame : Frame} {a : Nat}
    (ha : h.get? a = some (.function ps body frame)) (depth : Nat) (vs : List Value) :
    (host.applyAt (depth + 1) (.ref a) vs).run h =
      if vs.length = ps.length then
        (Run.opened frame ps vs >>= fun inner => Node.eval host (host.applyAt depth) inner body).run h
      else (.error (.argumentCount ps.length vs.length), h) := by
  unfold Host.applyAt
  dsimp only
  rw [Action.run_bind_ok (Action.run_get h), ha]
  dsimp only
  by_cases hlen : vs.length = ps.length
  · rw [if_neg (not_not_intro hlen), if_pos hlen]
  · rw [if_pos hlen, if_neg hlen]
    rfl

/-! ## What is not seen -/

/-- The cell as it looks to who does not look into functions and scopes. -/
def Cell.blind : Cell → Cell
  | .scope _ => .scope []
  | .function .. => .function [] (.constant .none .nothing) []
  | c => c

/-- Is the cell neither a scope nor a function? -/
def Cell.IsPlain : Cell → Prop
  | .scope _ | .function .. => False
  | _ => True

theorem Cell.IsPlain.keys {c : Cell} (hc : c.IsPlain) : c.keys = [] := by
  cases c with
  | scope => exact hc.elim
  | _ => rfl

theorem Cell.IsPlain.alike {c : Cell} (hc : c.IsPlain) (h h' : Heap) : Cell.Alike h h' c c := by
  cases c with
  | list items => exact .list items
  | dict entries => exact .dict entries
  | object c attributes => exact .object c attributes
  | scope | function => exact hc.elim

theorem Cell.IsPlain.eq_of_blind {c d : Cell} (hc : c.IsPlain) (h : d.blind = c.blind) : d = c := by
  have hblind : c.blind = c := by
    cases c with
    | scope | function => exact hc.elim
    | _ => rfl
  rw [hblind] at h
  subst h
  cases d with
  | scope | function => exact False.elim hc
  | _ => rfl

namespace Heap

def blind (h : Heap) : Heap :=
  ⟨h.cells.map Cell.blind⟩

variable {h h' : Heap}

@[simp] theorem get?_blind (h : Heap) (a : Nat) : h.blind.get? a = (h.get? a).map Cell.blind := by
  simp [blind, get?]

@[simp] theorem size_blind (h : Heap) : h.blind.cells.size = h.cells.size := by
  simp [blind]

/-- Do the heaps look the same to who does not look into functions and scopes? -/
def LooksLike (h h' : Heap) : Prop :=
  h.blind = h'.blind

/-- What does not look into functions and scopes gives the same of both heaps. -/
theorem LooksLike.read {α : Type} (hh : h.LooksLike h') (f : Heap → α) (hf : ∀ k, f k.blind = f k) : f h = f h' := by
  rw [← hf h, show h.blind = h'.blind from hh, hf h']

theorem LooksLike.size (hh : h.LooksLike h') : h.cells.size = h'.cells.size :=
  hh.read (·.cells.size) size_blind

/-- A cell that is plain is the same in both heaps. -/
theorem LooksLike.get? (hh : h.LooksLike h') {a : Nat} {c : Cell} (ha : h'.get? a = some c) (hc : c.IsPlain) :
    h.get? a = some c := by
  have hblind : (h.get? a).map Cell.blind = (h'.get? a).map Cell.blind := by
    rw [← get?_blind, ← get?_blind, show h.blind = h'.blind from hh]
  rw [ha] at hblind
  obtain ⟨d, hd, hdc⟩ := Option.map_eq_some_iff.mp hblind
  rw [hd, hc.eq_of_blind hdc]

theorem Alike.looks (hh : h.Alike h') : h.LooksLike h' := by
  have hcells : h.cells.map Cell.blind = h'.cells.map Cell.blind := by
    refine Array.ext (by simpa using hh.size) fun a ha ha' => ?_
    have hget : (h.get? a).map Cell.blind = (h'.get? a).map Cell.blind := by
      obtain ⟨hc, hc'⟩ | ⟨c, c', hc, hc', hsame⟩ := hh.cell a
      · rw [hc, hc']
      · rw [hc, hc']
        cases hsame <;> rfl
    have hlt : a < h.cells.size := by simpa using ha
    have hlt' : a < h'.cells.size := by simpa using ha'
    simpa [get?, hlt, hlt'] using hget
  exact congrArg Heap.mk hcells

end Heap

end ExprTree
