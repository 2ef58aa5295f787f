import ExprTree.Proofs.Eval.Closures
import ExprTree.Query

/-!
# Calls of the functions that operators are given

A function is called on items in turn, until an answer ends it or a call fails.
What an operator does is what it makes of the answers, if going through a source
meets the items it had at the start; a function may change a list while it is
gone through, and then it need not. Pure functions only add to the heap.
-/

namespace ExprTree

/-- A list in which each item is to be related to those after it, and none is related to any, has at most one. -/
theorem nil_or_singleton_of_pairwise {α : Type} {R : α → α → Prop} {l : List α} (h : l.Pairwise R)
    (hnot : ∀ a ∈ l, ∀ b ∈ l, ¬R a b) : l = [] ∨ ∃ a, l = [a] := by
  cases l with
  | nil => exact .inl rfl
  | cons a l =>
    cases l with
    | nil => exact .inr ⟨a, rfl⟩
    | cons b l =>
      have hab : R a b := (List.pairwise_cons.mp h).1 b List.mem_cons_self
      exact absurd hab (hnot a (by simp) b (by simp))

namespace Heap

/-- Does everything on the first heap stay as it is on the second? -/
def Extends (h k : Heap) : Prop :=
  ∀ a c, h.get? a = some c → k.get? a = some c

variable {h k m : Heap}

theorem Extends.refl (h : Heap) : h.Extends h :=
  fun _ _ ha => ha

theorem Extends.trans (hk : h.Extends k) (hm : k.Extends m) : h.Extends m :=
  fun a c ha => hm a c (hk a c ha)

theorem extends_add (h : Heap) (c : Cell) : h.Extends (h.add c).2 := by
  intro a d ha
  have hlt : a < h.cells.size := isSome_get?.mp (by rw [ha]; rfl)
  rw [get?_add, if_neg hlt.ne, ha]

theorem Extends.list? (hk : h.Extends k) {v : Value} {vs : List Value} (hv : h.list? v = some vs) :
    k.list? v = some vs := by
  unfold Heap.list? at hv ⊢
  split at hv
  · split at hv
    · next ha => rw [hk _ _ ha]; exact hv
    · cases hv
  · cases hv

end Heap

namespace Query

open Action Run

variable {α β : Type} {f : Value → Run α} {stops : α → Bool} {h k m : Heap} {s : Source} {v : Value}
  {vs rest : List Value} {as : List α} {fault : Option Fault}

/-! ## Sources -/

/-- Are these the source and the items of a value? -/
structure Offers (v : Value) (h : Heap) (s : Source) (vs : List Value) : Prop where
  source : (source v).run h = (.ok s, h)
  items : s.items h = vs

namespace Offers

theorem run_items (hv : Offers v h s vs) : (Query.items v).run h = (.ok vs, h) := by
  unfold Query.items
  rw [run_bind_ok hv.source, run_bind_ok (run_get h), run_pure, hv.items]

theorem items_extends (hv : Offers v h s vs) (hk : h.Extends k) : s.items k = vs := by
  rw [← hv.items]
  cases s with
  | fixed ws => rfl
  | list a =>
    suffices ∃ ws, h.list? (.ref a) = some ws by
      obtain ⟨ws, ha⟩ := this
      rw [Source.items, Source.items, ha, hk.list? ha]
    have hs := hv.source
    unfold Query.source at hs
    rw [run_bind_ok (run_get h)] at hs
    split at hs
    · cases hs
    · cases hs
    · cases hs
    · cases hs
    · split at hs <;> cases hs
    · split at hs
      · next ws ha => cases hs; exact ⟨ws, ha⟩
      · cases hs
      · cases hs
    · cases hs

end Offers

/-! ## Results -/

/-- Gives a new list of these items, and changes nothing else. -/
def Lists (x : Run Value) (h : Heap) (ws : List Value) : Prop :=
  ∃ r k, x.run h = (.ok r, k) ∧ k.list? r = some ws ∧ h.Extends k

theorem list?_newList (h : Heap) (ws : List Value) :
    (h.add (.list ws)).2.list? (.ref (h.add (.list ws)).1) = some ws := by
  simp [Heap.list?, Heap.get?, Heap.add]

theorem lists_newList {x : Run Value} {ws : List Value} (hx : x.run h = (newList ws).run k) (hk : h.Extends k) :
    Lists x h ws :=
  ⟨_, _, hx, list?_newList k ws, hk.trans (k.extends_add _)⟩

theorem offers_of_list? {r : Value} (hr : h.list? r = some vs) : ∃ s, Offers r h s vs := by
  cases r with
  | ref a =>
    refine ⟨.list a, ?_, by rw [Source.items, hr]; rfl⟩
    unfold Query.source
    rw [run_bind_ok (run_get h)]
    dsimp only
    rw [hr]
    rfl
  | _ => cases hr

/-! ## Visits -/

/-- Calls a function on items in turn, until an answer stops it or a call fails: from one heap to another, with these
answers, and with the fault of the last call if it failed. -/
inductive Visits (f : Value → Run α) (stops : α → Bool) :
    Heap → List Value → List α → Option Fault → Heap → Prop where
  | nil (h : Heap) : Visits f stops h [] [] none h
  | fail {h k : Heap} {v : Value} {e : Fault} (vs : List Value) (hv : (f v).run h = (.error e, k)) :
      Visits f stops h (v :: vs) [] (some e) k
  | stop {h k : Heap} {v : Value} {a : α} (vs : List Value) (hv : (f v).run h = (.ok a, k)) (ha : stops a = true) :
      Visits f stops h (v :: vs) [a] none k
  | next {h k m : Heap} {v : Value} {vs : List Value} {a : α} {as : List α} {fault : Option Fault}
      (hv : (f v).run h = (.ok a, k)) (ha : stops a = false) (hvs : Visits f stops k vs as fault m) :
      Visits f stops h (v :: vs) (a :: as) fault m

/-- No answer stops the calls. -/
def never (_ : α) : Bool := false

theorem exists_visits (f : Value → Run α) (stops : α → Bool) (h : Heap) (vs : List Value) :
    ∃ as fault k, Visits f stops h vs as fault k := by
  induction vs generalizing h with
  | nil => exact ⟨[], none, h, .nil h⟩
  | cons v vs ih =>
    cases hv : (f v).run h with
    | mk r k =>
      cases r with
      | error e => exact ⟨[], some e, k, .fail vs hv⟩
      | ok a =>
        cases ha : stops a with
        | true => exact ⟨[a], none, k, .stop vs hv ha⟩
        | false =>
          obtain ⟨as, fault, m, hvs⟩ := ih k
          exact ⟨a :: as, fault, m, .next hv ha hvs⟩

theorem Visits.unique {as' : List α} {fault' : Option Fault} {k' : Heap} (hvs : Visits f stops h vs as fault k)
    (hvs' : Visits f stops h vs as' fault' k') : as = as' ∧ fault = fault' ∧ k = k' := by
  induction hvs generalizing as' fault' k' with
  | nil h =>
    cases hvs'
    exact ⟨rfl, rfl, rfl⟩
  | fail vs hv =>
    cases hvs' with
    | fail _ hv' =>
      cases hv.symm.trans hv'
      exact ⟨rfl, rfl, rfl⟩
    | stop _ hv' => cases hv.symm.trans hv'
    | next hv' => cases hv.symm.trans hv'
  | stop vs hv ha =>
    cases hvs' with
    | fail _ hv' => cases hv.symm.trans hv'
    | stop _ hv' =>
      cases hv.symm.trans hv'
      exact ⟨rfl, rfl, rfl⟩
    | next hv' ha' =>
      cases hv.symm.trans hv'
      cases ha.symm.trans ha'
  | next hv ha _ ih =>
    cases hvs' with
    | fail _ hv' => cases hv.symm.trans hv'
    | stop _ hv' ha' =>
      cases hv.symm.trans hv'
      cases ha.symm.trans ha'
    | next hv' _ hrest =>
      cases hv.symm.trans hv'
      obtain ⟨rfl, rfl, rfl⟩ := ih hrest
      exact ⟨rfl, rfl, rfl⟩

theorem Visits.length_le (hvs : Visits f stops h vs as fault k) : as.length ≤ vs.length := by
  induction hvs <;> simp_all

theorem Visits.length_eq (hvs : Visits f never h vs as none k) : as.length = vs.length := by
  generalize hfault : (none : Option Fault) = fault at hvs
  induction hvs with
  | nil => rfl
  | fail => cases hfault
  | stop _ _ ha => cases ha
  | next _ _ _ ih => simp [ih hfault]

/-- Are these the items of a source from the place `i` on, and those that are left of them after each call, as long as
no call fails and no answer stops the calls? -/
def Held (f : Value → Run α) (stops : α → Bool) (s : Source) (h : Heap) (i : Nat) (vs : List Value) : Prop :=
  ∀ n as k, Visits f never h (vs.take n) as none k → (∀ a ∈ as, stops a = false) →
    (s.items k).drop (i + as.length) = vs.drop as.length

theorem Held.now {i : Nat} (hs : Held f stops s h i vs) : (s.items h).drop i = vs :=
  hs 0 [] h (.nil h) (by simp)

theorem Held.next {a : α} {i : Nat} (hs : Held f stops s h i (v :: vs)) (hv : (f v).run h = (.ok a, k))
    (ha : stops a = false) : Held f stops s k (i + 1) vs := by
  intro n as m hvs hstops
  have hitems := hs (n + 1) (a :: as) m (.next hv rfl hvs) (List.forall_mem_cons.mpr ⟨ha, hstops⟩)
  rwa [List.length_cons, List.drop_succ_cons, ← Nat.add_assoc, Nat.add_right_comm] at hitems

theorem held_fixed (f : Value → Run α) (stops : α → Bool) (h : Heap) (vs : List Value) :
    Held f stops (.fixed vs) h 0 vs := by
  intro n as k _ _
  rw [Source.items, Nat.zero_add]

/-! ## Loops -/

/-- Goes on unless there was a fault. -/
def after (fault : Option Fault) (x : Run α) : Run α :=
  match fault with
  | none => x
  | some e => throw e

@[simp] theorem after_none (x : Run α) : after none x = x := rfl

theorem run_bind_after {x y : Run α} (hx : x.run h = (after fault y).run k) (g : α → Run β) :
    (x >>= g).run h = (after fault (y >>= g)).run k := by
  rw [run_bind, hx]
  cases fault with
  | none => rw [after_none, after_none, run_bind]
  | some e => rfl

/-- The steps of a loop that calls a function on the item and then decides. -/
def stepping (f : Value → Run α) (stops : α → Bool) (update : β → Value → α → β) (b : β) (v : Value) :
    Run (ForInStep β) := do
  let a ← f v
  return if stops a then .done (update b v a) else .yield (update b v a)

/-- What the answers make of the start. -/
def gathered (update : β → Value → α → β) (start : β) (vs : List Value) (as : List α) : β :=
  (vs.zip as).foldl (fun b e => update b e.1 e.2) start

variable {update : β → Value → α → β}

@[simp] theorem gathered_nil (start : β) (vs : List Value) : gathered update start vs [] = start := by
  simp [gathered]

theorem gathered_next (start : β) (v : Value) (vs : List Value) (a : α) (as : List α) :
    gathered update start (v :: vs) (a :: as) = gathered update (update start v a) vs as := rfl

section

variable {step : β → Value → Run (ForInStep β)} {i fuel : Nat} {b c : β}

theorem walk_end (hi : (s.items h)[i]? = none) : (walk s step (fuel + 1) i b).run h = (.ok b, h) := by
  unfold walk
  rw [run_bind_ok (run_get h), hi, run_pure]

theorem walk_fail {e : Fault} (hi : (s.items h)[i]? = some v) (hv : (step b v).run h = (.error e, k)) :
    (walk s step (fuel + 1) i b).run h = (.error e, k) := by
  unfold walk
  rw [run_bind_ok (run_get h), hi]
  exact run_bind_error hv _

theorem walk_done (hi : (s.items h)[i]? = some v) (hv : (step b v).run h = (.ok (.done c), k)) :
    (walk s step (fuel + 1) i b).run h = (.ok c, k) := by
  unfold walk
  rw [run_bind_ok (run_get h), hi]
  exact run_bind_ok hv _

theorem walk_yield (hi : (s.items h)[i]? = some v) (hv : (step b v).run h = (.ok (.yield c), k)) :
    (walk s step (fuel + 1) i b).run h = (walk s step fuel (i + 1) c).run k := by
  conv_lhs => unfold walk
  rw [run_bind_ok (run_get h), hi]
  exact run_bind_ok hv _

end

theorem walk_visits {fuel i : Nat} (b : β) (hfuel : vs.length ≤ fuel) (hs : Held f stops s h i vs)
    (hvs : Visits f stops h vs as fault k) :
    (walk s (stepping f stops update) (fuel + 1) i b).run h =
      (after fault (pure (gathered update b vs as))).run k := by
  -- One step more than there are items, as the loop has to see that it is at the end.
  have hitem : (s.items h)[i]? = vs.head? := by rw [← hs.now, List.head?_drop]
  induction hvs generalizing fuel i b with
  | nil h => exact walk_end hitem
  | fail vs hv => exact walk_fail hitem (run_bind_error hv _)
  | @stop h k v a vs hv ha =>
    have hstep : (stepping f stops update b v).run h = (.ok (.done (update b v a)), k) := by
      rw [stepping, run_bind_ok hv, if_pos ha, run_pure]
    rw [walk_done hitem hstep]
    simp [gathered_next]
  | @next h k m v vs a as fault hv ha hvs ih =>
    obtain ⟨fuel, rfl⟩ := Nat.exists_eq_succ_of_ne_zero (Nat.ne_zero_of_lt hfuel)
    have hnext := hs.next hv ha
    have hstep : (stepping f stops update b v).run h = (.ok (.yield (update b v a)), k) := by
      rw [stepping, run_bind_ok hv, if_neg (by simp [ha]), run_pure]
    rw [walk_yield hitem hstep]
    exact ih (update b v a) (Nat.le_of_succ_le_succ hfuel) hnext (by rw [← hnext.now, List.head?_drop])

/-- A loop over items that stay makes of its start what the answers make of it. -/
theorem each_visits (update : β → Value → α → β) (start : β) {step : β → Value → Run (ForInStep β)}
    (hstep : ∀ b v, step b v = stepping f stops update b v) (hs : Held f stops s h 0 vs)
    (hvs : Visits f stops h vs as fault k) :
    (each s start step).run h = (after fault (pure (gathered update start vs as))).run k := by
  obtain rfl : step = stepping f stops update := funext fun b => funext (hstep b)
  unfold each eachFrom
  have hitems : s.items h = vs := hs.now
  rw [run_bind_ok (run_get h), hitems]
  exact walk_visits start (Nat.le_add_left _ _) hs hvs

theorem gathered_map (update : β → Value → α → β) (val : Value → α) (start : β) (vs : List Value) :
    gathered update start vs (vs.map val) = vs.foldl (fun b v => update b v (val v)) start := by
  induction vs generalizing start with
  | nil => rfl
  | cons v vs ih => rw [List.map_cons, gathered_next, ih, List.foldl_cons]

theorem gathered_cons (made : List α) (hlength : as.length ≤ vs.length) :
    gathered (fun made _ a => a :: made) made vs as = as.reverse ++ made := by
  induction as generalizing made vs with
  | nil => simp
  | cons a as ih =>
    cases vs with
    | nil => cases hlength
    | cons v vs =>
      rw [gathered_next, ih _ (Nat.le_of_succ_le_succ hlength), List.reverse_cons, List.append_assoc,
        List.singleton_append]

theorem map_visits {f : Value → Run Value} {ws : List Value} (hs : Held f never s h 0 vs)
    (hvs : Visits f never h vs ws fault k) : (map f s).run h = (after fault (pure ws)).run k := by
  unfold map
  refine (run_bind_after (each_visits (fun made _ w => w :: made) [] (fun _ _ => rfl) hs hvs) _).trans ?_
  rw [gathered_cons [] hvs.length_le]
  simp

/-! ## Pure functions -/

/-- Does a function have these values on the items, whatever is added to the heap, and only add to it itself? -/
def IsPure (f : Value → Run α) (val : Value → α) (h : Heap) (vs : List Value) : Prop :=
  ∀ k, h.Extends k → ∀ v ∈ vs, ∃ m, (f v).run k = (.ok (val v), m) ∧ k.Extends m

variable {val : Value → α}

theorem IsPure.mono (hf : IsPure f val h vs) (hk : h.Extends k) (hrest : rest ⊆ vs) : IsPure f val k rest :=
  fun m hm v hv => hf m (hk.trans hm) v (hrest hv)

/-- The answers up to the first that stops the calls. -/
def upTo (stops : α → Bool) : List α → List α
  | [] => []
  | a :: as => if stops a then [a] else a :: upTo stops as

theorem upTo_never (as : List α) : upTo never as = as := by
  induction as with
  | nil => rfl
  | cons a as ih => rw [upTo, never, if_neg Bool.false_ne_true, ih]

theorem IsPure.visits (hf : IsPure f val h vs) (stops : α → Bool) :
    ∃ k, Visits f stops h vs (upTo stops (vs.map val)) none k ∧ h.Extends k := by
  induction vs generalizing h with
  | nil => exact ⟨h, .nil h, .refl h⟩
  | cons v vs ih =>
    obtain ⟨k, hv, hk⟩ := hf h (.refl h) v List.mem_cons_self
    by_cases ha : stops (val v) = true
    · refine ⟨k, ?_, hk⟩
      rw [List.map_cons, upTo, if_pos ha]
      exact .stop vs hv ha
    · obtain ⟨m, hvs, hm⟩ := ih (hf.mono hk (List.subset_cons_self v vs))
      refine ⟨m, ?_, hk.trans hm⟩
      rw [List.map_cons, upTo, if_neg ha]
      exact .next hv (by simpa using ha) hvs

theorem Visits.extends_of_isPure (hvs : Visits f stops h vs as fault k) (hf : IsPure f val h vs) : h.Extends k := by
  obtain ⟨m, hpure, hm⟩ := hf.visits stops
  obtain ⟨-, -, rfl⟩ := hvs.unique hpure
  exact hm

theorem IsPure.held (hf : IsPure f val h vs) (hv : Offers v h s vs) (stops : α → Bool) : Held f stops s h 0 vs := by
  intro n as k hvisits _
  have hk := hvisits.extends_of_isPure (hf.mono (.refl h) (List.take_subset n vs))
  rw [hv.items_extends hk, Nat.zero_add]

/-! ## Integers -/

theorem order_int {n : Value} {m : Int} (hn : n.number? = some (.int m) ∨ ∃ t, n.number? = some (.fixed t m))
    (b : Int) (h : Heap) : h.order n (.int b) = .ok (some (compare m b)) := by
  have hb : (Value.int b).number? = some (.int b) := rfl
  unfold Heap.order Heap.orderAt
  obtain hn | ⟨t, hn⟩ := hn <;> rw [hn, hb] <;> rfl

/-! ## Functions of one parameter -/

variable {host : Host} {a : Nat} {p : Parameter} {body : Node} {frame : Frame}

/-- The heap with a scope for a parameter. -/
def bound (h : Heap) (p : Parameter) (v : Value) : Heap :=
  (h.add (.scope [(p.number, v)])).2

theorem run_apply_function (ha : h.get? a = some (.function [p] body frame)) (v : Value) :
    (host.apply (.ref a) [v]).run h =
      (Node.eval host (host.applyAt 999) (h.cells.size :: frame) body).run (bound h p v) := by
  rw [Host.apply, Host.callDepth, Host.run_applyAt ha, if_pos (by simp)]
  exact run_bind_ok (Frame.run_opened h frame [p] [v]) _

theorem run_readParameter_bound (h : Heap) (p : Parameter) (v : Value) (frame : Frame) :
    (readParameter (h.cells.size :: frame) p).run (bound h p v) = (.ok v, bound h p v) := by
  have hbindings : Frame.bindings (bound h p v) h.cells.size = [(p.number, v)] := by
    rw [bound, Frame.bindings_add, if_pos rfl]
  have hlookup : Frame.lookup? (bound h p v) (h.cells.size :: frame) p.number = some v := by
    simp [Frame.lookup?, Frame.scopeOf?, hbindings]
  unfold readParameter
  rw [run_bind_ok (run_get _), hlookup, run_pure]

/-- A function whose body computes something and changes nothing is pure. -/
theorem isPure_apply {val : Value → Value} (ha : h.get? a = some (.function [p] body frame))
    (hbody : ∀ k, ∀ v ∈ vs, (Node.eval host (host.applyAt 999) (k.cells.size :: frame) body).run (bound k p v) =
      (.ok (val v), bound k p v)) :
    IsPure (fun v => host.apply (.ref a) [v]) val h vs := by
  intro k hk v hv
  refine ⟨bound k p v, ?_, k.extends_add _⟩
  rw [run_apply_function (hk a _ ha), hbody k v hv]

end Query

end ExprTree
