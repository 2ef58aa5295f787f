import ExprTree.Proofs.Eval.Heaps
import ExprTree.Proofs.Scalar.Operators

/-!
# Running operators on scalars

The scopes of a frame hold instances of the types of the parameters. Reading a
parameter relies on it; assigning an instance and opening a scope of instances
keep it. Operators on scalars do not touch the heap.
-/

namespace ExprTree

open Run
open Action (From)

variable {l : Library} {ps : List Parameter} {frame : Frame} {h : Heap} {p : Parameter}
  {v w : Value}

/-! ## Frames -/

/-- Do the scopes of a frame hold instances of the types of these parameters, as far as they are scalar types? -/
def Frame.Fits (l : Library) (ps : List Parameter) (h : Heap) (frame : Frame) : Prop :=
  ∀ a ∈ frame, ∀ b ∈ bindings h a, ∀ p ∈ ps, p.number = b.1 → p.type.IsScalar → l.Has p.type b.2

namespace Frame.Fits

theorem read (hf : frame.Fits l ps h) (hp : p ∈ ps) (ht : p.type.IsScalar) :
    From h (readParameter frame p) (fun v k => Frame.Fits l ps k frame ∧ l.Has p.type v) (·.isArithmetic = true) := by
  refine .get ?_
  cases hv : frame.lookup? h p.number with
  | none => exact .throw rfl
  | some v =>
    obtain ⟨a, ha, hfound⟩ := Option.bind_eq_some_iff.mp hv
    exact .pure ⟨hf, hf a (List.mem_of_find?_eq_some ha) _ (mem_of_lookup hfound) p hp rfl ht⟩

theorem write (hunique : ∀ p ∈ ps, ∀ q ∈ ps, p.number = q.number → p = q) (hf : frame.Fits l ps h) (hp : p ∈ ps)
    (hv : l.Has p.type v) :
    From h (writeParameter frame p v) (fun _ k => Frame.Fits l ps k frame) (·.isArithmetic = true) := by
  refine .get ?_
  cases frame.scopeOf? h p.number with
  | none => exact .throw rfl
  | some a =>
    rintro _ _ ⟨⟩
    refine .ok fun c hc b hb q hq hnumber ht => ?_
    rw [bindings_rebind] at hb
    split at hb
    · next heq =>
      subst heq
      obtain ⟨e, he, rfl⟩ := List.mem_map.mp hb
      split at hnumber
      · next hsame =>
        obtain rfl := hunique q hq p hp hnumber
        rwa [if_pos hsame]
      · next hother =>
        rw [if_neg hother]
        exact hf c hc e he q hq hnumber ht
    · exact hf c hc b hb q hq hnumber ht

/-- A scope of instances is opened in front of a frame. -/
theorem opened {qs : List Parameter} {vs : List Value} (hunique : ∀ p ∈ ps, ∀ q ∈ ps, p.number = q.number → p = q)
    (hf : frame.Fits l ps h) (hqs : ∀ q ∈ qs, q ∈ ps)
    (hvs : List.Forall₂ (fun p v => p.type.IsScalar → l.Has p.type v) qs vs) :
    From h (Run.opened frame qs vs)
      (fun inner k => Frame.Fits l ps k inner ∧ ∀ m, Frame.Fits l ps m inner → Frame.Fits l ps m frame)
      (·.isArithmetic = true) := by
  intro r k hrun
  rw [run_opened] at hrun
  obtain ⟨rfl, rfl⟩ := Prod.mk.inj hrun
  refine .ok ⟨fun c hc b hb q hq hnumber ht => ?_, fun m hm c hc => hm c (List.mem_cons_of_mem _ hc)⟩
  rw [bindings_add] at hb
  split at hb
  · obtain ⟨⟨r, v⟩, hr, rfl⟩ := List.mem_map.mp hb
    obtain rfl := hunique q hq r (hqs r (List.of_mem_zip hr).1) hnumber
    exact (List.forall₂_iff_zip.mp hvs).2 hr ht
  · next hne =>
    obtain rfl | hc := List.mem_cons.mp hc
    · exact absurd rfl hne
    · exact hf c hc b hb q hq hnumber ht

end Frame.Fits

/-! ## Operators -/

namespace Run

theorem ofResult_from {α : Type} {P : α → Prop} {Q : Fault → Prop} {r : Except Fault α} (hr : Gives P Q r) :
    From h (ofResult r) (fun a k => h = k ∧ P a) Q := by
  cases hr with
  | ok h => exact .pure ⟨rfl, h⟩
  | error h => exact .throw h

@[simp] theorem run_ofResult {α : Type} (r : Except Fault α) (h : Heap) : (ofResult r).run h = (r, h) := by
  cases r <;> rfl

/-- Between scalars there are no lists to be joined or repeated. -/
theorem operate_eq {o : Operation} {t : Ty} (hv : v.IsScalar) (hw : w.IsScalar) :
    (operate o t v w).run h = (ofResult (Arithmetic.operate o t v w)).run h := by
  unfold operate
  rw [Action.run_bind_ok (Action.run_get h)]
  dsimp only
  rw [h.list?_scalar hv, h.list?_scalar hw]
  split <;> first | rfl | simp_all

theorem isTrue_from {Q : Fault → Prop} (v : Value) : From h (isTrue v) (fun b k => h = k ∧ b = h.isTrue v) Q :=
  .pure ⟨rfl, rfl⟩

theorem equal_from (hv : v.IsScalar) (w : Value) : From h (equal v w) (fun _ k => h = k) (·.isArithmetic = true) :=
  .get ((ofResult_from (h.equal_computes hv)).imp (fun _ _ h => h.1) fun _ h => h)

theorem ordered_from {s : Scalar} (k : OrderingKind) (hs : s.ty.isNumeric = true ∨ s = .str ∨ s = .char)
    (hv : s.Holds v) (hw : s.Holds w) : From h (ordered k v w) (fun _ k => h = k) (·.isArithmetic = true) := by
  refine .get (.bind (ofResult_from (h.order_computes hs hv hw)) ?_)
  rintro o _ - ⟨rfl, -⟩
  exact .pure rfl

end Run

namespace Node

variable {left right n : Node} {o : Operation} {t : Ty}

/-- An operation on scalars runs its operands, one after the other, and then works on their values in the type of the
left one. -/
theorem eval_operation {host : Host} {apply : Apply} {h₁ h₂ : Heap} (hl : (left.eval host apply frame).run h = (.ok v, h₁))
    (hr : (right.eval host apply frame).run h₁ = (.ok w, h₂)) (hv : v.IsScalar) (hw : w.IsScalar) :
    ((Node.binary (.binary (.operation o)) left right t).eval host apply frame).run h =
      (Arithmetic.operate o left.type v w, h₂) := by
  rw [eval]
  rw [Action.run_bind_ok hl, Action.run_bind_ok hr, operate_eq hv hw, run_ofResult]

/-- Where it is defined for the types of the operands, it is built and runs. -/
theorem run_operation {host : Host} {apply : Apply} {h₁ h₂ : Heap} (ho : o.IsFor left.type right.type)
    (hl : (left.eval host apply frame).run h = (.ok v, h₁)) (hr : (right.eval host apply frame).run h₁ = (.ok w, h₂))
    (hv : v.IsScalar) (hw : w.IsScalar) :
    ∃ n, mkBinary l (.binary (.operation o)) left right = .ok n ∧
      (n.eval host apply frame).run h = (Arithmetic.operate o left.type v w, h₂) :=
  ⟨_, mkBinary_operation.mpr ⟨ho, rfl⟩, eval_operation hl hr hv hw⟩

end Node

/-- An operator on one operand that is no conversion yields an instance of its type. -/
theorem Node.unaryValue_from (hl : l.HasScalars) {u : UnaryKind} {t target : Ty} (hu : ∀ checked, u ≠ .convert checked)
    (ht : t.IsScalar) (hfor : u.IsFor t) (hv : l.Has t v) :
    From h (unaryValue l u t target v) (fun w k => h = k ∧ l.Has (u.resultType t) w) (·.isArithmetic = true) := by
  obtain ⟨s, hs⟩ := ht
  cases u with
  | convert checked => exact (hu checked rfl).elim
  | negate checked =>
    refine ofResult_from (Arithmetic.has_of_isNumeric hl (fun t v => Arithmetic.negate t checked v) hs hfor ?_ hv)
    exact fun hs hv => Arithmetic.negate_computes hs checked hv
  | unaryPlus => exact .pure ⟨rfl, hv⟩
  | not =>
    unfold unaryValue
    by_cases hbool : t.isBool = true
    · rw [if_pos hbool]
      obtain rfl := Ty.eq_cls_of_isClass hbool
      exact .pure ⟨rfl, hl.has_bool _⟩
    · rw [if_neg hbool]
      exact ofResult_from (Arithmetic.onesComplement_has hl hs (hfor.resolve_left hbool) hv)
  | onesComplement => exact ofResult_from (Arithmetic.onesComplement_has hl hs hfor hv)
  | isTrue =>
    obtain ⟨b, rfl⟩ := hl.exists_bool hfor hv
    exact .pure ⟨rfl, hl.has_bool b⟩
  | isFalse =>
    obtain ⟨b, rfl⟩ := hl.exists_bool hfor hv
    exact .pure ⟨rfl, hl.has_bool !b⟩
  | increment =>
    exact ofResult_from (Arithmetic.has_of_isNumeric hl Arithmetic.increment hs hfor Arithmetic.increment_computes hv)
  | decrement =>
    exact ofResult_from (Arithmetic.has_of_isNumeric hl Arithmetic.decrement hs hfor Arithmetic.decrement_computes hv)
  | step k =>
    refine ofResult_from ?_
    split
    · exact Arithmetic.has_of_isNumeric hl Arithmetic.increment hs hfor Arithmetic.increment_computes hv
    · exact Arithmetic.has_of_isNumeric hl Arithmetic.decrement hs hfor Arithmetic.decrement_computes hv

end ExprTree
