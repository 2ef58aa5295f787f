import ExprTree.Proofs.Action
import ExprTree.Proofs.Eval.Blind

/-!
# Runs that agree

Two computations agree if from heaps that are alike they end with the same
value, or with faults of the same kind, in heaps that are alike again. What is
put together from such computations agrees.
-/

namespace ExprTree

/-- Do two results hold the same value, or faults of the same kind? -/
inductive SameOutcome {α : Type} : Except Fault α → Except Fault α → Prop where
  | ok (a : α) : SameOutcome (.ok a) (.ok a)
  | error {e e' : Fault} (he : e.kind = e'.kind) : SameOutcome (.error e) (.error e')

theorem SameOutcome.refl {α : Type} (r : Except Fault α) : SameOutcome r r := by
  cases r with
  | ok a => exact .ok a
  | error e => exact .error rfl

theorem SameOutcome.ofEq {α : Type} {r r' : Except Fault α} (h : r = r') : SameOutcome r r' :=
  h ▸ .refl r

theorem SameOutcome.bind {α β : Type} {r r' : Except Fault α} {f g : α → Except Fault β} (hr : SameOutcome r r')
    (hf : ∀ a, SameOutcome (f a) (g a)) : SameOutcome (r >>= f) (r' >>= g) := by
  cases hr with
  | ok a => exact hf a
  | error he => exact .error he

theorem SameOutcome.ite {α : Type} {p : Prop} [Decidable p] {r r' s s' : Except Fault α} (ht : SameOutcome r s)
    (hf : SameOutcome r' s') : SameOutcome (if p then r else r') (if p then s else s') := by
  split
  · exact ht
  · exact hf

namespace Run

open Heap (Grows)

variable {α β : Type} {h h' : Heap}

/-- Do two runs from these heaps end with the same, in heaps that are alike and of which this holds? -/
inductive EndsAlike (h h' : Heap) (Post : α → Heap → Heap → Prop) :
    Except Fault α × Heap → Except Fault α × Heap → Prop where
  | ok {a : α} {k k' : Heap} (hk : Grows h h' k k') (ha : Post a k k') : EndsAlike h h' Post (.ok a, k) (.ok a, k')
  | error {e e' : Fault} {k k' : Heap} (hk : Grows h h' k k') (he : e.kind = e'.kind) :
      EndsAlike h h' Post (.error e, k) (.error e', k')

/-- Do two computations end alike from these heaps? -/
def AgreeAt (h h' : Heap) (x y : Run α) (Post : α → Heap → Heap → Prop) : Prop :=
  EndsAlike h h' Post (x.run h) (y.run h')

/-- Do two computations end alike from all heaps that are alike and of which this holds? -/
def AgreeWhile (P : Heap → Heap → Prop) (x y : Run α) : Prop :=
  ∀ h h', h.Alike h' → P h h' → AgreeAt h h' x y fun _ _ _ => True

/-- Do two computations end alike from all heaps that are alike? -/
abbrev Agree (x y : Run α) : Prop :=
  AgreeWhile (fun _ _ => True) x y

/-- Does a computation agree with itself? -/
abbrev Blind (x : Run α) : Prop :=
  Agree x x

namespace AgreeAt

variable {x y : Run α} {f g : α → Run β} {Post Post' : α → Heap → Heap → Prop} {Post₂ : β → Heap → Heap → Prop}

theorem pure (hh : h.Alike h') {a : α} (ha : Post a h h') : AgreeAt h h' (Pure.pure a) (Pure.pure a) Post :=
  .ok (.refl hh) ha

theorem throw (hh : h.Alike h') {e e' : Fault} (he : e.kind = e'.kind) :
    AgreeAt h h' (MonadExcept.throw e : Run α) (MonadExcept.throw e') Post :=
  .error (.refl hh) he

theorem bind (hx : AgreeAt h h' x y Post)
    (hf : ∀ a k k', Grows h h' k k' → Post a k k' → AgreeAt k k' (f a) (g a) Post₂) :
    AgreeAt h h' (x >>= f) (y >>= g) Post₂ := by
  unfold AgreeAt at *
  generalize hr : x.run h = r, hr' : y.run h' = r' at hx
  cases hx with
  | error hk he =>
    rw [Action.run_bind_error hr, Action.run_bind_error hr']
    exact .error hk he
  | @ok a k k' hk ha =>
    rw [Action.run_bind_ok hr, Action.run_bind_ok hr']
    have hend := hf a k k' hk ha
    generalize (f a).run k = s, (g a).run k' = s' at hend
    cases hend with
    | ok hm hb => exact .ok (hk.trans hm) hb
    | error hm he => exact .error (hk.trans hm) he

theorem get {f g : Heap → Run β} (hf : AgreeAt h h' (f h) (g h') Post₂) :
    AgreeAt h h' (MonadState.get >>= f) (MonadState.get >>= g) Post₂ :=
  hf

theorem ofResult (hh : h.Alike h') {r r' : Except Fault α} (hr : SameOutcome r r') (ha : ∀ a, Post a h h') :
    AgreeAt h h' (Run.ofResult r) (Run.ofResult r') Post := by
  cases hr with
  | ok a => exact .pure hh (ha a)
  | error he => exact .throw hh he

/-- A cell that is the same up to correspondences is put at the same address. -/
theorem alloc (hh : h.Alike h') {c c' : Cell} (hc : Cell.Alike h h' c c') :
    AgreeAt h h' (Run.alloc c) (Run.alloc c') fun _ _ _ => True := by
  obtain ⟨haddress, hgrows⟩ := hh.add hc
  unfold AgreeAt
  rw [show (Run.alloc c).run h = (.ok (.ref (h.add c).1), (h.add c).2) from rfl,
    show (Run.alloc c').run h' = (.ok (.ref (h'.add c').1), (h'.add c').2) from rfl, haddress]
  exact .ok hgrows trivial

end AgreeAt

/-! ## Agreement from all heaps that are alike -/

/-- Does a property of two heaps stay when both keep what they bind? -/
class Persists (P : Heap → Heap → Prop) : Prop where
  keeps : ∀ {h h' k k' : Heap}, P h h' → h.Keeps k → h'.Keeps k' → P k k'

instance : Persists fun _ _ => True :=
  ⟨fun h _ _ => h⟩

/-- Does a property of two heaps stay when they grow? -/
class Lasts (P : Heap → Heap → Prop) : Prop where
  grows : ∀ {h h' k k' : Heap}, P h h' → Grows h h' k k' → P k k'

instance {P : Heap → Heap → Prop} [Persists P] : Lasts P :=
  ⟨fun h hk => Persists.keeps h hk.left hk.right⟩

namespace AgreeWhile

variable {P : Heap → Heap → Prop} {x y : Run α} {f g : α → Run β}

theorem within (hx : Agree x y) : AgreeWhile P x y :=
  fun h h' hh _ => hx h h' hh trivial

theorem pure (a : α) : AgreeWhile P (Pure.pure a) (Pure.pure a) :=
  fun _ _ hh _ => .pure hh trivial

theorem throw (e : Fault) : AgreeWhile P (MonadExcept.throw e : Run α) (MonadExcept.throw e) :=
  fun _ _ hh _ => .throw hh rfl

theorem host (k : FaultKind) : AgreeWhile P (Run.host k : Run α) (Run.host k) :=
  .throw _

theorem ofResult {r r' : Except Fault α} (hr : SameOutcome r r') : AgreeWhile P (Run.ofResult r) (Run.ofResult r') :=
  fun _ _ hh _ => .ofResult hh hr fun _ => trivial

theorem ite {p : Prop} [Decidable p] {x y x' y' : Run α} (ht : AgreeWhile P x y) (hf : AgreeWhile P x' y') :
    AgreeWhile P (if p then x else x') (if p then y else y') := by
  split
  · exact ht
  · exact hf

/-- What is read of the heap has to be the same in heaps that are alike. -/
theorem get {f g : Heap → Run β} (hf : ∀ h h', h.Alike h' → AgreeWhile P (f h) (g h')) :
    AgreeWhile P (MonadState.get >>= f) (MonadState.get >>= g) :=
  fun h h' hh hP => .get (hf h h' hh h h' hh hP)

variable [Lasts P]

theorem bind (hx : AgreeWhile P x y) (hf : ∀ a, AgreeWhile P (f a) (g a)) : AgreeWhile P (x >>= f) (y >>= g) :=
  fun h h' hh hP => (hx h h' hh hP).bind fun a k k' hk _ => hf a k k' hk.alike (Lasts.grows hP hk)

end AgreeWhile

/-! ## Cells that bind nothing -/

/-- Is there a cell at the address in both heaps, and does it bind nothing? -/
structure Unbound (a : Nat) (h h' : Heap) : Prop where
  left : a < h.cells.size
  right : a < h'.cells.size
  keys : h.keys a = []
  keys' : h'.keys a = []

instance {a : Nat} : Persists (Unbound a) :=
  ⟨fun ha hk hk' => ⟨ha.left.trans_le hk.size, ha.right.trans_le hk'.size, (hk.keys a ha.left).trans ha.keys,
    (hk'.keys a ha.right).trans ha.keys'⟩⟩

theorem unbound_of_get? (hh : h.LooksLike h') {a : Nat} {c : Cell} (ha : h'.get? a = some c) (hc : c.IsPlain) :
    Unbound a h h' := by
  have hleft := hh.get? ha hc
  exact ⟨Heap.isSome_get?.mp (by simp [hleft]), Heap.isSome_get?.mp (by simp [ha]),
    by simp [Heap.keys, hleft, hc.keys], by simp [Heap.keys, ha, hc.keys]⟩

theorem unbound_of_list? (hh : h.LooksLike h') {a : Nat} {vs : List Value} (ha : h'.list? (.ref a) = some vs) :
    Unbound a h h' := by
  unfold Heap.list? at ha
  dsimp only at ha
  split at ha
  · next hc => exact unbound_of_get? hh hc trivial
  · cases ha

end Run

end ExprTree
