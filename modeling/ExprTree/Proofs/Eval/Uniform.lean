import ExprTree.Proofs.Eval.Faults
import ExprTree.Proofs.Eval.Runs

/-!
# Computations that are uniform

A likeness says which heaps, and which faults, count as alike: heaps that differ
in nothing but their scopes and functions, and stay alike when the same is put
into both. A computation is uniform if from heaps that are alike, in whatever
sense, it ends alike. What neither looks into scopes and functions nor changes
them is uniform, so whoever compares two ways to run expressions need not come
back to it.
-/

namespace ExprTree

open Run (Persists Unbound)

variable {α β : Type} {h h' : Heap}

/-- A sense in which heaps are alike, and faults. -/
structure Likeness where
  heaps : Heap → Heap → Prop
  faults : Fault → Fault → Prop
  looks : ∀ {h h'}, heaps h h' → h.LooksLike h'
  add : ∀ {h h' c}, heaps h h' → c.IsPlain → heaps (h.add c).2 (h'.add c).2
  set : ∀ {h h' a c}, heaps h h' → Unbound a h h' → c.IsPlain → heaps (h.set a c) (h'.set a c)
  /-- Only a parameter that is not bound tells runs apart. -/
  plain : ∀ {f}, f.isUnbound = false → faults f f

namespace Likeness

variable (L : Likeness)

/-- Are the second heaps alike, and do they keep what the first ones bind? -/
structure Grows (h h' k k' : Heap) : Prop where
  heaps : L.heaps k k'
  left : h.Keeps k
  right : h'.Keeps k'

theorem Grows.refl {L : Likeness} (hh : L.heaps h h') : L.Grows h h' h h' :=
  ⟨hh, .refl h, .refl h'⟩

theorem Grows.trans {L : Likeness} {k k' m m' : Heap} (hk : L.Grows h h' k k') (hm : L.Grows k k' m m') :
    L.Grows h h' m m' :=
  ⟨hm.heaps, hk.left.trans hm.left, hk.right.trans hm.right⟩

/-- Do two runs from these heaps end with the same value, or with faults that are alike? -/
inductive Ends (h h' : Heap) : Except Fault α × Heap → Except Fault α × Heap → Prop where
  | ok {a : α} {k k' : Heap} (hk : L.Grows h h' k k') : Ends h h' (.ok a, k) (.ok a, k')
  | error {e e' : Fault} {k k' : Heap} (hk : L.Grows h h' k k') (he : L.faults e e') :
      Ends h h' (.error e, k) (.error e', k')

/-- Do two computations end alike from all heaps that are alike and of which this holds? -/
def RelatedWhile (P : Heap → Heap → Prop) (x y : Run α) : Prop :=
  ∀ h h', L.heaps h h' → P h h' → L.Ends h h' (x.run h) (y.run h')

abbrev Related (x y : Run α) : Prop :=
  L.RelatedWhile (fun _ _ => True) x y

/-- Is a computation related to itself? -/
abbrev Uniform (x : Run α) : Prop :=
  L.Related x x

variable {L}

namespace Ends

theorem get {f g : Heap → Run β} (hf : L.Ends h h' ((f h).run h) ((g h').run h')) :
    L.Ends h h' ((MonadState.get >>= f).run h) ((MonadState.get >>= g).run h') :=
  hf

theorem throw (hh : L.heaps h h') {e e' : Fault} (he : L.faults e e') :
    L.Ends h h' ((MonadExcept.throw e : Run α).run h) ((MonadExcept.throw e' : Run α).run h') :=
  .error (.refl hh) he

theorem after {k k' : Heap} {r r' : Except Fault α × Heap} (hk : L.Grows h h' k k') (hr : L.Ends k k' r r') :
    L.Ends h h' r r' := by
  cases hr with
  | ok hm => exact .ok (hk.trans hm)
  | error hm he => exact .error (hk.trans hm) he

theorem bind {x y : Run α} {f g : α → Run β} (hx : L.Ends h h' (x.run h) (y.run h'))
    (hf : ∀ a k k', L.Grows h h' k k' → L.Ends k k' ((f a).run k) ((g a).run k')) :
    L.Ends h h' ((x >>= f).run h) ((y >>= g).run h') := by
  generalize hr : x.run h = r, hr' : y.run h' = r' at hx
  cases hx with
  | error hk he =>
    rw [Action.run_bind_error hr, Action.run_bind_error hr']
    exact .error hk he
  | @ok a k k' hk =>
    rw [Action.run_bind_ok hr, Action.run_bind_ok hr']
    exact .after hk (hf a k k' hk)

end Ends

namespace RelatedWhile

variable {P : Heap → Heap → Prop} {x y : Run α} {f g : α → Run β}

theorem within (hx : L.Related x y) : L.RelatedWhile P x y :=
  fun h h' hh _ => hx h h' hh trivial

theorem pure (a : α) : L.RelatedWhile P (Pure.pure a) (Pure.pure a) :=
  fun _ _ hh _ => .ok (.refl hh)

theorem throw {e : Fault} (he : e.isUnbound = false) :
    L.RelatedWhile P (MonadExcept.throw e : Run α) (MonadExcept.throw e) :=
  fun _ _ hh _ => .throw hh (L.plain he)

theorem host (k : FaultKind) : L.RelatedWhile P (Run.host k : Run α) (Run.host k) :=
  .throw rfl

theorem ofResult {r : Except Fault α} (hr : Plain r) : L.RelatedWhile P (Run.ofResult r) (Run.ofResult r) := by
  cases r with
  | ok a => exact .pure a
  | error e => exact .throw (hr e rfl)

theorem ite {p : Prop} [Decidable p] {x y x' y' : Run α} (ht : L.RelatedWhile P x y)
    (hf : L.RelatedWhile P x' y') : L.RelatedWhile P (if p then x else x') (if p then y else y') := by
  split
  · exact ht
  · exact hf

/-- What is read of the heap has to be the same in heaps that look the same. -/
theorem get {f g : Heap → Run β} (hf : ∀ h h', h.LooksLike h' → L.RelatedWhile P (f h) (g h')) :
    L.RelatedWhile P (MonadState.get >>= f) (MonadState.get >>= g) :=
  fun h h' hh hP => .get (hf h h' (L.looks hh) h h' hh hP)

theorem alloc {c : Cell} (hc : c.IsPlain) : L.RelatedWhile P (Run.alloc c) (Run.alloc c) := by
  intro h h' hh _
  have haddress : (h.add c).1 = (h'.add c).1 := (L.looks hh).size
  rw [show (Run.alloc c).run h = (.ok (.ref (h.add c).1), (h.add c).2) from rfl,
    show (Run.alloc c).run h' = (.ok (.ref (h'.add c).1), (h'.add c).2) from rfl, haddress]
  exact .ok ⟨L.add hh hc, Heap.keeps_add c, Heap.keeps_add c⟩

theorem newList (items : List Value) : L.RelatedWhile P (Run.newList items) (Run.newList items) :=
  .alloc trivial

theorem newDict (entries : List (Value × Value)) : L.RelatedWhile P (Run.newDict entries) (Run.newDict entries) :=
  .alloc trivial

theorem setCell (a : Nat) (c : Cell) (hc : c.IsPlain) :
    L.RelatedWhile (Unbound a) (modify (·.set a c)) (modify (·.set a c)) :=
  fun _ _ hh ha => .ok ⟨L.set hh ha hc, Heap.keeps_set (hc.keys.trans ha.keys.symm),
    Heap.keeps_set (hc.keys.trans ha.keys'.symm)⟩

variable [Persists P]

theorem bind (hx : L.RelatedWhile P x y) (hf : ∀ a, L.RelatedWhile P (f a) (g a)) :
    L.RelatedWhile P (x >>= f) (y >>= g) :=
  fun h h' hh hP => (hx h h' hh hP).bind fun a k k' hk => hf a k k' hk.heaps (Persists.keeps hP hk.left hk.right)

theorem mapM {γ : Type} {f g : γ → Run β} (cs : List γ) (hf : ∀ c, L.RelatedWhile P (f c) (g c)) :
    L.RelatedWhile P (cs.mapM f) (cs.mapM g) := by
  induction cs with
  | nil => exact .pure []
  | cons c cs ih =>
    rw [List.mapM_cons, List.mapM_cons]
    exact (hf c).bind fun _ => ih.bind fun _ => .pure _

theorem foldlM {γ : Type} {f g : β → γ → Run β} (cs : List γ) (b : β)
    (hf : ∀ b c, L.RelatedWhile P (f b c) (g b c)) : L.RelatedWhile P (cs.foldlM f b) (cs.foldlM g b) := by
  induction cs generalizing b with
  | nil => exact .pure b
  | cons c cs ih =>
    rw [List.foldlM_cons, List.foldlM_cons]
    exact (hf b c).bind ih

theorem forIn {γ : Type} {f g : γ → β → Run (ForInStep β)} (cs : List γ) (b : β)
    (hf : ∀ c b, L.RelatedWhile P (f c b) (g c b)) : L.RelatedWhile P (forIn cs b f) (forIn cs b g) := by
  induction cs generalizing b with
  | nil => exact .pure b
  | cons c cs ih =>
    rw [List.forIn_cons, List.forIn_cons]
    refine (hf c b).bind fun step => ?_
    cases step with
    | done b => exact .pure b
    | yield b => exact ih b

end RelatedWhile

end Likeness

/-! ## Operators -/

namespace Run

variable {L : Likeness}

theorem copies_uniform (count : Option Nat) (items : List Value) :
    L.Uniform (match count with
      | some n => newList (Arithmetic.copies n items)
      | none => host .type) := by
  cases count with
  | none => exact .host _
  | some n => exact .newList _

theorem operate_uniform (o : Operation) (t : Ty) (v w : Value) : L.Uniform (operate o t v w) := by
  unfold operate
  refine .get fun h h' hh => ?_
  rw [hh.list?]
  dsimp only
  split
  · exact .ite (.newList _) (.host _)
  · exact .ite (.newList _) (.host _)
  · exact copies_uniform _ _
  · exact copies_uniform _ _
  · exact copies_uniform _ _
  · exact copies_uniform _ _
  · exact .ofResult (Arithmetic.operate_plain _ _ _ _)

theorem isTrue_uniform (v : Value) : L.Uniform (isTrue v) := by
  unfold isTrue
  refine .get fun h h' hh => ?_
  rw [hh.isTrue]
  exact .pure _

theorem equal_uniform (v w : Value) : L.Uniform (equal v w) := by
  unfold equal
  refine .get fun h h' hh => ?_
  rw [hh.equal]
  exact .ofResult (h'.equal_plain v w)

theorem ordered_uniform (k : OrderingKind) (v w : Value) : L.Uniform (ordered k v w) := by
  unfold ordered
  refine .get fun h h' hh => ?_
  rw [hh.order]
  exact .bind (.ofResult (h'.order_plain v w)) fun _ => .pure _

end Run

theorem Node.unaryValue_uniform {L : Likeness} (l : Library) (k : UnaryKind) (t target : Ty) (v : Value) :
    L.Uniform (unaryValue l k t target v) := by
  unfold unaryValue
  cases k with
  | convert checked =>
    refine .get fun h h' hh => ?_
    rw [hh.convert]
    exact .ofResult (Arithmetic.convert_plain l h' target checked v)
  | negate checked => exact .ofResult (Arithmetic.negate_plain t checked v)
  | unaryPlus => exact .pure v
  | not => exact .ite ((Run.isTrue_uniform v).bind fun _ => .pure _) (.ofResult (Arithmetic.onesComplement_plain t v))
  | onesComplement => exact .ofResult (Arithmetic.onesComplement_plain t v)
  | isTrue => dsimp only; split <;> exact .pure _
  | isFalse => dsimp only; split <;> exact .pure _
  | increment => exact .ofResult (Arithmetic.increment_plain t v)
  | decrement => exact .ofResult (Arithmetic.decrement_plain t v)
  | step k => exact .ofResult (.ite (Arithmetic.increment_plain t v) (Arithmetic.decrement_plain t v))

/-! ## Hosts -/

/-- Are the results of two ways to call functions alike? -/
def Likeness.Applies (L : Likeness) (apply apply' : Apply) : Prop :=
  ∀ f vs, L.Related (apply f vs) (apply' f vs)

/-- Does a host only call functions, and neither look into functions and scopes nor change them? -/
structure Host.IsUniform (host : Host) : Prop where
  invoke : ∀ {L : Likeness} {apply apply' : Apply}, L.Applies apply apply' →
    ∀ m vs, L.Related (host.invoke apply m vs) (host.invoke apply' m vs)
  readField : ∀ {L : Likeness} v name, L.Uniform (host.readField v name)
  writeField : ∀ {L : Likeness} v name w, L.Uniform (host.writeField v name w)
  readProperty : ∀ {L : Likeness} c name v, L.Uniform (host.readProperty c name v)
  writeProperty : ∀ {L : Likeness} c name v w, L.Uniform (host.writeProperty c name v w)

namespace Host.IsUniform

variable {host : Host} (hhost : host.IsUniform) {L : Likeness}

include hhost

theorem read (m : DataMember) (v : Value) : L.Uniform (host.read m v) := by
  unfold Host.read
  split
  · exact hhost.readField _ _
  · exact .ite (hhost.readProperty _ _ _) (.throw rfl)

theorem write (m : DataMember) (v w : Value) : L.Uniform (host.write m v w) := by
  unfold Host.write
  split
  · exact hhost.writeField _ _ _
  · exact .ite (hhost.writeProperty _ _ _ _) (.throw rfl)

theorem call {apply apply' : Apply} (happly : L.Applies apply apply') (m : Method) (v : Value) (vs : List Value) :
    L.Related (host.call apply m v vs) (host.call apply' m v vs) :=
  .ite (.throw rfl) (.ite (hhost.invoke happly _ _) (hhost.invoke happly _ _))

end Host.IsUniform

end ExprTree
