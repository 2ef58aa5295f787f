import ExprTree.Proofs.Eval.Types
import ExprTree.Proofs.Eval.Uniform

/-!
# Running copies

Copies of an expression do the same in frames whose scopes bind corresponding
parameters, and copies of a function do the same when they are called, as long
as the host does not look into functions and scopes either.
-/

namespace ExprTree

open Heap (Grows)

variable {R : Nat → Nat → Prop} {h h' : Heap} {frame : Frame} {p q : Parameter}

/-! ## Frames -/

namespace Frame

/-- Do two scopes bind two numbers at the same places, and the same values everywhere? -/
abbrev BindsAlike (x y : Nat) (bs bs' : List (Nat × Value)) : Prop :=
  List.Forall₂ (fun b b' => (b.1 = x ↔ b'.1 = y) ∧ b.2 = b'.2) bs bs'

variable {x y : Nat} {bs bs' : List (Nat × Value)}

theorem BindsAlike.any (hb : BindsAlike x y bs bs') : (bs.any fun b => b.1 = x) = bs'.any fun b => b.1 = y := by
  induction hb with
  | nil => rfl
  | cons hb _ ih => simp only [List.any_cons, hb.1, ih]

theorem BindsAlike.lookup (hb : BindsAlike x y bs bs') : bs.lookup x = bs'.lookup y := by
  induction hb with
  | nil => rfl
  | @cons b b' bs bs' hb _ ih =>
    have hbeq : (x == b.1) = (y == b'.1) := by
      rw [Bool.eq_iff_iff, beq_iff_eq, beq_iff_eq, eq_comm, hb.1, eq_comm]
    rw [List.lookup_cons, List.lookup_cons, hbeq, ih, hb.2]

theorem BindsAlike.rebind (hb : BindsAlike x y bs bs') (v : Value) :
    List.Forall₂ (fun b b' : Nat × Value => b.2 = b'.2) (bs.map fun b => if b.1 = x then (x, v) else b)
      (bs'.map fun b => if b.1 = y then (y, v) else b) := by
  induction hb with
  | nil => exact .nil
  | @cons b b' bs bs' hb _ ih =>
    refine .cons ?_ ih
    simp only [hb.1]
    split
    · rfl
    · exact hb.2

theorem keys_rebind (v : Value) : (bs.map fun b => if b.1 = x then (x, v) else b).map (·.1) = bs.map (·.1) := by
  rw [List.map_map]
  refine List.map_congr_left fun b _ => ?_
  by_cases hb : b.1 = x
  · simp [hb]
  · simp [hb]

theorem keys_bindings (h : Heap) (a : Nat) : (bindings h a).map (·.1) = h.keys a := by
  unfold bindings Heap.keys
  rcases h.get? a with _ | c
  · rfl
  · cases c <;> rfl

theorem Links.bindsAlike (hh : h.Alike h') (hf : frame.Links R h h') (hxy : R x y) {a : Nat} (ha : a ∈ frame) :
    BindsAlike x y (bindings h a) (bindings h' a) := by
  have hkeys := (hf a ha).2.2 x y hxy
  rw [← keys_bindings, ← keys_bindings, List.forall₂_map_left_iff, List.forall₂_map_right_iff] at hkeys
  have hvalues : List.Forall₂ (fun b b' : Nat × Value => b.2 = b'.2) (bindings h a) (bindings h' a) := by
    unfold bindings
    obtain ⟨hc, hc'⟩ | ⟨c, c', hc, hc', hsame⟩ := hh.cell a
    · rw [hc, hc']
      exact .nil
    · rw [hc, hc']
      cases hsame with
      | scope hbs => exact hbs
      | _ => exact .nil
  generalize bindings h a = bs, bindings h' a = bs' at hkeys hvalues
  induction hkeys with
  | nil => exact .nil
  | cons hk _ ih =>
    cases hvalues with | cons hv hrest =>
    exact .cons ⟨hk, hv⟩ (ih hrest)

theorem Links.scopeOf? (hh : h.Alike h') (hf : frame.Links R h h') (hxy : R x y) :
    scopeOf? h frame x = scopeOf? h' frame y := by
  unfold Frame.scopeOf?
  induction frame with
  | nil => rfl
  | cons a frame ih =>
    rw [List.find?_cons, List.find?_cons, (hf.bindsAlike hh hxy List.mem_cons_self).any,
      ih fun b hb => hf b (List.mem_cons_of_mem _ hb)]

theorem Links.lookup? (hh : h.Alike h') (hf : frame.Links R h h') (hxy : R x y) :
    lookup? h frame x = lookup? h' frame y := by
  unfold Frame.lookup?
  rw [hf.scopeOf? hh hxy]
  cases hscope : Frame.scopeOf? h' frame y with
  | none => rfl
  | some a => exact (hf.bindsAlike hh hxy (List.mem_of_find?_eq_some hscope)).lookup

theorem Links.rebind (hh : h.Alike h') (hf : frame.Links R h h') (hxy : R x y) {a : Nat} (ha : a ∈ frame) (v : Value) :
    Grows h h' (rebind h a x v) (rebind h' a y v) := by
  refine hh.set (.scope ((hf.bindsAlike hh hxy ha).rebind v)) ?_ ?_
  · exact (keys_rebind v).trans (keys_bindings h a)
  · exact (keys_rebind v).trans (keys_bindings h' a)

end Frame

/-! ## Agreement in a frame -/

namespace Run

variable {α β : Type}

/-- Do two computations agree as long as the scopes of a frame bind corresponding parameters? -/
abbrev AgreeIn (R : Nat → Nat → Prop) (frame : Frame) (x y : Run α) : Prop :=
  AgreeWhile (Frame.Links R · · frame) x y

instance : Persists (Frame.Links R · · frame) :=
  ⟨fun hf hk hk' => hf.mono hk hk'⟩

namespace AgreeIn

theorem readParameter (hpq : R p.number q.number) :
    AgreeIn R frame (readParameter frame p) (readParameter frame q) := by
  intro h h' hh hframe
  unfold Run.readParameter
  refine .get ?_
  rw [hframe.lookup? hh hpq]
  split
  · exact .pure hh trivial
  · exact .throw hh rfl

theorem writeParameter (hpq : R p.number q.number) (v : Value) :
    AgreeIn R frame (writeParameter frame p v) (writeParameter frame q v) := by
  intro h h' hh hframe
  unfold Run.writeParameter
  refine .get ?_
  rw [hframe.scopeOf? hh hpq]
  split
  · next a hscope =>
    exact .ok (hframe.rebind hh hpq (List.mem_of_find?_eq_some hscope) v) trivial
  · exact .throw hh rfl

theorem forall₂_zip {ps qs : List Parameter} (hps : Parameter.Correspond R ps qs) (vs : List Value) :
    List.Forall₂ (fun b b' : Nat × Value => R b.1 b'.1 ∧ b.2 = b'.2) ((ps.zip vs).map fun (p, v) => (p.number, v))
      ((qs.zip vs).map fun (p, v) => (p.number, v)) := by
  induction hps generalizing vs with
  | nil => exact .nil
  | cons hpq _ ih =>
    cases vs with
    | nil => exact .nil
    | cons v vs => exact .cons ⟨hpq, rfl⟩ (ih vs)

theorem opened {f g : Frame → Run β} {ps qs : List Parameter} (hR : Relator.BiUnique R)
    (hps : Parameter.Correspond R ps qs)
    (vs : List Value) (hf : ∀ frame', AgreeIn R frame' (f frame') (g frame')) :
    AgreeIn R frame (opened frame ps vs >>= f) (opened frame qs vs >>= g) := by
  intro h h' hh hframe
  have hzip := forall₂_zip hps vs
  have hc : Cell.Alike h h' (.scope ((ps.zip vs).map fun (p, v) => (p.number, v)))
      (.scope ((qs.zip vs).map fun (p, v) => (p.number, v))) := .scope (hzip.imp fun _ _ hb => hb.2)
  obtain ⟨haddress, hgrows⟩ := hh.add hc
  have hopened : AgreeAt h h' (Run.opened frame ps vs) (Run.opened frame qs vs)
      fun frame' k k' => frame'.Links R k k' := by
    unfold AgreeAt
    rw [show (Run.opened frame ps vs).run h = (.ok ((h.add _).1 :: frame), (h.add _).2) from rfl,
      show (Run.opened frame qs vs).run h' = (.ok ((h'.add _).1 :: frame), (h'.add _).2) from rfl, ← haddress]
    refine .ok hgrows fun a ha => ?_
    obtain rfl | ha := List.mem_cons.mp ha
    · refine ⟨by simp [Heap.add], by simp [Heap.add, hh.size], fun x y hxy => ?_⟩
      rw [Heap.keys_add_self, haddress, Heap.keys_add_self, Cell.keys, Cell.keys, List.forall₂_map_left_iff,
        List.forall₂_map_right_iff]
      refine hzip.imp fun b b' hb => ⟨?_, ?_⟩
      · rintro rfl
        exact hR.2 hb.1 hxy
      · rintro rfl
        exact hR.1 hb.1 hxy
    · exact hframe.mono hgrows.left hgrows.right a ha
  exact hopened.bind fun frame' k k' hk hlinks => hf frame' k k' hk.alike hlinks

end AgreeIn

end Run

/-! ## The likeness of copies -/

/-- Heaps are alike if they hold copies, and faults if they are of the same kind. -/
def Likeness.copies : Likeness where
  heaps := Heap.Alike
  faults e e' := e.kind = e'.kind
  looks hh := hh.looks
  add hh hc := (hh.add (hc.alike _ _)).2.alike
  set hh ha hc := (hh.set (hc.alike _ _) (hc.keys.trans ha.keys.symm) (hc.keys.trans ha.keys'.symm)).alike
  plain _ := rfl

namespace Likeness

variable {α : Type} {x y : Run α}

theorem Grows.alike {k k' : Heap} (hk : copies.Grows h h' k k') : Heap.Grows h h' k k' :=
  ⟨hk.heaps, hk.left, hk.right⟩

theorem RelatedWhile.agree (hxy : copies.Related x y) : Run.Agree x y := by
  intro h h' hh hP
  have hend := hxy h h' hh hP
  unfold Run.AgreeAt
  generalize x.run h = r, y.run h' = r' at hend ⊢
  cases hend with
  | ok hk => exact .ok hk.alike trivial
  | error hk he => exact .error hk.alike he

theorem related_of_agree (hxy : Run.Agree x y) : copies.Related x y := by
  intro h h' hh hP
  have hend := hxy h h' hh hP
  unfold Run.AgreeAt at hend
  generalize x.run h = r, y.run h' = r' at hend ⊢
  cases hend with
  | ok hk _ => exact .ok ⟨hk.alike, hk.left, hk.right⟩
  | error hk he => exact .error ⟨hk.alike, hk.left, hk.right⟩ he

end Likeness

/-! ## Operators -/

namespace Run

variable {t u : Ty}

theorem operate_congr (o : Operation) (htu : t.equivalent u = true) (v w : Value) :
    operate o t v w = operate o u v w := by
  unfold operate
  rw [Ty.fixed?_congr htu, Ty.floatKind?_congr htu, Arithmetic.operate_congr htu]

theorem operate_agree (o : Operation) (htu : t.equivalent u = true) (v w : Value) :
    Agree (operate o t v w) (operate o u v w) := by
  rw [operate_congr o htu]
  exact (operate_uniform o u v w).agree

theorem isTrue_blind (v : Value) : Blind (isTrue v) :=
  (isTrue_uniform v).agree

theorem equal_blind (v w : Value) : Blind (equal v w) :=
  (equal_uniform v w).agree

theorem ordered_blind (k : OrderingKind) (v w : Value) : Blind (ordered k v w) :=
  (ordered_uniform k v w).agree

end Run

/-! ## Hosts -/

/-- Do two ways to call functions agree? -/
def Apply.Agrees (apply apply' : Apply) : Prop :=
  ∀ f vs, Run.Agree (apply f vs) (apply' f vs)

/-- Does a host tell functions apart by calling them only, and leave scopes alone? -/
structure Host.IsBlind (host : Host) : Prop where
  invoke : ∀ {apply apply' : Apply}, apply.Agrees apply' →
    ∀ m vs, Run.Agree (host.invoke apply m vs) (host.invoke apply' m vs)
  readField : ∀ v name, Run.Blind (host.readField v name)
  writeField : ∀ v name w, Run.Blind (host.writeField v name w)
  readProperty : ∀ c name v, Run.Blind (host.readProperty c name v)
  writeProperty : ∀ c name v w, Run.Blind (host.writeProperty c name v w)

namespace Host

open Run

variable {host : Host} {apply apply' : Apply}

theorem IsBlind.read_blind (hhost : host.IsBlind) (m : DataMember) (v : Value) : Blind (host.read m v) := by
  unfold read
  split
  · exact hhost.readField _ _
  · exact .ite (hhost.readProperty _ _ _) (.throw _)

theorem IsBlind.write_blind (hhost : host.IsBlind) (m : DataMember) (v w : Value) : Blind (host.write m v w) := by
  unfold write
  split
  · exact hhost.writeField _ _ _
  · exact .ite (hhost.writeProperty _ _ _ _) (.throw _)

theorem IsUniform.isBlind (hhost : host.IsUniform) : host.IsBlind where
  invoke happly m vs := (hhost.invoke (fun f vs => Likeness.related_of_agree (happly f vs)) m vs).agree
  readField v name := (hhost.readField v name).agree
  writeField v name w := (hhost.writeField v name w).agree
  readProperty c name v := (hhost.readProperty c name v).agree
  writeProperty c name v w := (hhost.writeProperty c name v w).agree

theorem IsBlind.call_agree (hhost : host.IsBlind) (happly : apply.Agrees apply') {m m' : Method} (hm : m.Mirrors m')
    (v : Value) (vs : List Value) :
    Agree (host.call apply m v vs) (host.call apply' m' v vs) := by
  unfold call
  rw [← hm.isDefinition, Method.isStatic, Method.isStatic, ← hm.declaration]
  refine .ite ?_ (.ite (hhost.invoke happly _ _) (hhost.invoke happly _ _))
  exact fun _ _ hh _ => .throw hh rfl

end Host

/-! ## Expressions -/

namespace Node

open Run

theorem unaryValue_agree (l : Library) (k : UnaryKind) {t t' u u' : Ty} (ht : t.equivalent t' = true)
    (hu : u.equivalent u' = true) (v : Value) : Agree (unaryValue l k t u v) (unaryValue l k t' u' v) := by
  unfold unaryValue
  cases k with
  | convert checked =>
    refine .get fun h h' hh => ?_
    rw [hh.looks.convert]
    exact .ofResult (Arithmetic.convert_congr hu l h' checked v)
  | negate checked => exact .ofResult (.ofEq (Arithmetic.negate_congr ht checked v))
  | unaryPlus => exact .pure v
  | not =>
    rw [Ty.isBool_congr ht]
    exact .ite ((isTrue_blind v).bind fun _ => .pure _) (.ofResult (.ofEq (Arithmetic.onesComplement_congr ht v)))
  | onesComplement => exact .ofResult (.ofEq (Arithmetic.onesComplement_congr ht v))
  | isTrue => dsimp only; split <;> exact .pure _
  | isFalse => dsimp only; split <;> exact .pure _
  | increment => exact .ofResult (.ofEq (Arithmetic.increment_congr ht v))
  | decrement => exact .ofResult (.ofEq (Arithmetic.decrement_congr ht v))
  | step k => exact .ofResult (.ite (.ofEq (Arithmetic.increment_congr ht v)) (.ofEq (Arithmetic.decrement_congr ht v)))

variable {host : Host} {apply apply' : Apply}

mutual

/-- Nodes that mirror each other do the same where corresponding parameters are bound. -/
theorem Mirrors.eval (hhost : host.IsBlind) (happly : apply.Agrees apply') (hR : Relator.BiUnique R) :
    ∀ {n n' : Node}, Mirrors R n n' → ∀ frame : Frame,
      AgreeIn R frame (Node.eval host apply frame n) (Node.eval host apply' frame n')
  | _, _, .constant, _ => .pure _
  | _, _, .parameter hp, _ => .readParameter hp
  -- the two functions mirror each other because the frame that both remember is linked here
  | _, _, .lambda hps hb, _ => fun _ _ hh hframe => .alloc hh (.function hR hps hb hframe)
  | _, _, .binary (k := k) hl hr htypes ht, frame => by
    have hleft := Mirrors.eval hhost happly hR hl frame
    have hright := Mirrors.eval hhost happly hR hr frame
    cases k with
    | binary k =>
      simp only [Node.eval]
      cases k with
      | assign => exact hright.bind fun v => (Mirrors.assign hhost happly hR hl frame v).bind fun _ => .pure v
      | compound o =>
        exact hleft.bind fun old => hright.bind fun w => (operate_agree o ht old w).within.bind fun v =>
          (Mirrors.assign hhost happly hR hl frame v).bind fun _ => .pure v
      | andAlso =>
        exact hleft.bind fun v => (isTrue_blind v).within.bind fun b => .ite
          (hright.bind fun w => (isTrue_blind w).within.bind fun _ => .pure _) (.pure _)
      | orElse =>
        exact hleft.bind fun v => (isTrue_blind v).within.bind fun b => .ite (.pure _)
          (hright.bind fun w => (isTrue_blind w).within.bind fun _ => .pure _)
      | coalesce => exact hleft.bind fun v => .ite hright (.pure v)
      | operation o => exact hleft.bind fun v => hright.bind fun w => (operate_agree o htypes v w).within
      | equal => exact hleft.bind fun v => hright.bind fun w => (equal_blind v w).within.bind fun _ => .pure _
      | notEqual => exact hleft.bind fun v => hright.bind fun w => (equal_blind v w).within.bind fun _ => .pure _
      | ordering k => exact hleft.bind fun v => hright.bind fun w => (ordered_blind k v w).within.bind fun _ => .pure _
    | _ => exact .host _
  | _, _, .converted hl hr hp hb, frame => by
    rw [Node.eval, Node.eval]
    refine (Mirrors.eval hhost happly hR hl frame).bind fun v => .ite (Mirrors.eval hhost happly hR hr frame) ?_
    exact AgreeIn.opened hR (.cons hp .nil) [v] fun frame' => Mirrors.eval hhost happly hR hb frame'
  | _, _, .unary (k := k) ho htypes ht, frame => by
    cases k with
    | unary k =>
      simp only [Node.eval]
      refine (Mirrors.eval hhost happly hR ho frame).bind fun old => ?_
      refine (unaryValue_agree _ k htypes ht old).within.bind fun v => ?_
      cases k with
      | step s => exact (Mirrors.assign hhost happly hR ho frame v).bind fun _ => .pure _
      | _ => exact .pure v
    | _ => exact .host _
  | _, _, .member he, frame => (Mirrors.eval hhost happly hR he frame).bind fun v => (hhost.read_blind _ v).within
  | _, _, .call hm ha, frame =>
    (MirrorsAll.eval hhost happly hR ha frame).bind fun vs => (hhost.call_agree happly hm _ vs).within
  | _, _, .callOn hm he ha, frame =>
    (Mirrors.eval hhost happly hR he frame).bind fun v => (MirrorsAll.eval hhost happly hR ha frame).bind fun vs =>
      (hhost.call_agree happly hm v vs).within
  | _, _, .conditional ht h₁ h₂, frame =>
    (Mirrors.eval hhost happly hR ht frame).bind fun v => (isTrue_blind v).within.bind fun _ =>
      .ite (Mirrors.eval hhost happly hR h₁ frame) (Mirrors.eval hhost happly hR h₂ frame)
  | _, _, .bare, _ => .host _

theorem MirrorsAll.eval (hhost : host.IsBlind) (happly : apply.Agrees apply') (hR : Relator.BiUnique R) :
    ∀ {as bs : List Node}, MirrorsAll R as bs → ∀ frame : Frame,
      AgreeIn R frame (evalAll host apply frame as) (evalAll host apply' frame bs)
  | _, _, .nil, _ => .pure []
  | _, _, .cons h hs, frame =>
    (Mirrors.eval hhost happly hR h frame).bind fun v =>
      (MirrorsAll.eval hhost happly hR hs frame).bind fun vs => .pure (v :: vs)

theorem Mirrors.assign (hhost : host.IsBlind) (happly : apply.Agrees apply') (hR : Relator.BiUnique R) :
    ∀ {n n' : Node}, Mirrors R n n' → ∀ (frame : Frame) (v : Value),
      AgreeIn R frame (Node.assign host apply frame n v) (Node.assign host apply' frame n' v)
  | _, _, .parameter hp, _, v => .writeParameter hp v
  | _, _, .member he, frame, v => (Mirrors.eval hhost happly hR he frame).bind fun w => (hhost.write_blind _ w v).within
  | _, _, .constant, _, _ | _, _, .lambda .., _, _ | _, _, .binary .., _, _ | _, _, .converted .., _, _
  | _, _, .unary .., _, _ | _, _, .call .., _, _ | _, _, .callOn .., _, _ | _, _, .conditional .., _, _
  | _, _, .bare, _, _ => .host _

end

end Node

end ExprTree
