import ExprTree.Proofs.Scalar.Running
import ExprTree.Proofs.Scalar.Trees

/-!
# Scalar expressions keep to their types

As long as the parameters hold instances of their types, every part of a scalar
expression yields an instance of its type, and assigns one. What can go wrong
is a fault of arithmetic, or a conversion of a value of the wrong type.
-/

namespace ExprTree

open Run
open Action (From)

variable {host : Host} {apply : Apply} {ps : List Parameter} {frame : Frame} {h : Heap} {p : Parameter} {v w : Value}

namespace Node

/-- Where the frame fits, does a node yield an instance of its type, fail as expected, and leave a frame that fits? -/
def Sound (host : Host) (apply : Apply) (ps : List Parameter) (n : Node) : Prop :=
  ∀ h frame, Frame.Fits host.library ps h frame →
    From h (eval host apply frame n) (fun v k => Frame.Fits host.library ps k frame ∧ host.library.Has n.type v)
      (Expects host apply frame h n)

variable {left right operand test ifTrue ifFalse body n m : Node} {t : Ty} {k : Heap}

theorem Sound.part {inner : Frame} (hm : m.Sound host apply ps) (hf : Frame.Fits host.library ps k inner)
    (hruns : RunsPart host apply frame h n inner k m) :
    From k (eval host apply inner m)
      (fun v k => Frame.Fits host.library ps k inner ∧ host.library.Has m.type v) (Expects host apply frame h n) :=
  (hm k inner hf).imp (fun _ _ h => h) fun _ hf => hf.part hruns

/-- Faults of arithmetic are expected everywhere. -/
theorem expected {α : Type} {x : Run α} {P : α → Heap → Prop} (hx : From k x P (·.isArithmetic = true)) :
    From k x P (Expects host apply frame h n) :=
  hx.imp (fun _ _ h => h) fun _ => .inl

theorem sound_constant (hv : v.IsScalar) (ht : t.IsScalar) (hnone : v.isNone = true → t.optionalInner?.isSome = true)
    (htyped : (Node.constant v t).IsTyped host.library) : (Node.constant v t).Sound host apply ps := by
  intro h frame hf
  refine .pure ⟨hf, ?_⟩
  by_cases hn : v.isNone = true
  · exact .inl ⟨hn, hnone hn⟩
  · obtain ⟨s, hs⟩ := ht
    obtain ⟨r, hr⟩ := Option.isSome_iff_exists.mp (hv.resolve_left hn)
    have hd := Scalar.scalarClass?_of_scalar? hr
    have hc : constantClass? t = some s.className := hs.constantClass?
    exact .inr ⟨_, _, hc, hd, htyped.resolve_left hn _ _ hc hd⟩

theorem sound_parameter (hp : p ∈ ps) (ht : p.type.IsScalar) : (Node.parameter p).Sound host apply ps :=
  fun _ _ hf => expected (hf.read hp ht)

theorem sound_conditional (htest : test.Sound host apply ps) (hifTrue : ifTrue.Sound host apply ps)
    (hifFalse : ifFalse.Sound host apply ps) (htyped : (Node.conditional test ifTrue ifFalse).IsTyped host.library) :
    (Node.conditional test ifTrue ifFalse).Sound host apply ps := by
  intro h frame hf
  unfold eval
  refine .bind (htest.part hf .test) ?_
  rintro v k hrun ⟨hk, -⟩
  refine .bind (isTrue_from v) ?_
  rintro b _ - ⟨rfl, rfl⟩
  have hbranch : RunsPart host apply frame h (.conditional test ifTrue ifFalse) frame _ _ := .branch hrun
  by_cases hv : k.isTrue v = true
  · rw [if_pos hv] at hbranch ⊢
    exact hifTrue.part hk hbranch
  · rw [if_neg hv] at hbranch ⊢
    exact (hifFalse.part hk hbranch).imp (fun _ _ h => ⟨h.1, (Library.has_congr htyped.2).mpr h.2⟩) fun _ h => h

/-! ## Assignment and conversion -/

theorem assign_from (hunique : ∀ p ∈ ps, ∀ q ∈ ps, p.number = q.number → p = q) (hn : n.IsScalar)
    (hwritable : requireWritable n = .ok ()) (hps : n.parameters ⊆ ps) (hf : Frame.Fits host.library ps h frame)
    (hv : host.library.Has n.type v) :
    From h (assign host apply frame n v) (fun _ k => Frame.Fits host.library ps k frame) (·.isArithmetic = true) := by
  obtain ⟨p, rfl⟩ := hn.eq_parameter hwritable
  exact hf.write hunique (hps List.mem_cons_self) hv

/-- The parameter of a conversion holds what the left operand yields, if that is not none. -/
theorem has_converted (hl : host.library.HasScalars) {left : Ty} (hleft : left.IsScalar)
    (haccepts : convertsFrom left p = true) (hv : host.library.Has left v) (hsome : v.isNone = false) :
    host.library.Has p.type v := by
  obtain ⟨s, hs⟩ := hleft
  obtain hsame | hinner := Bool.or_eq_true_iff.mp haccepts
  · exact (Library.has_congr hsame).mpr hv
  · obtain ⟨inner, hinner, hsame⟩ := (Option.any_eq_true _ _).mp hinner
    have hholds : s.Holds v := (hl.isNone_or_holds hs hv).resolve_left (by simp [hsome])
    cases hs with
    | plain => cases hinner
    | optional hs =>
      rw [hs] at hinner
      cases hinner
      exact (Library.has_congr hsame).mpr (hl.has_ty.mpr hholds)

theorem sound_converted (hl : host.library.HasScalars) (hunique : ∀ p ∈ ps, ∀ q ∈ ps, p.number = q.number → p = q)
    (hleft : left.Sound host apply ps) (hright : right.Sound host apply ps)
    (hbody : body.Sound host apply ps) (hp : p ∈ ps) (ht : left.type.IsScalar)
    (htyped : (Node.converted left right p body).IsTyped host.library) :
    (Node.converted left right p body).Sound host apply ps := by
  intro h frame hf
  unfold eval
  refine .bind (hleft.part hf .source) ?_
  rintro v k hrun ⟨hk, hv⟩
  by_cases hnone : v.isNone = true
  · rw [if_pos hnone]
    exact hright.part hk (.fallback hrun hnone)
  · rw [if_neg hnone]
    have hsome := Bool.eq_false_of_not_eq_true hnone
    have hvs : List.Forall₂ (fun p v => p.type.IsScalar → host.library.Has p.type v) [p] [v] :=
      .cons (fun _ => has_converted hl ht htyped.1 hv hsome) .nil
    refine .bind (expected (hk.opened hunique (by simpa using hp) hvs)) ?_
    rintro inner k' hopened ⟨hk', hback⟩
    refine (hbody.part hk' (.body hrun hsome hopened)).imp (fun w m h => ⟨hback m h.1, ?_⟩) fun _ h => h
    exact (Library.has_congr htyped.2).mp h.2

theorem sound_unary (hl : host.library.HasScalars) (hunique : ∀ p ∈ ps, ∀ q ∈ ps, p.number = q.number → p = q)
    {u : UnaryKind} (hoperand : operand.Sound host apply ps) (hn : operand.IsScalar) (ht : t.IsScalar)
    (hps : operand.parameters ⊆ ps) (htyped : (Node.unary (.unary u) operand t).IsTyped host.library) :
    (Node.unary (.unary u) operand t).Sound host apply ps := by
  intro h frame hf
  unfold eval
  refine .bind (hoperand.part hf .operand) ?_
  rintro old k hrun ⟨hk, hold⟩
  by_cases hconvert : ∃ checked, u = .convert checked
  · obtain ⟨checked, rfl⟩ := hconvert
    obtain ⟨s, hs⟩ := ht
    obtain ⟨r, hr⟩ := hn.type
    refine .bind (P := fun v m => k = m ∧ host.library.Has t v) (.get ?_) ?_
    · have hconverts := Arithmetic.convert_converts hl hs k checked (hl.isScalar hr hold)
      cases hresult : Arithmetic.convert host.library k t checked old with
      | ok v =>
        rw [hresult] at hconverts
        cases hconverts with | ok hv => exact .pure ⟨rfl, hv⟩
      | error f =>
        rw [hresult] at hconverts
        cases hconverts with
        | error hfault => exact .throw (hfault.imp id fun hkind => ⟨hkind, .here hrun hresult⟩)
    · rintro v _ - ⟨rfl, hv⟩
      exact .pure ⟨hk, hv⟩
  · have hne checked (hu : u = .convert checked) : False := hconvert ⟨checked, hu⟩
    have hok := htyped hne
    obtain ⟨hfor, rfl⟩ := unaryType_of_ok hok
    refine .bind (expected (unaryValue_from hl hne hn.type hfor hold)) ?_
    rintro v _ - ⟨rfl, hv⟩
    cases u with
    | step s =>
      refine .bind (expected (assign_from hunique hn (requireWritable_of_step hok) hps hk hv)) fun _ m _ hm => ?_
      cases hyields : s.yieldsOld with
      | true => exact .pure ⟨hm, hold⟩
      | false => exact .pure ⟨hm, hv⟩
    | _ => exact .pure ⟨hk, hv⟩

/-! ## Binary operators -/

theorem operation_from (hl : host.library.HasScalars) (hs : left.type.IsScalar) (hr : right.type.IsScalar)
    {o : Operation} (ho : o.IsFor left.type right.type)
    (hstays : o.Stays left.type right.type left.type) (hv : host.library.Has left.type v)
    (hw : host.library.Has right.type w) :
    From h (operate o left.type v w) (fun u k => h = k ∧ host.library.Has left.type u) (·.isArithmetic = true) := by
  obtain ⟨s, hs⟩ := hs
  obtain ⟨r, hr⟩ := hr
  have hresult := Arithmetic.operate_computes hl hs hr ho hstays hv hw
  intro x k hrun
  rw [operate_eq (hl.isScalar hs hv) (hl.isScalar hr hw)] at hrun
  exact ofResult_from hresult x k hrun

section

variable {b : BinaryKind} (hleft : left.Sound host apply ps) (hright : right.Sound host apply ps)
include hleft hright

/-- An operator that always runs both operands does as it does with instances of their types. -/
theorem both_from {f : Value → Value → Run Value} {P : Value → Heap → Prop} (hb : b ≠ .assign)
    (hgoes : ∀ k v, b.goesOn k v = true) (hf : Frame.Fits host.library ps h frame)
    (hvalues : ∀ v w k, Frame.Fits host.library ps k frame → host.library.Has left.type v →
      host.library.Has right.type w → From k (f v w) P (·.isArithmetic = true)) :
    From h (do f (← eval host apply frame left) (← eval host apply frame right)) P
      (Expects host apply frame h (.binary (.binary b) left right t)) := by
  refine .bind (hleft.part hf (.left hb)) ?_
  rintro v k hrun ⟨hk, hv⟩
  refine .bind (hright.part hk (.right hb hrun (hgoes k v))) ?_
  rintro w m - ⟨hm, hw⟩
  exact expected (hvalues v w m hm hv hw)

theorem sound_operation (hl : host.library.HasScalars) (hs : left.type.IsScalar) (hr : right.type.IsScalar)
    {o : Operation} (htype : binaryType host.library (.operation o) left right = .ok t)
    (hstays : o.Stays left.type right.type t) :
    (Node.binary (.binary (.operation o)) left right t).Sound host apply ps := by
  intro h frame hf
  obtain ⟨ho, rfl⟩ := operationType_eq_ok.mp htype
  unfold eval
  refine both_from hleft hright (by simp) (fun _ _ => rfl) hf fun v w k hk hv hw => ?_
  refine (operation_from hl hs hr ho hstays hv hw).imp ?_ fun _ h => h
  rintro u _ ⟨rfl, hu⟩
  exact ⟨hk, hu⟩

theorem sound_compound (hl : host.library.HasScalars) (hunique : ∀ p ∈ ps, ∀ q ∈ ps, p.number = q.number → p = q)
    (hs : left.type.IsScalar) (hr : right.type.IsScalar) {o : Operation} (hn : left.IsScalar)
    (hps : left.parameters ⊆ ps) (htype : binaryType host.library (.compound o) left right = .ok t)
    (hstays : o.Stays left.type right.type t) :
    (Node.binary (.binary (.compound o)) left right t).Sound host apply ps := by
  intro h frame hf
  obtain ⟨_, -, hrest⟩ := bind_eq_ok.mp htype
  obtain ⟨result, hresult, hrest⟩ := bind_eq_ok.mp hrest
  obtain ⟨ho, rfl⟩ := operationType_eq_ok.mp hresult
  obtain rfl : left.type = t := by
    split at hrest <;> cases hrest
    rfl
  unfold eval
  refine both_from hleft hright (by simp) (fun _ _ => rfl) hf fun v w k hk hv hw => ?_
  refine .bind (operation_from hl hs hr ho hstays hv hw) ?_
  rintro u _ - ⟨rfl, hu⟩
  refine .bind (assign_from hunique hn (requireWritable_of_compound htype) hps hk hu) fun _ m _ hm => ?_
  exact .pure ⟨hm, hu⟩

theorem sound_comparison (hl : host.library.HasScalars) {f : Value → Value → Run Value}
    (hb : b ≠ .assign) (hgoes : ∀ k v, b.goesOn k v = true)
    (heval : ∀ frame, eval host apply frame (.binary (.binary b) left right .bool) =
      do f (← eval host apply frame left) (← eval host apply frame right))
    (hf : ∀ {h v w}, host.library.Has left.type v → host.library.Has right.type w →
      From h (f v w) (fun u k => h = k ∧ ∃ c, u = .bool c) (·.isArithmetic = true)) :
    (Node.binary (.binary b) left right .bool).Sound host apply ps := by
  intro h frame hframe
  rw [heval]
  refine both_from hleft hright hb hgoes hframe fun v w k hk hv hw => (hf hv hw).imp ?_ fun _ h => h
  rintro u _ ⟨rfl, c, rfl⟩
  exact ⟨hk, hl.has_bool c⟩

/-- Scalars are compared without looking into a cell, for equality and for its negation. -/
theorem sound_equality (hl : host.library.HasScalars) (hs : left.type.IsScalar) (yields : Bool → Bool)
    (hb : b ≠ .assign) (hgoes : ∀ k v, b.goesOn k v = true)
    (heval : ∀ frame, eval host apply frame (.binary (.binary b) left right .bool) = do
      let v ← eval host apply frame left
      return .bool (yields (← equal v (← eval host apply frame right)))) :
    (Node.binary (.binary b) left right .bool).Sound host apply ps := by
  refine sound_comparison hleft hright hl hb hgoes heval fun hv _ => ?_
  obtain ⟨s, hs⟩ := hs
  refine .bind (equal_from (hl.isScalar hs hv) _) ?_
  rintro c _ - rfl
  exact .pure ⟨rfl, yields c, rfl⟩

theorem sound_ordering {k : OrderingKind} (hl : host.library.HasScalars)
    (hs : left.type.IsScalar) (htype : binaryType host.library (.ordering k) left right = .ok t) :
    (Node.binary (.binary (.ordering k)) left right t).Sound host apply ps := by
  obtain ⟨hsame, hdefined, rfl⟩ := binaryType_ordering htype
  obtain ⟨s, hs⟩ := hs
  refine sound_comparison hleft hright hl (by simp) (fun _ _ => rfl) (fun _ => by rw [eval]) fun {h v w} hv hw => ?_
  have hw : host.library.Has left.type w := (Library.has_congr hsame).mpr hw
  have heq : left.type = s.ty := hdefined.elim hs.eq_of_isNumeric (·.elim hs.eq_of_isClass hs.eq_of_isClass)
  rw [heq, hl.has_ty] at hv hw
  rw [heq, Scalar.isStr_ty, Scalar.isChar_ty, decide_eq_true_iff, decide_eq_true_iff] at hdefined
  refine .bind (ordered_from k hdefined hv hw) ?_
  rintro c _ - rfl
  exact .pure ⟨rfl, c, rfl⟩

omit hright in
/-- A connective goes on with whether its left operand is true. -/
theorem connective_from {f : Bool → Run Value} {P : Value → Heap → Prop} (hb : b ≠ .assign)
    (hf : Frame.Fits host.library ps h frame)
    (hgoes : ∀ v k, (eval host apply frame left).run h = (.ok v, k) → Frame.Fits host.library ps k frame →
      From k (f (k.isTrue v)) P (Expects host apply frame h (.binary (.binary b) left right t))) :
    From h (do f (← isTrue (← eval host apply frame left))) P
      (Expects host apply frame h (.binary (.binary b) left right t)) := by
  refine .bind (hleft.part hf (.left hb)) ?_
  rintro v k hrun ⟨hk, -⟩
  refine .bind (isTrue_from v) ?_
  rintro c _ - ⟨rfl, rfl⟩
  exact hgoes v k hrun hk

omit hleft in
/-- A connective that runs its right operand is as true as that is. -/
theorem truth_from (hl : host.library.HasScalars) (hf : Frame.Fits host.library ps k frame)
    (hruns : RunsPart host apply frame h (.binary (.binary b) left right t) frame k right) :
    From k (do return .bool (← isTrue (← eval host apply frame right)))
      (fun v m => Frame.Fits host.library ps m frame ∧ host.library.Has .bool v)
      (Expects host apply frame h (.binary (.binary b) left right t)) := by
  refine .bind (hright.part hf hruns) ?_
  rintro w m - ⟨hm, -⟩
  refine .bind (isTrue_from w) ?_
  rintro c _ - ⟨rfl, rfl⟩
  exact .pure ⟨hm, hl.has_bool _⟩

theorem sound_andAlso (hl : host.library.HasScalars)
    (htype : binaryType host.library .andAlso left right = .ok t) :
    (Node.binary (.binary .andAlso) left right t).Sound host apply ps := by
  intro h frame hf
  obtain ⟨-, rfl⟩ := of_ite_eq_ok htype
  unfold eval
  refine connective_from hleft (by simp) hf fun v k hrun hk => ?_
  by_cases hv : k.isTrue v = true
  · rw [if_pos hv]
    exact truth_from hright hl hk (.right (by simp) hrun hv)
  · rw [if_neg hv]
    exact .pure ⟨hk, hl.has_bool false⟩

theorem sound_orElse (hl : host.library.HasScalars)
    (htype : binaryType host.library .orElse left right = .ok t) :
    (Node.binary (.binary .orElse) left right t).Sound host apply ps := by
  intro h frame hf
  obtain ⟨-, rfl⟩ := of_ite_eq_ok htype
  unfold eval
  refine connective_from hleft (by simp) hf fun v k hrun hk => ?_
  by_cases hv : k.isTrue v = true
  · rw [if_pos hv]
    exact .pure ⟨hk, hl.has_bool true⟩
  · rw [if_neg hv]
    have hgoes : BinaryKind.orElse.goesOn k v = true := by simpa [BinaryKind.goesOn] using hv
    exact truth_from hright hl hk (.right (by simp) hrun hgoes)

/-- What is left of the left operand, if it is not none, is an instance of the type that it is optional over. -/
theorem sound_coalesce (hl : host.library.HasScalars)
    (hs : left.type.IsScalar) (hr : right.type.IsScalar)
    (htype : binaryType host.library .coalesce left right = .ok t) :
    (Node.binary (.binary .coalesce) left right t).Sound host apply ps := by
  intro h frame hf
  obtain ⟨ht, haccepts⟩ := coalesceType_of_ok htype
  obtain ⟨s, hs⟩ := hs
  obtain ⟨r, hr⟩ := hr
  have hts : t.IsOf s ∧ ∀ v, host.library.Has left.type v → v.isNone = false → host.library.Has t v := by
    obtain rfl | hinner := ht
    · exact ⟨hs, fun _ hv _ => hv⟩
    · obtain ⟨rfl⟩ := hs.inner hinner
      refine ⟨.plain s, fun v hv hsome => ?_⟩
      exact hl.has_ty.mpr ((hl.isNone_or_holds hs hv).resolve_left (by simp [hsome]))
  unfold eval
  refine .bind (hleft.part hf (.left (by simp))) ?_
  rintro v k hrun ⟨hk, hv⟩
  by_cases hnone : v.isNone = true
  · rw [if_pos hnone]
    have hruns : RunsPart host apply frame h (.binary (.binary .coalesce) left right t) frame k right :=
      .right (by simp) hrun hnone
    refine (hright.part hk hruns).imp (fun w m hw => ⟨hw.1, ?_⟩) fun _ h => h
    exact hl.has_of_accepts hts.1 hr haccepts hw.2
  · rw [if_neg hnone]
    exact .pure ⟨hk, hts.2 v hv (Bool.eq_false_of_not_eq_true hnone)⟩

omit hleft in
theorem sound_assign (hl : host.library.HasScalars) (hunique : ∀ p ∈ ps, ∀ q ∈ ps, p.number = q.number → p = q)
    (hs : left.type.IsScalar) (hr : right.type.IsScalar) (hn : left.IsScalar)
    (hps : left.parameters ⊆ ps)
    (htype : binaryType host.library .assign left right = .ok t) :
    (Node.binary (.binary .assign) left right t).Sound host apply ps := by
  intro h frame hf
  obtain ⟨_, hwritable, hrest⟩ := bind_eq_ok.mp htype
  split at hrest
  · next haccepts =>
    cases hrest
    obtain ⟨s, hs⟩ := hs
    obtain ⟨r, hr⟩ := hr
    unfold eval
    refine .bind (hright.part hf .assigned) ?_
    rintro v k - ⟨hk, hv⟩
    have hv := hl.has_of_accepts hs hr haccepts hv
    exact .bind (expected (assign_from hunique hn hwritable hps hk hv)) fun _ m _ hm => .pure ⟨hm, hv⟩
  · cases hrest

theorem sound_binary (hl : host.library.HasScalars) (hunique : ∀ p ∈ ps, ∀ q ∈ ps, p.number = q.number → p = q)
    (hs : left.type.IsScalar) (hr : right.type.IsScalar) (hn : left.IsScalar) (hps : left.parameters ⊆ ps)
    (htype : binaryType host.library b left right = .ok t)
    (hstays : ∀ o, b = .operation o ∨ b = .compound o → o.Stays left.type right.type t) :
    (Node.binary (.binary b) left right t).Sound host apply ps := by
  cases b with
  | operation o => exact sound_operation hleft hright hl hs hr htype (hstays o (.inl rfl))
  | compound o => exact sound_compound hleft hright hl hunique hs hr hn hps htype (hstays o (.inr rfl))
  | equal =>
    cases htype
    exact sound_equality hleft hright hl hs id (by simp) (fun _ _ => rfl) fun _ => by rw [eval]; rfl
  | notEqual =>
    cases htype
    exact sound_equality hleft hright hl hs not (by simp) (fun _ _ => rfl) fun _ => by rw [eval]
  | ordering k => exact sound_ordering hleft hright hl hs htype
  | andAlso => exact sound_andAlso hleft hright hl htype
  | orElse => exact sound_orElse hleft hright hl htype
  | coalesce => exact sound_coalesce hleft hright hl hs hr htype
  | assign => exact sound_assign hright hl hunique hs hr hn hps htype

end

/-! ## Trees -/

/-- A scalar expression of the builders is sound, whatever frame it runs in. -/
theorem IsScalar.sound (hl : host.library.HasScalars) (hunique : ∀ p ∈ ps, ∀ q ∈ ps, p.number = q.number → p = q)
    (hn : n.IsScalar) (hmade : n.IsMade host.library) (hps : n.parameters ⊆ ps) : n.Sound host apply ps := by
  induction hn with
  | constant hv ht hnone => exact sound_constant hv ht hnone hmade.isTyped
  | parameter hp => exact sound_parameter (hps List.mem_cons_self) hp
  | conditional _ _ _ ihtest ihtrue ihfalse =>
    simp only [parameters, List.append_subset] at hps
    exact sound_conditional (ihtest (hmade.part (.head _)) hps.1.1) (ihtrue (hmade.part (.tail _ (.head _))) hps.1.2)
      (ihfalse (hmade.part (.tail _ (.tail _ (.head _)))) hps.2) hmade.isTyped
  | unary hoperand ht ih =>
    rw [parameters] at hps
    exact sound_unary hl hunique (ih (hmade.part (.head _)) hps) hoperand ht hps hmade.isTyped
  | binary hleft hright ht hstays ihleft ihright =>
    rw [parameters, List.append_subset] at hps
    exact sound_binary (ihleft (hmade.part (.tail _ (.head _))) hps.1) (ihright (hmade.part (.head _)) hps.2) hl hunique
      hleft.type hright.type hleft hps.1 hmade.isTyped hstays
  | converted hleft hright hp hbody ihleft ihright ihbody =>
    simp only [parameters, List.append_subset, List.cons_subset] at hps
    exact sound_converted hl hunique (ihleft (hmade.part (.tail _ (.head _))) hps.1.1)
      (ihright (hmade.part (.head _)) hps.1.2) (ihbody (hmade.part (.tail _ (.tail _ (.head _)))) hps.2.2) hps.2.1
      hleft.type hmade.isTyped

/-- A scalar expression of the builders, called as the body of a lambda with instances of the types of its parameters:
what it returns is an instance of its type, and what it fails with is a fault of arithmetic, or of the wrong type and
from a conversion that it comes to. -/
theorem call_keeps_type (hl : host.library.HasScalars) (hmade : body.IsMade host.library) (hbody : body.IsScalar)
    (hunique : ∀ p ∈ (Node.lambda ps body).parameters, ∀ q ∈ (Node.lambda ps body).parameters,
      p.number = q.number → p = q)
    {a : Nat} (ha : h.get? a = some (.function ps body [])) {vs : List Value}
    (hvs : List.Forall₂ (fun p v => p.type.IsScalar → host.library.Has p.type v) ps vs) (depth : Nat) :
    ∃ inner m, (opened [] ps vs).run h = (.ok inner, m) ∧
      (∀ v k, (host.applyAt (depth + 1) (.ref a) vs).run h = (.ok v, k) → host.library.Has body.type v) ∧
      ∀ f k, (host.applyAt (depth + 1) (.ref a) vs).run h = (.error f, k) →
        f.isArithmetic = true ∨ f.kind = .type ∧ FailsConverting host (host.applyAt depth) f inner m body := by
  have hempty : Frame.Fits host.library (Node.lambda ps body).parameters h [] := fun a ha => by simp at ha
  have hsound : body.Sound host (host.applyAt depth) (Node.lambda ps body).parameters :=
    hbody.sound hl hunique hmade (by simp [parameters])
  have hopened := Frame.run_opened h [] ps vs
  generalize (h.add _).1 :: [] = inner, (h.add _).2 = m at hopened
  have hmem : ∀ q ∈ ps, q ∈ (Node.lambda ps body).parameters := fun q hq => by simp [parameters, hq]
  have hfits := hempty.opened hunique hmem hvs _ _ hopened
  have hrun : (host.applyAt (depth + 1) (.ref a) vs).run h =
      (eval host (host.applyAt depth) inner body).run m := by
    rw [Host.run_applyAt ha, if_pos hvs.length_eq.symm, Action.run_bind_ok hopened]
  cases hfits with
  | ok hfits =>
    have hbody := hsound m inner hfits.1
    refine ⟨inner, m, hopened, fun v k hv => ?_, fun f k hf => ?_⟩
    · cases hbody _ _ (hrun ▸ hv) with | ok h => exact h.2
    · cases hbody _ _ (hrun ▸ hf) with | error h => exact h

def dividend : Parameter := ⟨0, .int, some "dividend"⟩

def divisor : Parameter := ⟨1, .bar [.fixed ⟨true, .w8⟩, .nothing], some "divisor"⟩

/-- A quotient whose divisor is converted first, because it may be none. -/
def quotient : Node :=
  .binary (.binary (.operation (.arithmetic .divide))) (.parameter dividend)
    (.unary (.unary (.convert false)) (.parameter divisor) .int) .int

theorem isMade_quotient : quotient.IsMade Sample.library := by
  have hconvert : mkUnary (.unary (.convert false)) (.parameter divisor) (some .int) =
      .ok (.unary (.unary (.convert false)) (.parameter divisor) .int) :=
    mkUnary_convert_eq_ok.mpr ⟨.int, rfl, rfl⟩
  exact .binary (.parameter dividend) (.unary (.parameter divisor) hconvert)
    (mkBinary_eq_ok.mpr ⟨_, .int, rfl, rfl, rfl⟩)

theorem isScalar_quotient : quotient.IsScalar := by
  have hint : Ty.int.IsScalar := ⟨.int, .plain .int⟩
  refine .binary (.parameter hint) (.unary (.parameter ⟨.fixed ⟨true, .w8⟩, .optional rfl⟩) hint) hint ?_
  rintro o (⟨⟨⟩⟩ | ⟨⟨⟩⟩)
  trivial

/-- The heap with the function of the quotient. -/
def quotientHeap : Heap :=
  ⟨#[.function [dividend, divisor] quotient []]⟩

/-- A truth value is divided by what converts to two; none does not convert. -/
theorem call_keeps_type_quotient :
    (Sample.host.eval (.lambda [dividend, divisor] quotient)).run .empty = (.ok (.ref 0), quotientHeap) ∧
      (∃ v k, (Sample.host.apply (.ref 0) [.bool true, .fixed ⟨true, .w8⟩ 2]).run quotientHeap = (.ok v, k) ∧
        Sample.library.Has .int v) ∧
      ∃ f k inner m, (Sample.host.apply (.ref 0) [.bool true, .none]).run quotientHeap = (.error f, k) ∧
        f.kind = .type ∧ FailsConverting Sample.host (Sample.host.applyAt 999) f inner m quotient := by
  have hl : Sample.host.library.HasScalars := Sample.library_hasScalars
  have hunique : ∀ p ∈ (Node.lambda [dividend, divisor] quotient).parameters,
      ∀ q ∈ (Node.lambda [dividend, divisor] quotient).parameters, p.number = q.number → p = q := by
    intro p hp q hq hnumber
    simp only [parameters, quotient, List.cons_append, List.nil_append, List.mem_cons, List.not_mem_nil,
      or_false] at hp hq
    obtain rfl | rfl | rfl | rfl := hp <;> obtain rfl | rfl | rfl | rfl := hq <;> first | rfl | cases hnumber
  have htrue : Sample.library.Has dividend.type (.bool true) := (hl.has_ty (s := .int)).mpr (.truth true)
  have htwo : Sample.library.Has divisor.type (.fixed ⟨true, .w8⟩ 2) :=
    (hl.has_optional (s := .fixed ⟨true, .w8⟩) rfl).mpr (.inr (.fixed _ 2))
  have hnone : Sample.library.Has divisor.type .none := .inl ⟨rfl, rfl⟩
  obtain ⟨_, _, -, hvalue, -⟩ := call_keeps_type hl isMade_quotient isScalar_quotient hunique
    (h := quotientHeap) (a := 0) rfl (.cons (fun _ => htrue) (.cons (fun _ => htwo) .nil)) 999
  obtain ⟨inner, m, -, -, hfault⟩ := call_keeps_type hl isMade_quotient isScalar_quotient hunique
    (h := quotientHeap) (a := 0) rfl (.cons (fun _ => htrue) (.cons (fun _ => hnone) .nil)) 999
  refine ⟨rfl, ⟨.int 0, _, rfl, hvalue _ _ rfl⟩, ⟨.noneConverted .int, _, inner, m, rfl, rfl, ?_⟩⟩
  exact ((hfault _ _ rfl).resolve_left (by decide)).2

end Node

end ExprTree
