import ExprTree.Proofs.Node.Building
import ExprTree.Proofs.Node.Isomorphism
import ExprTree.Proofs.Ty.Congruence

/-!
# Building from isomorphic parts

The typing rules look at the types of parts, at whether they can be assigned
to, and at nothing else. So what is built of some parts is built of isomorphic
parts as well, and the results are isomorphic.
-/

namespace ExprTree

namespace Node

variable {l : Library} {R : Nat → Nat → Prop} {a b c d n : Node}

theorem accepts_congr {s s' t t' : Ty} (hs : s.equivalent s' = true) (ht : t.equivalent t' = true) :
    l.accepts s t = l.accepts s' t' :=
  Ty.accepts_congr l.isSubclass hs ht

/-! ## Operators -/

theorem requireWritable_congr (h : Iso R a b) (ha : requireWritable a = .ok ()) : requireWritable b = .ok () := by
  cases h with
  | parameter => rfl
  | member => exact ha
  | _ => cases ha

/-- Two typing rules give equivalent types, if the first gives a type. -/
def TypedAlike (x y : Built Ty) : Prop :=
  ∀ t, x = .ok t → ∃ u, y = .ok u ∧ t.equivalent u = true

theorem TypedAlike.ok {t u : Ty} (h : t.equivalent u = true) : TypedAlike (.ok t) (.ok u) := by
  rintro _ ⟨⟩
  exact ⟨u, rfl, h⟩

theorem TypedAlike.error {e : BuildFault} {y : Built Ty} : TypedAlike (.error e) y := by
  rintro _ ⟨⟩

theorem TypedAlike.ite {p q : Bool} (h : p = q) {x x' y y' : Built Ty} (ht : TypedAlike x y) (hf : TypedAlike x' y') :
    TypedAlike (if p then x else x') (if q then y else y') := by
  subst h
  cases p
  · exact hf
  · exact ht

theorem TypedAlike.bind {x y : Built Ty} {f g : Ty → Built Ty} (h : TypedAlike x y)
    (hfg : ∀ t u, t.equivalent u = true → TypedAlike (f t) (g u)) : TypedAlike (x >>= f) (y >>= g) := by
  intro t ht
  obtain ⟨s, hs, hf⟩ := bind_eq_ok.mp ht
  obtain ⟨u, hu, hsu⟩ := h s hs
  obtain ⟨r, hr, htr⟩ := hfg s u hsu t hf
  exact ⟨r, bind_eq_ok.mpr ⟨u, hu, hr⟩, htr⟩

theorem TypedAlike.unless {p q : Bool} (h : p = q) {e e' : BuildFault} {x y : Built Ty} (hxy : TypedAlike x y) :
    TypedAlike
      (do
        if p then throw e
        x)
      (do
        if q then throw e'
        y) := by
  subst h
  cases p
  · exact hxy
  · exact .error

theorem TypedAlike.writable {x y : Built Ty} (ha : Iso R a c) (h : TypedAlike x y) :
    TypedAlike (requireWritable a >>= fun _ => x) (requireWritable c >>= fun _ => y) := by
  intro t ht
  obtain ⟨⟨⟩, hwritable, hx⟩ := bind_eq_ok.mp ht
  obtain ⟨u, hu, htu⟩ := h t hx
  exact ⟨u, bind_eq_ok.mpr ⟨(), requireWritable_congr ha hwritable, hu⟩, htu⟩

theorem operationType_congr (k : BinaryKind) (o : Operation) {s s' t t' : Ty} (hs : s.equivalent s' = true)
    (ht : t.equivalent t' = true) : TypedAlike (operationType k o s t) (operationType k o s' t') := by
  have hsame := Ty.equivalent_congr hs ht
  cases o with
  | shift =>
    exact .ite (by rw [Ty.isInteger_congr hs, Ty.isInteger_congr ht]) (.ok hs) .error
  | bitwise =>
    refine .ite (by rw [hsame]) .error (.ite ?_ (.ok hs) .error)
    rw [Ty.isInteger_congr hs, Ty.isBool_congr hs]
  | arithmetic =>
    refine .ite (by rw [hsame]) .error (.ite ?_ (.ok hs) .error)
    rw [Ty.isStr_congr hs, Ty.isNumeric_congr hs]

theorem coalesceType_congr {s s' t t' : Ty} (hs : s.equivalent s' = true) (ht : t.equivalent t' = true) :
    TypedAlike (coalesceType l s t) (coalesceType l s' t') := by
  have hwhole : TypedAlike (if l.accepts s t then .ok s else .error (.undefinedForBoth (.binary .coalesce) s t))
      (if l.accepts s' t' then .ok s' else .error (.undefinedForBoth (.binary .coalesce) s' t')) :=
    .ite (accepts_congr hs ht) (.ok hs) .error
  unfold coalesceType
  have hinner := Ty.optionalInner?_congr hs
  generalize s.optionalInner? = i at hinner
  generalize s'.optionalInner? = i' at hinner
  cases hinner with
  | none => exact hwhole
  | some h => exact .ite (accepts_congr h ht) (.ok h) hwhole

/-- The type of an operator follows from the types of its operands. -/
theorem binaryType_congr (k : BinaryKind) (hl : Iso R a c) (hr : Iso R b d) :
    TypedAlike (binaryType l k a b) (binaryType l k c d) := by
  have hs := hl.type
  have ht := hr.type
  have hbool : TypedAlike (.ok .bool) (.ok .bool) := .ok (Ty.equivalent_refl _)
  unfold binaryType
  cases k with
  | coalesce => exact coalesceType_congr hs ht
  | assign => exact .writable hl (.ite (accepts_congr hs ht) (.ok hs) .error)
  | compound o =>
    refine .writable hl (.bind (operationType_congr _ o hs ht) fun r r' hrr => ?_)
    exact .ite (Ty.equivalent_congr hrr hs) (.ok hrr) .error
  | operation o => exact operationType_congr _ o hs ht
  | equal | notEqual => exact hbool
  | andAlso | orElse => exact .ite (by rw [Ty.isBool_congr hs, Ty.isBool_congr ht]) hbool .error
  | ordering =>
    refine .unless (by rw [Ty.equivalent_congr hs ht]) (.ite ?_ hbool .error)
    rw [Ty.isNumeric_congr hs, Ty.isStr_congr hs, Ty.isChar_congr hs]

theorem unaryType_congr (k : UnaryKind) (h : Iso R a b) : TypedAlike (unaryType k a) (unaryType k b) := by
  have ht := h.type
  have hsame {p q : Bool} (hpq : p = q) (e e' : BuildFault) :
      TypedAlike (if p then .ok a.type else .error e) (if q then .ok b.type else .error e') :=
    .ite hpq (.ok ht) .error
  have hbool (e e' : BuildFault) :
      TypedAlike (if a.type.isBool then .ok .bool else .error e) (if b.type.isBool then .ok .bool else .error e') :=
    .ite (Ty.isBool_congr ht) (.ok (Ty.equivalent_refl _)) .error
  have hnumeric := Ty.isNumeric_congr ht
  cases k with
  | step => exact .writable h (hsame hnumeric _ _)
  | isTrue | isFalse => exact hbool _ _
  | not => exact hsame (by rw [Ty.isBool_congr ht, Ty.isInteger_congr ht]) _ _
  | onesComplement => exact hsame (Ty.isInteger_congr ht) _ _
  | _ => exact hsame hnumeric _ _

/-! ## Nodes -/

theorem mkBinary_iso {k : Kind} (hl : Iso R a c) (hr : Iso R b d) (h : mkBinary l k a b = .ok n) :
    ∃ n', mkBinary l k c d = .ok n' ∧ Iso R n n' := by
  obtain ⟨o, t, rfl, ht, rfl⟩ := mkBinary_eq_ok.mp h
  obtain ⟨u, hu, htu⟩ := binaryType_congr o hl hr t ht
  exact ⟨.binary (.binary o) c d u, mkBinary_eq_ok.mpr ⟨o, u, rfl, hu, rfl⟩, .binary hl hr htu⟩

theorem convertsFrom_congr {s t : Ty} {p q : Parameter} (hs : s.equivalent t = true) (hp : p.type.equivalent q.type = true) :
    convertsFrom s p = convertsFrom t q := by
  have hinner := Ty.optionalInner?_congr hs
  unfold convertsFrom
  rw [Ty.equivalent_congr hp hs]
  generalize s.optionalInner? = i at hinner
  generalize t.optionalInner? = j at hinner
  cases hinner with
  | none => rfl
  | some h => simp only [Option.any_some, Ty.equivalent_congr hp h]

theorem mkConverted_iso {k : Kind} {m m' : Node} (hl : Iso R a c) (hr : Iso R b d) (hm : Iso R m m')
    (h : mkConverted k a b m = .ok n) : ∃ n', mkConverted k c d m' = .ok n' ∧ Iso R n n' := by
  obtain ⟨p, body, rfl, rfl, hp, hbody, rfl⟩ := mkConverted_eq_ok.mp h
  cases hm with
  | @lambda _ qs _ body' hps hb =>
    obtain ⟨q, hpq, rfl⟩ : ∃ q, Parameter.Iso R p q ∧ qs = [q] := by
      cases hps with | cons hpq hrest =>
      cases hrest
      exact ⟨_, hpq, rfl⟩
    refine ⟨.converted c d q body', mkConverted_eq_ok.mpr ⟨q, body', rfl, rfl, ?_, ?_, rfl⟩, .converted hl hr hpq hb⟩
    · rw [← convertsFrom_congr hl.type hpq.type, hp]
    · rw [← Ty.equivalent_congr hb.type hr.type, hbody]

/-- The type that is written is the one the node has; reading gives an equivalent one. -/
theorem mkUnary_iso {k : Kind} {type : Option Ty} {u : Ty} (ho : Iso R a b) (h : mkUnary k a type = .ok n)
    (hu : n.type.equivalent u = true) (hgiven : given? (some u) = some u) :
    ∃ n', mkUnary k b (some u) = .ok n' ∧ Iso R n n' := by
  obtain ⟨o, rfl⟩ := mkUnary_kind h
  by_cases hconvert : ∃ checked, o = .convert checked
  · obtain ⟨checked, rfl⟩ := hconvert
    obtain ⟨t, -, rfl⟩ := mkUnary_convert_eq_ok.mp h
    exact ⟨.unary (.unary (.convert checked)) b u, mkUnary_convert_eq_ok.mpr ⟨u, hgiven, rfl⟩, .unary ho hu⟩
  · have hother : ∀ checked, o ≠ .convert checked := fun checked ho => hconvert ⟨checked, ho⟩
    obtain ⟨t, ht, -, rfl⟩ := (mkUnary_eq_ok hother).mp h
    obtain ⟨r, hr, htr⟩ := unaryType_congr o ho t ht
    refine ⟨.unary (.unary o) b r, (mkUnary_eq_ok hother).mpr ⟨r, hr, fun s hs => ?_, rfl⟩, .unary ho htr⟩
    obtain rfl : u = s := by simpa [hgiven] using hs
    exact Ty.equivalent_trans (Ty.equivalent_symm hu) htr

theorem mkMember_iso {m : DataMember} (he : Iso R a b) (h : mkMember l a m = .ok n) :
    ∃ n', mkMember l b m = .ok n' ∧ Iso R n n' := by
  obtain ⟨hclass, rfl⟩ := mkMember_eq_ok.mp h
  rw [Ty.runtimeClass_congr he.type] at hclass
  exact ⟨.member b m, mkMember_eq_ok.mpr ⟨hclass, rfl⟩, .member he⟩

theorem mkCall_iso {m m' : Method} {as bs : List Node} {target target' : Option Node} (hm : m.same m' = true)
    (hdefinition : m'.isDefinition = m.isDefinition) (hparameters : Ty.EquivalentAll m.parameterTypes m'.parameterTypes)
    (hresult : m.resultType.equivalent m'.resultType = true) (ht : Option.Rel (Iso R) target target')
    (ha : List.Forall₂ (Iso R) as bs) (h : mkCall l target m as = .ok n) :
    ∃ n', mkCall l target' m' bs = .ok n' ∧ Iso R n n' := by
  obtain ⟨hclosed, htakes, haccepts, rfl⟩ := mkCall_eq_ok.mp h
  obtain ⟨hdeclaring, -, -, hstatic, -⟩ := Method.same_iff.mp hm
  have haccepts' : List.Forall₂ (fun t n => l.accepts t n.type = true) m'.parameterTypes bs := by
    have hleft : List.Forall₂ (fun t n => l.accepts t n.type = true) m'.parameterTypes as :=
      forall₂_trans_of_mem hparameters.flip haccepts fun t _ u a hut hta => by
        rwa [← accepts_congr hut (Ty.equivalent_refl _)]
    exact forall₂_trans_of_mem hleft ha fun a _ t b hta hab => by
      rwa [← accepts_congr (Ty.equivalent_refl _) hab.type]
  refine ⟨callOf m' bs target', mkCall_eq_ok.mpr ⟨hdefinition.trans hclosed, ?_, haccepts', rfl⟩, ?_⟩
  · cases ht with
    | none => exact hstatic.symm.trans htakes
    | some he =>
      simp only [takesTarget] at htakes ⊢
      rw [← hstatic, ← hdeclaring, ← accepts_congr (Ty.equivalent_refl _) he.type]
      exact htakes
  · cases ht with
    | none => exact .call hm hresult (isoAll_iff.mpr ha)
    | some he => exact .callOn hm hresult he (isoAll_iff.mpr ha)

end Node

end ExprTree
