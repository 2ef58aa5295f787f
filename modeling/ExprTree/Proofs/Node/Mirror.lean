import ExprTree.Proofs.Node.Copies

/-!
# Mirror images

As far as running goes, a node mirrors another one if it has the same shape,
values, members and declarations, its parameters correspond, and the types
that operators look at are equivalent. A node mirrors itself, and a copy
mirrors what it is a copy of.
-/

namespace ExprTree

/-- Do the numbers of the parameters correspond one by one? -/
abbrev Parameter.Correspond (R : Nat → Nat → Prop) (ps qs : List Parameter) : Prop :=
  List.Forall₂ (fun p q : Parameter => R p.number q.number) ps qs

/-- Is the same declaration called, of which both are closed or neither is? -/
structure Method.Mirrors (m m' : Method) : Prop where
  declaration : m.declaration = m'.declaration
  isDefinition : m.isDefinition = m'.isDefinition

namespace Node

mutual

inductive Mirrors (R : Nat → Nat → Prop) : Node → Node → Prop where
  | constant {v : Value} {t u : Ty} : Mirrors R (.constant v t) (.constant v u)
  | parameter {p q : Parameter} (h : R p.number q.number) : Mirrors R (.parameter p) (.parameter q)
  | lambda {ps qs : List Parameter} {b c : Node} (hps : Parameter.Correspond R ps qs) (hb : Mirrors R b c) :
      Mirrors R (.lambda ps b) (.lambda qs c)
  | binary {k : Kind} {a b c d : Node} {t u : Ty} (hl : Mirrors R a c) (hr : Mirrors R b d)
      (hleft : a.type.equivalent c.type = true) (ht : t.equivalent u = true) :
      Mirrors R (.binary k a b t) (.binary k c d u)
  | converted {a b c d m n : Node} {p q : Parameter} (hl : Mirrors R a c) (hr : Mirrors R b d)
      (hp : R p.number q.number) (hb : Mirrors R m n) : Mirrors R (.converted a b p m) (.converted c d q n)
  | unary {k : Kind} {a b : Node} {t u : Ty} (ho : Mirrors R a b) (hoperand : a.type.equivalent b.type = true)
      (ht : t.equivalent u = true) : Mirrors R (.unary k a t) (.unary k b u)
  | member {a b : Node} {m : DataMember} (he : Mirrors R a b) : Mirrors R (.member a m) (.member b m)
  | call {m n : Method} {as bs : List Node} (hm : m.Mirrors n) (ha : MirrorsAll R as bs) :
      Mirrors R (.call m as) (.call n bs)
  | callOn {m n : Method} {a b : Node} {as bs : List Node} (hm : m.Mirrors n) (he : Mirrors R a b)
      (ha : MirrorsAll R as bs) : Mirrors R (.callOn a m as) (.callOn b n bs)
  | conditional {a b c d e f : Node} (ht : Mirrors R a d) (h₁ : Mirrors R b e) (h₂ : Mirrors R c f) :
      Mirrors R (.conditional a b c) (.conditional d e f)
  | bare {k : Kind} {t u : Ty} : Mirrors R (.bare k t) (.bare k u)

/-- Do the nodes mirror each other one by one? -/
inductive MirrorsAll (R : Nat → Nat → Prop) : List Node → List Node → Prop where
  | nil : MirrorsAll R [] []
  | cons {a b : Node} {as bs : List Node} (h : Mirrors R a b) (hs : MirrorsAll R as bs) :
      MirrorsAll R (a :: as) (b :: bs)

end

mutual

theorem Mirrors.refl : ∀ n : Node, Mirrors Eq n n
  | .constant .. => .constant
  | .parameter _ => .parameter rfl
  | .lambda _ body => .lambda (List.forall₂_refl _) (.refl body)
  | .binary _ left right _ => .binary (.refl left) (.refl right) (Ty.equivalent_refl _) (Ty.equivalent_refl _)
  | .converted left right _ body => .converted (.refl left) (.refl right) rfl (.refl body)
  | .unary _ operand _ => .unary (.refl operand) (Ty.equivalent_refl _) (Ty.equivalent_refl _)
  | .member e _ => .member (.refl e)
  | .call _ args => .call ⟨rfl, rfl⟩ (.refl args)
  | .callOn target _ args => .callOn ⟨rfl, rfl⟩ (.refl target) (.refl args)
  | .conditional test ifTrue ifFalse => .conditional (.refl test) (.refl ifTrue) (.refl ifFalse)
  | .bare .. => .bare

theorem MirrorsAll.refl : ∀ ns : List Node, MirrorsAll Eq ns ns
  | [] => .nil
  | n :: ns => .cons (.refl n) (.refl ns)

end

variable {R : Nat → Nat → Prop}

/-- What is called of one part is called of its image. -/
theorem Iso.split {a c : Node} {ms ns : List Method} (h : Iso R a c)
    (hd : Method.DeclaredAlike (a.methods ++ ms) (c.methods ++ ns)) :
    Method.DeclaredAlike a.methods c.methods ∧ Method.DeclaredAlike ms ns := by
  have hlength := h.methods.length_eq
  have hleft := List.forall₂_take a.methods.length hd
  have hright := List.forall₂_drop a.methods.length hd
  rw [List.take_left, hlength, List.take_left] at hleft
  rw [List.drop_left, hlength, List.drop_left] at hright
  exact ⟨hleft, hright⟩

mutual

/-- Isomorphic nodes that call the same declarations mirror each other. -/
theorem Iso.mirrors : ∀ {n n' : Node}, Iso R n n' → Method.DeclaredAlike n.methods n'.methods → Mirrors R n n'
  | _, _, .constant _, _ => .constant
  | _, _, .parameter h, _ => .parameter h.number
  | _, _, .lambda hps hb, hd => .lambda (hps.imp fun _ _ h => h.number) (hb.mirrors hd)
  | _, _, .binary hl hr ht, hd => .binary (hl.mirrors (hl.split hd).1) (hr.mirrors (hl.split hd).2) hl.type ht
  | _, _, .converted hl hr hp hb, hd => by
    obtain ⟨hdl, hd⟩ := hl.split (by simpa [methods] using hd)
    obtain ⟨hdr, hdb⟩ := hr.split hd
    exact .converted (hl.mirrors hdl) (hr.mirrors hdr) hp.number (hb.mirrors hdb)
  | _, _, .unary ho ht, hd => .unary (ho.mirrors hd) ho.type ht
  | _, _, .member he, hd => .member (he.mirrors hd)
  | _, _, .call hm _ ha, .cons hdm hd => .call ⟨hdm, Method.isDefinition_same hm⟩ (ha.mirrors hd)
  | _, _, .callOn hm _ he ha, .cons hdm hd =>
    .callOn ⟨hdm, Method.isDefinition_same hm⟩ (he.mirrors (he.split hd).1) (ha.mirrors (he.split hd).2)

theorem IsoAll.mirrors : ∀ {as bs : List Node}, IsoAll R as bs →
    Method.DeclaredAlike (methodsOfAll as) (methodsOfAll bs) → MirrorsAll R as bs
  | _, _, .nil, _ => .nil
  | _, _, .cons h hs, hd => .cons (h.mirrors (h.split hd).1) (hs.mirrors (h.split hd).2)

end

theorem Copies.mirrors {n n' : Node} (h : Copies R n n') : Mirrors R n n' :=
  h.iso.mirrors h.declared

end Node

end ExprTree
