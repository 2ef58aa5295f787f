import ExprTree.Node
import ExprTree.Proofs.Member
import ExprTree.Proofs.Node.Building
import Mathlib.Data.List.Forall2
import Mathlib.Data.Set.Function
import Mathlib.Logic.Relator

/-!
# Isomorphic nodes

Two trees are isomorphic under a correspondence of parameters when they agree
node by node: in kind, value, member, method and name, and in types up to
equivalence. Equality of numbers is what makes parameters the same, so it is
the numbers that correspond.
-/

namespace ExprTree

/-- Do the parameters correspond, with equivalent types and the same name? -/
structure Parameter.Iso (R : Nat → Nat → Prop) (p q : Parameter) : Prop where
  number : R p.number q.number
  type : p.type.equivalent q.type = true
  name : p.name = q.name

theorem Parameter.Iso.mono {R S : Nat → Nat → Prop} (hRS : ∀ a b, R a b → S a b) {p q : Parameter} (h : p.Iso R q) :
    p.Iso S q :=
  ⟨hRS _ _ h.number, h.type, h.name⟩

namespace Node

mutual

inductive Iso (R : Nat → Nat → Prop) : Node → Node → Prop where
  | constant {v : Value} {t u : Ty} (ht : t.equivalent u = true) : Iso R (.constant v t) (.constant v u)
  | parameter {p q : Parameter} (h : Parameter.Iso R p q) : Iso R (.parameter p) (.parameter q)
  | lambda {ps qs : List Parameter} {b c : Node} (hps : List.Forall₂ (Parameter.Iso R) ps qs) (hb : Iso R b c) :
      Iso R (.lambda ps b) (.lambda qs c)
  | binary {k : Kind} {a b c d : Node} {t u : Ty} (hl : Iso R a c) (hr : Iso R b d) (ht : t.equivalent u = true) :
      Iso R (.binary k a b t) (.binary k c d u)
  | converted {a b c d m n : Node} {p q : Parameter} (hl : Iso R a c) (hr : Iso R b d) (hp : Parameter.Iso R p q)
      (hb : Iso R m n) : Iso R (.converted a b p m) (.converted c d q n)
  | unary {k : Kind} {a b : Node} {t u : Ty} (ho : Iso R a b) (ht : t.equivalent u = true) :
      Iso R (.unary k a t) (.unary k b u)
  | member {a b : Node} {m : DataMember} (he : Iso R a b) : Iso R (.member a m) (.member b m)
  | call {m n : Method} {as bs : List Node} (hm : m.same n = true) (ht : m.resultType.equivalent n.resultType = true)
      (ha : IsoAll R as bs) : Iso R (.call m as) (.call n bs)
  | callOn {m n : Method} {a b : Node} {as bs : List Node} (hm : m.same n = true)
      (ht : m.resultType.equivalent n.resultType = true) (he : Iso R a b) (ha : IsoAll R as bs) :
      Iso R (.callOn a m as) (.callOn b n bs)

/-- Are the nodes isomorphic one by one? -/
inductive IsoAll (R : Nat → Nat → Prop) : List Node → List Node → Prop where
  | nil : IsoAll R [] []
  | cons {a b : Node} {as bs : List Node} (h : Iso R a b) (hs : IsoAll R as bs) : IsoAll R (a :: as) (b :: bs)

end

variable {R : Nat → Nat → Prop} {n n' : Node}

theorem isoAll_iff {as bs : List Node} : IsoAll R as bs ↔ List.Forall₂ (Iso R) as bs := by
  constructor
  · intro h
    induction as generalizing bs with
    | nil => cases h; exact .nil
    | cons a as ih => cases h with | cons h hs => exact .cons h (ih hs)
  · intro h
    induction h with
    | nil => exact .nil
    | cons h _ ih => exact .cons h ih

/-- Functions from equivalent parameters to equivalent results have equivalent types. -/
theorem function_congr {ps qs : List Ty} {t u : Ty} (hps : Ty.EquivalentAll ps qs) (ht : t.equivalent u = true) :
    (Ty.function ps t).equivalent (Ty.function qs u) = true := by
  have hfunction (ts : List Ty) (r : Ty) : Ty.function ts r = .generic .callable (ts ++ [r]) := by
    unfold Ty.function Ty.close
    split
    · next h => simp at h
    · next heq _ => cases heq
    · rfl
  rw [hfunction, hfunction, Ty.equivalent_applied (o := .callable) rfl]
  exact ⟨.callable, rfl, Ty.same_refl _, List.rel_append hps (.cons ht .nil)⟩

/-- Isomorphic nodes have equivalent static types. -/
theorem Iso.type {n n' : Node} (h : Iso R n n') : n.type.equivalent n'.type = true := by
  cases h with
  | constant ht => exact ht
  | parameter h => exact h.type
  | lambda hps hb =>
    refine function_congr ?_ hb.type
    rw [Ty.EquivalentAll, List.forall₂_map_left_iff, List.forall₂_map_right_iff]
    exact hps.imp fun _ _ h => h.type
  | binary _ _ ht => exact ht
  | converted _ hr _ _ => exact hr.type
  | unary _ ht => exact ht
  | member _ => exact Ty.equivalent_refl _
  | call _ ht _ => exact ht
  | callOn _ ht _ _ => exact ht

mutual

theorem Iso.mono {S : Nat → Nat → Prop} (hRS : ∀ a b, R a b → S a b) : ∀ {n n' : Node}, Iso R n n' → Iso S n n'
  | _, _, .constant ht => .constant ht
  | _, _, .parameter h => .parameter (h.mono hRS)
  | _, _, .lambda hps hb => .lambda (hps.imp fun _ _ h => h.mono hRS) (hb.mono hRS)
  | _, _, .binary hl hr ht => .binary (hl.mono hRS) (hr.mono hRS) ht
  | _, _, .converted hl hr hp hb => .converted (hl.mono hRS) (hr.mono hRS) (hp.mono hRS) (hb.mono hRS)
  | _, _, .unary ho ht => .unary (ho.mono hRS) ht
  | _, _, .member he => .member (he.mono hRS)
  | _, _, .call hm ht ha => .call hm ht (ha.mono hRS)
  | _, _, .callOn hm ht he ha => .callOn hm ht (he.mono hRS) (ha.mono hRS)

theorem IsoAll.mono {S : Nat → Nat → Prop} (hRS : ∀ a b, R a b → S a b) : ∀ {as bs : List Node}, IsoAll R as bs → IsoAll S as bs
  | _, _, .nil => .nil
  | _, _, .cons h hs => .cons (h.mono hRS) (hs.mono hRS)

end

/-! ## Parameters -/

mutual

/-- The parameters of a node, wherever it mentions them. -/
def parameters : Node → List Parameter
  | .constant .. | .bare .. => []
  | .parameter p => [p]
  | .lambda ps body => ps ++ body.parameters
  | .binary _ left right _ => left.parameters ++ right.parameters
  | .converted left right p body => left.parameters ++ right.parameters ++ p :: body.parameters
  | .unary _ operand _ => operand.parameters
  | .member e _ => e.parameters
  | .call _ args => parametersOfAll args
  | .callOn target _ args => target.parameters ++ parametersOfAll args
  | .conditional test ifTrue ifFalse => test.parameters ++ ifTrue.parameters ++ ifFalse.parameters
termination_by structural n => n

def parametersOfAll : List Node → List Parameter
  | [] => []
  | n :: ns => n.parameters ++ parametersOfAll ns
termination_by structural ns => ns

end

theorem mem_parametersOfAll {p : Parameter} {ns : List Node} : p ∈ parametersOfAll ns ↔ ∃ n ∈ ns, p ∈ n.parameters := by
  induction ns with
  | nil => simp [parametersOfAll]
  | cons n ns ih => simp [parametersOfAll, ih]

/-- Parameters of the instance come before those of the arguments. -/
theorem parameters_callOf (m : Method) (arguments : List Node) (target : Option Node) :
    (callOf m arguments target).parameters = (target.map parameters).getD [] ++ parametersOfAll arguments := by
  cases target with
  | none => rfl
  | some t => rfl

theorem mem_parameters_callOf {p : Parameter} {m : Method} {arguments : List Node} {target : Option Node} :
    p ∈ (callOf m arguments target).parameters ↔
      (∃ t, target = some t ∧ p ∈ t.parameters) ∨ ∃ a ∈ arguments, p ∈ a.parameters := by
  cases target with
  | none => simp [parameters_callOf, mem_parametersOfAll]
  | some t => simp [parameters_callOf, mem_parametersOfAll]

mutual

theorem Iso.parameters : ∀ {n n' : Node}, Iso R n n' → List.Forall₂ (Parameter.Iso R) n.parameters n'.parameters
  | _, _, .constant _ => .nil
  | _, _, .parameter h => .cons h .nil
  | _, _, .lambda hps hb => List.rel_append hps hb.parameters
  | _, _, .binary hl hr _ => List.rel_append hl.parameters hr.parameters
  | _, _, .converted hl hr hp hb => List.rel_append (List.rel_append hl.parameters hr.parameters) (.cons hp hb.parameters)
  | _, _, .unary ho _ => ho.parameters
  | _, _, .member he => he.parameters
  | _, _, .call _ _ ha => ha.parameters
  | _, _, .callOn _ _ he ha => List.rel_append he.parameters ha.parameters

theorem IsoAll.parameters : ∀ {as bs : List Node}, IsoAll R as bs →
    List.Forall₂ (Parameter.Iso R) (parametersOfAll as) (parametersOfAll bs)
  | _, _, .nil => .nil
  | _, _, .cons h hs => List.rel_append h.parameters hs.parameters

end

/-- The numbers of the parameters of a node. -/
def numbers (n : Node) : Set Nat :=
  {a | ∃ p ∈ n.parameters, p.number = a}

/-- A correspondence that is one to one is a bijection of the parameters of the nodes. -/
theorem Iso.exists_bijOn (hR : Relator.BiUnique R) (h : Iso R n n') :
    ∃ ρ, Set.BijOn ρ n.numbers n'.numbers ∧ Iso (fun a b => ρ a = b) n n' := by
  classical
  let ρ (a : Nat) : Nat := if hb : ∃ b, R a b then hb.choose else a
  have himage {a b : Nat} (hab : R a b) : ρ a = b := by
    have hb : ∃ b, R a b := ⟨b, hab⟩
    exact (dif_pos hb).trans (hR.2 hb.choose_spec hab)
  have hall := h.parameters
  refine ⟨ρ, ⟨?_, ?_, ?_⟩, h.mono fun a b => himage⟩
  · rintro _ ⟨p, hp, rfl⟩
    obtain ⟨q, hq, hpq⟩ := forall₂_mem hall hp
    exact ⟨q, hq, (himage hpq.number).symm⟩
  · rintro _ ⟨p, hp, rfl⟩ _ ⟨p', hp', rfl⟩ heq
    obtain ⟨q, -, hpq⟩ := forall₂_mem hall hp
    obtain ⟨q', -, hpq'⟩ := forall₂_mem hall hp'
    have hsame : q.number = q'.number := (himage hpq.number).symm.trans (heq.trans (himage hpq'.number))
    exact hR.1 hpq.number (hsame ▸ hpq'.number)
  · rintro _ ⟨q, hq, rfl⟩
    obtain ⟨p, hp, hqp⟩ := forall₂_mem hall.flip hq
    exact ⟨p.number, ⟨p, hp, rfl⟩, himage hqp.number⟩

end Node

end ExprTree
