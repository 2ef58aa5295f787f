import ExprTree.Proofs.Node.Calls
import ExprTree.Proofs.Node.Congruence

/-!
# Copies

A copy of a node is isomorphic to it and calls the same declarations, so that
the same methods run. The typing rules make copies of what they are given
copies of.
-/

namespace ExprTree

/-- Are the methods one by one of the same declarations? -/
abbrev Method.DeclaredAlike (ms ns : List Method) : Prop :=
  List.Forall₂ (fun m n : Method => m.declaration = n.declaration) ms ns

namespace Node

mutual

/-- Isomorphic nodes call the same methods in the same order. -/
theorem Iso.methods {R : Nat → Nat → Prop} : ∀ {n n' : Node}, Iso R n n' →
    List.Forall₂ (fun m m' : Method => m.same m' = true) n.methods n'.methods
  | _, _, .constant _ => .nil
  | _, _, .parameter _ => .nil
  | _, _, .lambda _ hb => hb.methods
  | _, _, .binary hl hr _ => List.rel_append hl.methods hr.methods
  | _, _, .converted hl hr _ hb => List.rel_append (List.rel_append hl.methods hr.methods) hb.methods
  | _, _, .unary ho _ => ho.methods
  | _, _, .member he => he.methods
  | _, _, .call hm _ ha => .cons hm ha.methods
  | _, _, .callOn hm _ he ha => .cons hm (List.rel_append he.methods ha.methods)

theorem IsoAll.methods {R : Nat → Nat → Prop} : ∀ {as bs : List Node}, IsoAll R as bs →
    List.Forall₂ (fun m m' : Method => m.same m' = true) (methodsOfAll as) (methodsOfAll bs)
  | _, _, .nil => .nil
  | _, _, .cons h hs => List.rel_append h.methods hs.methods

end

/-- Is the node isomorphic, with calls of the same declarations? -/
structure Copies (R : Nat → Nat → Prop) (n n' : Node) : Prop where
  iso : Iso R n n'
  declared : Method.DeclaredAlike n.methods n'.methods

variable {l : Library} {R : Nat → Nat → Prop} {a b c d n : Node}

theorem Copies.all {as bs : List Node} (h : List.Forall₂ (Copies R) as bs) :
    List.Forall₂ (Iso R) as bs ∧ Method.DeclaredAlike (methodsOfAll as) (methodsOfAll bs) := by
  induction h with
  | nil => exact ⟨.nil, .nil⟩
  | cons h _ ih => exact ⟨.cons h.iso ih.1, List.rel_append h.declared ih.2⟩

theorem mkBinary_copies {k : Kind} (hl : Copies R a c) (hr : Copies R b d) (h : mkBinary l k a b = .ok n) :
    ∃ n', mkBinary l k c d = .ok n' ∧ Copies R n n' := by
  obtain ⟨n', hn', hiso⟩ := mkBinary_iso hl.iso hr.iso h
  refine ⟨n', hn', hiso, ?_⟩
  rw [methods_mkBinary h, methods_mkBinary hn']
  exact List.rel_append hl.declared hr.declared

theorem mkConverted_copies {k : Kind} {m m' : Node} (hl : Copies R a c) (hr : Copies R b d) (hm : Copies R m m')
    (h : mkConverted k a b m = .ok n) : ∃ n', mkConverted k c d m' = .ok n' ∧ Copies R n n' := by
  obtain ⟨n', hn', hiso⟩ := mkConverted_iso hl.iso hr.iso hm.iso h
  refine ⟨n', hn', hiso, ?_⟩
  rw [methods_mkConverted h, methods_mkConverted hn']
  exact List.rel_append (List.rel_append hl.declared hr.declared) hm.declared

theorem mkUnary_copies {k : Kind} {type : Option Ty} {u : Ty} (ho : Copies R a b) (h : mkUnary k a type = .ok n)
    (hu : n.type.equivalent u = true) (hgiven : given? (some u) = some u) :
    ∃ n', mkUnary k b (some u) = .ok n' ∧ Copies R n n' := by
  obtain ⟨n', hn', hiso⟩ := mkUnary_iso ho.iso h hu hgiven
  refine ⟨n', hn', hiso, ?_⟩
  rw [methods_mkUnary h, methods_mkUnary hn']
  exact ho.declared

theorem mkMember_copies {m : DataMember} (he : Copies R a b) (h : mkMember l a m = .ok n) :
    ∃ n', mkMember l b m = .ok n' ∧ Copies R n n' := by
  obtain ⟨n', hn', hiso⟩ := mkMember_iso he.iso h
  refine ⟨n', hn', hiso, ?_⟩
  rw [methods_mkMember h, methods_mkMember hn']
  exact he.declared

theorem mkCall_copies {m m' : Method} {as bs : List Node} {target target' : Option Node}
    (hm : m.same m' = true) (hdeclaration : m.declaration = m'.declaration)
    (hdefinition : m'.isDefinition = m.isDefinition) (hparameters : Ty.EquivalentAll m.parameterTypes m'.parameterTypes)
    (hresult : m.resultType.equivalent m'.resultType = true) (ht : Option.Rel (Copies R) target target')
    (ha : List.Forall₂ (Copies R) as bs) (h : mkCall l target m as = .ok n) :
    ∃ n', mkCall l target' m' bs = .ok n' ∧ Copies R n n' := by
  obtain ⟨hargs, hdeclared⟩ := Copies.all ha
  have htarget : Option.Rel (Iso R) target target' := by
    cases ht with
    | none => exact .none
    | some hcopy => exact .some hcopy.iso
  obtain ⟨n', hn', hiso⟩ := mkCall_iso hm hdefinition hparameters hresult htarget hargs h
  refine ⟨n', hn', hiso, ?_⟩
  rw [methods_mkCall h, methods_mkCall hn']
  refine .cons hdeclaration (List.rel_append ?_ hdeclared)
  cases ht with
  | none => exact .nil
  | some hcopy => exact hcopy.declared

end Node

end ExprTree
