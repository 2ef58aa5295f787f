import ExprTree.Proofs.Member
import ExprTree.Signature.Encode
import ExprTree.Host.Sample

/-!
# Closing methods over types

Putting types for the open parameters of a type leaves none of them, except
where the null value is put: that stands for "leave it", and the parameter
stays. So a definition that is closed over other closed types is closed
altogether, and what it remembers and how it is written are its definition's.
-/

namespace ExprTree

namespace Ty

variable {as : List Ty} {t : Ty} {p : Nat}

/-! ## Open parameters that stay -/

theorem mem_positions_of_same {a b : Ty} (h : same a b = true) (hp : p ∈ a.positions) : p ∈ b.positions := by
  induction a using induct_shape generalizing b with
  | leaf a ha =>
    obtain rfl | ⟨q, n, m, rfl, rfl⟩ := same_leaf_left ha h
    · exact hp
    · exact hp
  | union a as ha ih =>
    obtain ⟨horigin, rfl⟩ := members?_origin ha
    obtain ⟨bs, hb, hall, -⟩ := same_union_left ha h
    obtain ⟨-, rfl⟩ := members?_origin hb
    rw [positions_applied horigin] at hp
    obtain ⟨x, hx, hp⟩ := List.mem_flatMap.mp hp
    obtain ⟨y, hy, hxy⟩ := hall x hx
    exact mem_positions_of_argument hy (ih x hx hxy hp)
  | generic o as ho _ ih =>
    obtain ⟨o', bs, rfl, -, -, hall⟩ := same_generic_left ho h
    rw [positions_applied rfl] at hp
    obtain ⟨x, hx, hp⟩ := List.mem_flatMap.mp hp
    obtain ⟨y, hy, hxy⟩ := forall₂_mem hall hx
    exact mem_positions_of_argument hy (ih x hx hxy hp)

theorem exists_unionMembers_positions (hp : p ∈ t.positions) : ∃ m ∈ unionMembers t, p ∈ m.positions := by
  unfold unionMembers
  split
  · split
    · exact ⟨_, by simp, hp⟩
    · rw [positions_applied rfl] at hp
      exact List.mem_flatMap.mp hp
  · rw [positions_applied rfl] at hp
    exact List.mem_flatMap.mp hp
  · cases hp
  · exact ⟨_, by simp, hp⟩

theorem mem_positions_close {o a : Ty} (ha : a ∈ as) (hp : p ∈ a.positions) : p ∈ (close o as).positions := by
  have hgeneric {o a : Ty} {as : List Ty} (ha : a ∈ as) (hp : p ∈ a.positions) : p ∈ (Ty.generic o as).positions :=
    mem_positions_of_argument ha hp
  unfold close
  split
  · cases ha
  · unfold unionOf
    split
    · exact hgeneric ha hp
    · obtain ⟨m, hm, hp⟩ := exists_unionMembers_positions hp
      have hkept : (dedup (as.flatMap unionMembers)).any (same m) = true := by
        rw [any_same_dedup]
        exact List.any_eq_true.mpr ⟨m, List.mem_flatMap.mpr ⟨a, ha, hm⟩, same_refl m⟩
      -- a duplicate that is dropped has no open parameter that the one that is kept has not
      obtain ⟨u, hu, hsame⟩ := List.any_eq_true.mp hkept
      have hp := mem_positions_of_same hsame hp
      split
      · next t ht =>
        rw [ht, List.mem_singleton] at hu
        exact hu ▸ hp
      · exact hgeneric hu hp
  · exact hgeneric ha hp

theorem eq_parameter_of_positions (ht : t.origin? = none) (hp : p ∈ t.positions) : ∃ n, t = .parameter p n := by
  cases t with
  | parameter q n =>
    obtain rfl : p = q := by simpa [positions] using hp
    exact ⟨n, rfl⟩
  | generic o as => cases ht
  | bar ms => cases ht
  | _ => cases hp

/-- Put closed types for all open parameters, and those that are left are the ones the null value was put for. -/
theorem mem_positions_substitute (ht : ∀ q ∈ t.positions, q < as.length) (has : ∀ a ∈ as, a.isOpen = false) :
    p ∈ (t.substitute as).positions ↔ p ∈ t.positions ∧ as[p]? = some (.literal .none) := by
  refine ⟨null_of_mem_positions_substitute ht has, ?_⟩
  rintro ⟨hp, hnull⟩
  clear ht
  induction t using induct_arguments with
  | step t ih =>
    cases ho : t.origin? with
    | none =>
      obtain ⟨n, rfl⟩ := eq_parameter_of_positions ho hp
      rw [substitute_parameter, hnull]
      exact hp
    | some o =>
      rw [positions_applied ho] at hp
      obtain ⟨a, ha, hp⟩ := List.mem_flatMap.mp hp
      rw [substitute_applied ho (List.ne_nil_of_mem ha)]
      exact mem_positions_close (List.mem_map_of_mem ha) (ih a ha hp)

end Ty

namespace Method

def types (m : Method) : List Ty :=
  m.parameterTypes ++ [m.resultType]

/-- One method is the other closed over types: it has its types, with open parameters left only where the null value
was put for them, it remembers it, is written as it is, and cannot be closed over anything again. -/
structure IsClosing (m : Method) (as : List Ty) (n : Method) : Prop where
  types : List.Forall₂ (fun t u => ∀ p, p ∈ u.positions ↔ p ∈ t.positions ∧ as[p]? = some (.literal .none))
    m.types n.types
  definition : n.definition? = .ok m
  text : Signature.encodeMember n = Signature.encodeMember m
  final : ∀ bs, n.close bs = .error (.notDefinition m.name)

variable {m n : Method} {as : List Ty}

theorem types_eq (m : Method) :
    m.types = (m.declaration.parameters.map (·.2) ++ [m.declaration.result]).map m.instantiate := by
  simp [types, parameterTypes, resultType]

theorem types_definition (hm : m.arguments = []) :
    m.types = m.declaration.parameters.map (·.2) ++ [m.declaration.result] := by
  rw [types_eq, List.map_congr_left (g := id) fun t _ => by simp [instantiate, hm], List.map_id]

theorem IsNumbered.types (h : m.IsNumbered) (hm : m.arguments = []) : ∀ t ∈ m.types, ∀ p ∈ t.positions, p < m.arity :=
  types_definition hm ▸ h

theorem IsNumbered.closing (h : m.IsNumbered) (hm : m.arguments = []) (hn : m.close as = .ok n) : m.IsClosing as n := by
  have hagain := isDefinition_of_close hn
  obtain ⟨hdefinition, hlength, hclosed, rfl⟩ := close_eq_ok.mp hn
  have hgeneric : m.isGeneric = true := by
    rw [isDefinition, Bool.and_eq_true] at hdefinition
    exact hdefinition.1
  have hne : as.isEmpty = false := by
    rw [isGeneric, decide_eq_true_eq] at hgeneric
    simpa using List.ne_nil_of_length_pos (hlength ▸ hgeneric)
  have hdrop : Method.definition { m with arguments := as } = m := by
    rw [definition, ← hm]
  refine ⟨?_, ?_, ?_, fun bs => ?_⟩
  · rw [types_definition hm, types_eq, List.forall₂_map_right_iff, List.forall₂_same]
    intro t ht p
    rw [instantiate, if_neg (by simp [hne])]
    exact Ty.mem_positions_substitute (hlength ▸ h t ht) hclosed
  · rw [definition?, hdrop]
    exact if_pos hgeneric
  · have hself : m.definition = m := by rw [definition, ← hm]
    rw [Signature.encodeMember, Signature.encodeMember, hdrop, hself]
    rfl
  · rw [close, hagain]
    rfl

theorem IsClosing.isOpen (h : m.IsClosing as n) (hnull : ∀ a ∈ as, a ≠ .literal .none) :
    ∀ t ∈ n.types, t.isOpen = false := by
  intro u hu
  obtain ⟨t, -, ht⟩ := forall₂_mem h.types.flip hu
  rw [Ty.isOpen_eq_false_iff, List.eq_nil_iff_forall_not_mem]
  intro p hp
  obtain ⟨-, hp⟩ := (ht p).mp hp
  exact hnull _ (List.mem_of_getElem? hp) rfl

/-- Methods that are found number their open parameters below their arity, so that closing a definition over closed
types, one for each, leaves none open but where the null value is put; over anything else it is not closed. -/
theorem close_reflect (p : Prototype) (info : ClassInfo) (name : String) (b : Binding) (as : List Ty) :
    (∀ t ∈ (p.reflect info name b).types, ∀ q ∈ t.positions, q < (p.reflect info name b).arity) ∧
    ((p.reflect info name b).arity = 0 → ∀ t ∈ (p.reflect info name b).types, t.isOpen = false) ∧
    (0 < (p.reflect info name b).arity → as.length = (p.reflect info name b).arity → (∀ a ∈ as, a.isOpen = false) →
      ∃ n, (p.reflect info name b).close as = .ok n ∧ (p.reflect info name b).IsClosing as n ∧
        ((∀ a ∈ as, a ≠ .literal .none) → ∀ t ∈ n.types, t.isOpen = false)) ∧
    ((p.reflect info name b).arity = 0 ∨ as.length ≠ (p.reflect info name b).arity ∨ (∃ a ∈ as, a.isOpen = true) →
      ∃ e, (p.reflect info name b).close as = .error e) := by
  have hnumbered := isNumbered_reflect p info name b
  have harguments : (p.reflect info name b).arguments = [] := rfl
  generalize p.reflect info name b = m at hnumbered harguments
  refine ⟨hnumbered.types harguments, fun hzero t ht => ?_, fun hpos hlength hclosed => ?_, fun hbad => ?_⟩
  · rw [Ty.isOpen_eq_false_iff, List.eq_nil_iff_forall_not_mem]
    intro q hq
    have hlt := hnumbered.types harguments t ht q hq
    omega
  · have hdefinition : m.isDefinition = true := by simp [isDefinition, isGeneric, harguments, hpos]
    have hclose := close_eq_ok.mpr ⟨hdefinition, hlength, hclosed, rfl⟩
    have hclosing := hnumbered.closing harguments hclose
    exact ⟨_, hclose, hclosing, hclosing.isOpen⟩
  · cases hclose : m.close as with
    | error e => exact ⟨e, rfl⟩
    | ok n =>
      obtain ⟨hdefinition, hlength, hclosed, -⟩ := close_eq_ok.mp hclose
      obtain hzero | hwrong | ⟨a, ha, hopen⟩ := hbad
      · simp [isDefinition, isGeneric, hzero] at hdefinition
      · exact absurd hlength hwrong
      · rw [hclosed a ha] at hopen
        cases hopen

/-- A function from a value of any type to the list of it. -/
def wrapPrototype : Prototype :=
  ⟨Sample.valueParameter Sample.t, Sample.known (.close .list [Sample.t]), none⟩

example : Sample.counterClass.attributes.lookup "wrap" = some (.method .onInstance [wrapPrototype]) := rfl

theorem close_reflect_wrap :
    (wrapPrototype.reflect Sample.counterClass "wrap" .onInstance).arity = 1 ∧
      (∀ a ∈ [Ty.int], a.isOpen = false ∧ a ≠ .literal .none) ∧
      ∃ n, (wrapPrototype.reflect Sample.counterClass "wrap" .onInstance).close [.int] = .ok n ∧
        (wrapPrototype.reflect Sample.counterClass "wrap" .onInstance).IsClosing [.int] n ∧
        ∀ t ∈ n.types, t.isOpen = false := by
  have harity : (wrapPrototype.reflect Sample.counterClass "wrap" .onInstance).arity = 1 := rfl
  have harguments : ∀ a ∈ [Ty.int], a.isOpen = false ∧ a ≠ .literal .none := by
    simp [Ty.int, Ty.isOpen, Ty.positions]
  obtain ⟨-, -, hclosed, -⟩ := close_reflect wrapPrototype Sample.counterClass "wrap" .onInstance [.int]
  obtain ⟨n, hn, hclosing, hnone⟩ := hclosed (by rw [harity]; decide) rfl fun a ha => (harguments a ha).1
  exact ⟨harity, harguments, n, hn, hclosing, hnone fun a ha => (harguments a ha).2⟩

/-- Over the null value, which is closed, the method is closed in name only. -/
theorem close_leaves_open :
    (Ty.literal .none).isOpen = false ∧
      (wrapPrototype.reflect Sample.counterClass "wrap" .onInstance).arity = 1 ∧
      ∃ n, (wrapPrototype.reflect Sample.counterClass "wrap" .onInstance).close [.literal .none] = .ok n ∧
        n.isDefinition = false ∧ n.types = [.parameter 0 "T", .generic .list [.parameter 0 "T"]] ∧
        ∀ t ∈ n.types, t.isOpen = true :=
  ⟨rfl, rfl, _, rfl, rfl, rfl, by decide +kernel⟩

end Method

end ExprTree
