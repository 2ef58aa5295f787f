import ExprTree.Eval.Check
import ExprTree.Proofs.Node.Building

/-!
# Scopes

A parameter that occurs in a tree is bound if a lambda around it binds it. The
check of a tree that the builders made fails if and only if an occurrence is
not bound, and then it names the parameter of such an occurrence: the builders
leave no other reason to fail.
-/

namespace ExprTree.Node

variable {l : Library} {scope : Scope}

/-! ## Occurrences -/

/-- The parts of a node in the order in which they are checked, each with the numbers that the node binds there. -/
def parts : Node → List (Scope × Node)
  | .lambda ps body => [(ps.map (·.number), body)]
  | .binary _ left right _ => [([], right), ([], left)]
  | .converted left right p body => [([], right), ([], left), ([p.number], body)]
  | .unary _ operand _ => [([], operand)]
  | .member e _ => [([], e)]
  | .call _ args => args.map fun a => ([], a)
  | .callOn target _ args => ([], target) :: args.map fun a => ([], a)
  | .conditional test ifTrue ifFalse => [([], test), ([], ifTrue), ([], ifFalse)]
  | .constant .. | .parameter _ | .bare .. => []

/-- Does a parameter occur in a tree, below lambdas that bind these numbers? Where a lambda lists it, it does not. -/
inductive Occurs (p : Parameter) : Scope → Node → Prop where
  | here : Occurs p [] (.parameter p)
  | within {own bound : Scope} {n m : Node} (hm : (own, m) ∈ n.parts) (h : Occurs p bound m) : Occurs p (bound ++ own) n

theorem sizeOf_part {own : Scope} {n m : Node} (hm : (own, m) ∈ n.parts) : sizeOf m < sizeOf n := by
  have harg {ns : List Node} (h : m ∈ ns) : sizeOf m < sizeOf ns := List.sizeOf_lt_of_mem h
  cases n with
  | call method args =>
    simp only [parts, List.mem_map, Prod.mk.injEq] at hm
    obtain ⟨a, ha, -, rfl⟩ := hm
    have := harg ha
    simp only [call.sizeOf_spec]
    omega
  | callOn target method args =>
    simp only [parts, List.mem_cons, List.mem_map, Prod.mk.injEq] at hm
    obtain ⟨-, rfl⟩ | ⟨a, ha, -, rfl⟩ := hm
    · simp only [callOn.sizeOf_spec]
      omega
    · have := harg ha
      simp only [callOn.sizeOf_spec]
      omega
  | constant => simp [parts] at hm
  | parameter => simp [parts] at hm
  | bare => simp [parts] at hm
  | _ =>
    simp [parts] at hm
    grind

/-! ## Trees of the builders -/

/-- Is a tree made by the builders, from the leaves up? -/
inductive IsMade (l : Library) : Node → Prop where
  | constant {h : Heap} {v : Value} {type : Option Ty} {n : Node} (hn : mkConstant l h v type = .ok n) : IsMade l n
  | parameter (p : Parameter) : IsMade l (.parameter p)
  | lambda {parameters : List Node} {body n : Node} (hbody : IsMade l body) (hn : mkLambda parameters body = .ok n) :
      IsMade l n
  | binary {k : Kind} {left right n : Node} (hleft : IsMade l left) (hright : IsMade l right)
      (hn : mkBinary l k left right = .ok n) : IsMade l n
  | converted {k : Kind} {left right conversion n : Node} (hleft : IsMade l left) (hright : IsMade l right)
      (hconversion : IsMade l conversion) (hn : mkConverted k left right conversion = .ok n) : IsMade l n
  | unary {k : Kind} {operand n : Node} {type : Option Ty} (hoperand : IsMade l operand)
      (hn : mkUnary k operand type = .ok n) : IsMade l n
  | member {e n : Node} {m : DataMember} (he : IsMade l e) (hn : mkMember l e m = .ok n) : IsMade l n
  | call {m : Method} {args : List Node} {n : Node} (hargs : ∀ a ∈ args, IsMade l a)
      (hn : mkCall l none m args = .ok n) : IsMade l n
  | callOn {target : Node} {m : Method} {args : List Node} {n : Node} (htarget : IsMade l target)
      (hargs : ∀ a ∈ args, IsMade l a) (hn : mkCall l (some target) m args = .ok n) : IsMade l n
  | conditional {test ifTrue ifFalse n : Node} (htest : IsMade l test) (hifTrue : IsMade l ifTrue)
      (hifFalse : IsMade l ifFalse) (hn : mkConditional test ifTrue ifFalse = .ok n) : IsMade l n

/-- A member that is looked up by name is accessed like one that is given. -/
theorem IsMade.named {lookup : ClassName → String → Except MemberFault DataMember} {e n : Node} {name : String}
    (he : e.IsMade l) (hn : mkNamed l lookup e name = .ok n) : n.IsMade l := by
  obtain ⟨c, -, hfound⟩ := bind_eq_ok.mp hn
  cases hlookup : lookup c name with
  | ok m =>
    rw [hlookup] at hfound
    exact .member he hfound
  | error fault =>
    rw [hlookup] at hfound
    cases hfound

theorem IsMade.part {n : Node} (hn : n.IsMade l) : ∀ {own m}, (own, m) ∈ n.parts → m.IsMade l := by
  induction hn with
  | constant hn =>
    obtain ⟨-, rfl⟩ := mkConstant_eq_ok.mp hn
    intro own m hm
    simp [parts] at hm
  | parameter p =>
    intro own m hm
    simp [parts] at hm
  | lambda hbody hn =>
    obtain ⟨ps, -, -, rfl⟩ := mkLambda_eq_ok.mp hn
    intro own m hm
    simp only [parts, List.mem_singleton, Prod.mk.injEq] at hm
    exact hm.2 ▸ hbody
  | binary hleft hright hn =>
    obtain ⟨b, t, rfl, -, rfl⟩ := mkBinary_eq_ok.mp hn
    intro own m hm
    simp only [parts, List.mem_cons, Prod.mk.injEq, List.not_mem_nil, or_false] at hm
    obtain ⟨-, rfl⟩ | ⟨-, rfl⟩ := hm
    · exact hright
    · exact hleft
  | converted hleft hright _ hn _ _ ih =>
    -- the node holds the body of the lambda that was given, which is a part of that lambda
    obtain ⟨p, body, -, rfl, -, -, rfl⟩ := mkConverted_eq_ok.mp hn
    intro own m hm
    simp only [parts, List.mem_cons, Prod.mk.injEq, List.not_mem_nil, or_false] at hm
    obtain ⟨-, rfl⟩ | ⟨-, rfl⟩ | ⟨-, rfl⟩ := hm
    · exact hright
    · exact hleft
    · have hbody : ([p.number], m) ∈ (Node.lambda [p] m).parts := by simp [parts]
      exact ih hbody
  | unary hoperand hn =>
    obtain ⟨u, t, -, rfl⟩ := mkUnary_shape hn
    intro own m hm
    simp only [parts, List.mem_singleton, Prod.mk.injEq] at hm
    exact hm.2 ▸ hoperand
  | member he hn =>
    obtain ⟨-, rfl⟩ := mkMember_eq_ok.mp hn
    intro own m hm
    simp only [parts, List.mem_singleton, Prod.mk.injEq] at hm
    exact hm.2 ▸ he
  | call hargs hn =>
    obtain ⟨-, -, -, rfl⟩ := mkCall_eq_ok.mp hn
    intro own m hm
    simp only [callOf, parts, List.mem_map, Prod.mk.injEq] at hm
    obtain ⟨a, ha, -, rfl⟩ := hm
    exact hargs a ha
  | callOn htarget hargs hn =>
    obtain ⟨-, -, -, rfl⟩ := mkCall_eq_ok.mp hn
    intro own m hm
    simp only [callOf, parts, List.mem_cons, List.mem_map, Prod.mk.injEq] at hm
    obtain ⟨-, rfl⟩ | ⟨a, ha, -, rfl⟩ := hm
    · exact htarget
    · exact hargs a ha
  | conditional htest hifTrue hifFalse hn =>
    obtain ⟨-, -, rfl⟩ := mkConditional_eq_ok.mp hn
    intro own m hm
    simp only [parts, List.mem_cons, Prod.mk.injEq, List.not_mem_nil, or_false] at hm
    obtain ⟨-, rfl⟩ | ⟨-, rfl⟩ | ⟨-, rfl⟩ := hm
    · exact htest
    · exact hifTrue
    · exact hifFalse

/-! ## Checking part by part -/

def checkEach (scope : Scope) : List (Scope × Node) → Except CompileFault Unit
  | [] => .ok ()
  | (own, n) :: ps => do
    check (own ++ scope) n
    checkEach scope ps

theorem checkAll_eq (ns : List Node) : checkAll scope ns = checkEach scope (ns.map fun n => ([], n)) := by
  induction ns with
  | nil => rfl
  | cons n ns ih => simp [checkAll, checkEach, ih]

/-- Checking a target that can hold a value is checking it as an expression. -/
theorem checkTarget_eq {n : Node} (h : requireWritable n = .ok ()) : checkTarget scope n = check scope n := by
  cases n with
  | parameter p => rfl
  | member e m => rfl
  | _ => simp [requireWritable] at h

theorem requireWritable_of_assign {t : Ty} {left right : Node} (h : binaryType l .assign left right = .ok t) :
    requireWritable left = .ok () := by
  obtain ⟨_, hleft, -⟩ := bind_eq_ok.mp h
  exact hleft

theorem requireWritable_of_compound {o : Operation} {t : Ty} {left right : Node}
    (h : binaryType l (.compound o) left right = .ok t) : requireWritable left = .ok () := by
  obtain ⟨_, hleft, -⟩ := bind_eq_ok.mp h
  exact hleft

theorem requireWritable_of_step {k : StepKind} {t : Ty} {operand : Node} (h : unaryType (.step k) operand = .ok t) :
    requireWritable operand = .ok () := by
  obtain ⟨_, hoperand, -⟩ := bind_eq_ok.mp h
  exact hoperand

theorem check_twice (x : Except CompileFault Unit) : (do x; x) = x := by
  cases x <;> rfl

theorem check_last (x : Except CompileFault Unit) : (do x; .ok ()) = x := by
  cases x <;> rfl

/-- A node of the builders is checked by checking its parts. -/
theorem check_eq_checkEach {n : Node} (hn : n.IsMade l) (hp : ∀ p, n ≠ .parameter p) :
    check scope n = checkEach scope n.parts := by
  cases hn with
  | constant hn =>
    obtain ⟨-, rfl⟩ := mkConstant_eq_ok.mp hn
    rfl
  | parameter p => exact (hp p rfl).elim
  | lambda _ hn =>
    obtain ⟨ps, -, -, rfl⟩ := mkLambda_eq_ok.mp hn
    simp only [check, parts, checkEach, check_last]
  | @binary k left right _ _ _ hn =>
    obtain ⟨b, t, rfl, htype, rfl⟩ := mkBinary_eq_ok.mp hn
    simp only [parts, checkEach, List.nil_append, check_last]
    cases b with
    | assign => simp only [check, checkTarget_eq (requireWritable_of_assign htype)]
    | compound o => simp only [check, checkTarget_eq (requireWritable_of_compound htype), check_twice]
    | _ => simp only [check]
  | converted _ _ _ hn =>
    obtain ⟨p, body, -, -, -, -, rfl⟩ := mkConverted_eq_ok.mp hn
    simp only [check, parts, checkEach, List.nil_append, List.singleton_append, check_last]
  | @unary k operand _ type _ hn =>
    obtain ⟨u, rfl⟩ := mkUnary_kind hn
    by_cases hstep : ∃ k, u = .step k
    · obtain ⟨k, rfl⟩ := hstep
      obtain ⟨t, htype, -, rfl⟩ := (mkUnary_eq_ok fun c h => by cases h).mp hn
      simp only [check, parts, checkEach, List.nil_append, check_last, checkTarget_eq (requireWritable_of_step htype),
        check_twice]
    · obtain ⟨u', t, hu, rfl⟩ := mkUnary_shape hn
      cases hu
      simp only [parts, checkEach, List.nil_append]
      cases u with
      | step k => exact (hstep ⟨k, rfl⟩).elim
      | _ => simp only [check, pure_eq_ok]
  | member _ hn =>
    obtain ⟨-, rfl⟩ := mkMember_eq_ok.mp hn
    simp only [check, parts, checkEach, List.nil_append, check_last]
  | call _ hn =>
    obtain ⟨-, -, -, rfl⟩ := mkCall_eq_ok.mp hn
    simp only [callOf, check, parts, checkAll_eq]
  | callOn _ _ hn =>
    obtain ⟨-, -, -, rfl⟩ := mkCall_eq_ok.mp hn
    simp only [callOf, check, parts, checkAll_eq, checkEach, List.nil_append]
  | conditional _ _ _ hn =>
    obtain ⟨-, -, rfl⟩ := mkConditional_eq_ok.mp hn
    simp only [check, parts, checkEach, List.nil_append, check_last]

/-! ## What the check finds -/

/-- Is this what a check in a scope says if these are the occurrences? -/
inductive Finds (scope : Scope) (Occ : Parameter → Scope → Prop) : Except CompileFault Unit → Prop where
  | ok (h : ∀ p bound, Occ p bound → p.number ∈ bound ++ scope) : Finds scope Occ (.ok ())
  | error {p : Parameter} {bound : Scope} (hocc : Occ p bound) (hfree : p.number ∉ bound ++ scope) :
      Finds scope Occ (.error (.outOfScope p))

theorem Finds.congr {Occ Occ' : Parameter → Scope → Prop} {x : Except CompileFault Unit} (hx : Finds scope Occ x)
    (h : ∀ p bound, Occ p bound ↔ Occ' p bound) : Finds scope Occ' x := by
  cases hx with
  | ok hall => exact .ok fun p bound hocc => hall p bound ((h p bound).mpr hocc)
  | error hocc hfree => exact .error ((h _ _).mp hocc) hfree

theorem checkParameter_finds (p : Parameter) :
    Finds scope (fun q bound => Occurs q bound (.parameter p)) (checkParameter scope p) := by
  unfold checkParameter
  by_cases hp : p.number ∈ scope
  · rw [if_pos (by simpa using hp)]
    refine .ok fun q bound hocc => ?_
    cases hocc with
    | here => exact hp
    | within hm => simp [parts] at hm
  · rw [if_neg (by simpa using hp)]
    exact .error .here hp

theorem checkEach_finds {ps : List (Scope × Node)}
    (hps : ∀ own m, (own, m) ∈ ps → ∀ scope, Finds scope (fun p bound => Occurs p bound m) (check scope m)) :
    Finds scope (fun p b => ∃ own m bound, (own, m) ∈ ps ∧ b = bound ++ own ∧ Occurs p bound m)
      (checkEach scope ps) := by
  induction ps with
  | nil =>
    refine .ok ?_
    rintro p b ⟨own, m, bound, hm, -⟩
    simp at hm
  | cons part ps ih =>
    obtain ⟨own, m⟩ := part
    have hfirst := hps own m List.mem_cons_self (own ++ scope)
    have hrest := ih fun own m hm => hps own m (List.mem_cons_of_mem _ hm)
    unfold checkEach
    generalize check (own ++ scope) m = x at hfirst
    generalize checkEach scope ps = y at hrest
    cases hfirst with
    | error hocc hfree => exact .error ⟨own, m, _, List.mem_cons_self, rfl, hocc⟩ (by rwa [List.append_assoc])
    | ok hall =>
      cases hrest with
      | @error p b hocc hfree =>
        obtain ⟨own', m', bound, hm', hb, hocc⟩ := hocc
        exact .error ⟨own', m', bound, List.mem_cons_of_mem _ hm', hb, hocc⟩ hfree
      | ok hall' =>
        refine .ok ?_
        rintro p b ⟨own', m', bound, hm', rfl, hocc⟩
        obtain heq | hm' := List.mem_cons.mp hm'
        · cases heq
          rw [List.append_assoc]
          exact hall p bound hocc
        · exact hall' p _ ⟨own', m', bound, hm', rfl, hocc⟩

/-- The check of a tree of the builders says which parameter is not bound where it occurs, if there is one. -/
theorem check_finds (n : Node) (hn : n.IsMade l) (scope : Scope) :
    Finds scope (fun p bound => Occurs p bound n) (check scope n) := by
  by_cases hp : ∃ p, n = .parameter p
  · obtain ⟨p, rfl⟩ := hp
    exact checkParameter_finds p
  rw [check_eq_checkEach hn fun p h => hp ⟨p, h⟩]
  refine (checkEach_finds fun own m hm scope => ?_).congr fun p b => ⟨?_, fun hocc => ?_⟩
  · exact check_finds m (hn.part hm) scope
  · rintro ⟨own, m, bound, hm, rfl, hocc⟩
    exact .within hm hocc
  · cases hocc with
    | here => exact (hp ⟨p, rfl⟩).elim
    | within hm hocc => exact ⟨_, _, _, hm, rfl, hocc⟩
termination_by sizeOf n
decreasing_by exact sizeOf_part hm

theorem check_fails_iff {n : Node} (hn : n.IsMade l) (scope : Scope) :
    (∃ f, check scope n = .error f) ↔ ∃ p bound, Occurs p bound n ∧ p.number ∉ bound ++ scope := by
  have hfinds := check_finds n hn scope
  generalize check scope n = x at hfinds
  cases hfinds with
  | ok hall =>
    constructor
    · rintro ⟨f, ⟨⟩⟩
    · rintro ⟨p, bound, hocc, hfree⟩
      exact (hfree (hall p bound hocc)).elim
  | error hocc hfree => exact ⟨fun _ => ⟨_, _, hocc, hfree⟩, fun _ => ⟨_, rfl⟩⟩

end ExprTree.Node
