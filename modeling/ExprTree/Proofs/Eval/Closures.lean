import ExprTree.Host.Sample
import ExprTree.Proofs.Eval.Heaps
import ExprTree.Proofs.Node.Building
import ExprTree.Proofs.Signature.OwnName
import ExprTree.Proofs.Ty.Congruence

/-!
# Functions as arguments

Assignability compares two function types like any two applications of one
form: argument by argument in one direction, and not at all when their numbers
differ. A call may therefore pass a lambda that takes another number of
parameters than the method will give it; such a function fails as soon as it
is called.
-/

namespace ExprTree

namespace Ty

variable (below : ClassName → ClassName → Bool)

theorem function_eq (ps : List Ty) (r : Ty) : function ps r = .generic callable (ps ++ [r]) := by
  cases ps <;> rfl

theorem acceptsAll_iff {ts ss : List Ty} (hlen : ts.length = ss.length) :
    acceptsAll below ts ss = true ↔ List.Forall₂ (fun t s => accepts below t s = true) ts ss := by
  induction ts generalizing ss with
  | nil =>
    obtain rfl := List.length_eq_zero_iff.mp hlen.symm
    simp [acceptsAll]
  | cons t ts ih =>
    cases ss with
    | nil => simp at hlen
    | cons s ss => simp [acceptsAll, ih (Nat.succ.inj hlen)]

/-- Applications of a class are compared argument by argument if they have as many. -/
theorem accepts_applied {c : ClassName} (hc : below c c = true) (as bs : List Ty) :
    accepts below (.generic (.cls c) as) (.generic (.cls c) bs) = true ↔
      as.length ≠ bs.length ∨ List.Forall₂ (fun a b => accepts below a b = true) as bs := by
  have hbelow : classBelow below (.generic (.cls c) bs) (.cls c) = true := hc
  rw [accepts_generic below (by simp)]
  by_cases hlen : as.length = bs.length
  · have hall : equivalent (.generic (.cls c) as) (.generic (.cls c) bs) = true →
        List.Forall₂ (fun a b => accepts below a b = true) as bs := fun h =>
      (arguments_congr h).imp fun _ _ => accepts_of_equivalent below
    simpa [isNothing, isClass, isParameter, hbelow, arguments, hlen, acceptsAll_iff below hlen] using hall
  · simp [isNothing, isClass, isParameter, hbelow, arguments, hlen]

end Ty

theorem Library.isSubclass_refl (l : Library) (c : ClassName) : l.isSubclass c c = true := by
  simp [isSubclass]

theorem Library.accepts_function (l : Library) (ps qs : List Ty) (r s : Ty) :
    l.accepts (.function ps r) (.function qs s) = true ↔ ps.length ≠ qs.length ∨
      List.Forall₂ (fun p q => l.accepts p q = true) ps qs ∧ l.accepts r s = true := by
  unfold accepts
  rw [Ty.function_eq, Ty.function_eq, Ty.callable, Ty.accepts_applied _ (l.isSubclass_refl _), forall₂_concat]
  simp

namespace Node

variable {l : Library} {host : Host} {h : Heap} {ps : List Parameter} {body : Node} {frame : Frame} {a : Nat}

theorem accepts_argument {target : Option Node} {m : Method} {arguments : List Node} {n : Node}
    (hn : mkCall l target m arguments = .ok n) {i : Nat} {t : Ty} {e : Node} (ht : m.parameterTypes[i]? = some t)
    (he : arguments[i]? = some e) : l.accepts t e.type = true := by
  obtain ⟨-, -, hfit, -⟩ := mkCall_eq_ok.mp hn
  obtain ⟨hi, rfl⟩ := List.getElem?_eq_some_iff.mp ht
  obtain ⟨hj, rfl⟩ := List.getElem?_eq_some_iff.mp he
  exact hfit.get hi hj

/-- A function type accepts another if they differ in how many parameters they have, or if its parts accept the
other's. A lambda passed for it is called with the values its parameter promises: it fails at once if it takes another
number of them, and runs its body on them if not. -/
theorem mkCall_passes_functions (l : Library) :
    (∀ ps qs r s, l.accepts (.function ps r) (.function qs s) = true ↔ ps.length ≠ qs.length ∨
      List.Forall₂ (fun p q => l.accepts p q = true) ps qs ∧ l.accepts r s = true) ∧
    ∀ target m arguments n, mkCall l target m arguments = .ok n →
      ∀ (i : Nat) ts r ps body, m.parameterTypes[i]? = some (.function ts r) → arguments[i]? = some (.lambda ps body) →
        (ts.length ≠ ps.length ∨
          List.Forall₂ (fun t p => l.accepts t p.type = true) ts ps ∧ l.accepts r body.type = true) ∧
        ∀ (host : Host) h a frame depth vs, h.get? a = some (.function ps body frame) → vs.length = ts.length →
          (host.applyAt (depth + 1) (.ref a) vs).run h =
            if ts.length = ps.length then
              (Run.opened frame ps vs >>= fun inner => eval host (host.applyAt depth) inner body).run h
            else (.error (.argumentCount ps.length ts.length), h) := by
  refine ⟨l.accepts_function, fun target m arguments n hn i ts r ps body ht hlambda => ⟨?_, ?_⟩⟩
  · have haccepts := accepts_argument hn ht hlambda
    rw [type, l.accepts_function, List.length_map, List.forall₂_map_right_iff] at haccepts
    exact haccepts
  · intro host h a frame depth vs ha hvs
    rw [Host.run_applyAt ha, hvs]

def first : Parameter := ⟨0, .int, some "first"⟩

def second : Parameter := ⟨1, .int, some "second"⟩

/-- A list of numbers at the first address. -/
def items : Node := .constant (.ref 0) (.generic .list [.int])

/-- A function that returns its first parameter. -/
def returning (ps : List Parameter) : Node := .lambda ps (.parameter first)

/-- A heap with a list of one number, and the function. -/
def itemsHeap (ps : List Parameter) : Heap :=
  ⟨#[.list [.int 5], .function ps (.parameter first) []]⟩

/-- A function with one parameter is called with a number, and one with two cannot be. -/
theorem mkCall_passes_functions_pick :
    ((∃ n, mkCall Sample.library none (Signature.pickWith [.int, .int]) [items, returning [first]] = .ok n) ∧
      Sample.library.accepts .int .int = true ∧
      ∃ k, (Sample.host.applyAt 1 (.ref 1) [.int 5]).run (itemsHeap [first]) = (.ok (.int 5), k)) ∧
    (∃ n, mkCall Sample.library none (Signature.pickWith [.int, .int]) [items, returning [first, second]] = .ok n) ∧
      (Sample.host.applyAt 1 (.ref 1) [.int 5]).run (itemsHeap [first, second]) =
        (.error (.argumentCount 2 1), itemsHeap [first, second]) := by
  obtain ⟨-, hcall⟩ := mkCall_passes_functions Sample.library
  obtain ⟨hfits, hone⟩ := hcall none (Signature.pickWith [.int, .int]) [items, returning [first]] _ rfl 1
    [.int] .int [first] (.parameter first) rfl rfl
  obtain ⟨-, htwo⟩ := hcall none (Signature.pickWith [.int, .int]) [items, returning [first, second]] _ rfl 1
    [.int] .int [first, second] (.parameter first) rfl rfl
  have hrun := hone Sample.host (itemsHeap [first]) 1 [] 0 [.int 5] rfl rfl
  exact ⟨⟨⟨_, rfl⟩, (hfits.resolve_left (by decide)).2, _, hrun.trans rfl⟩, ⟨_, rfl⟩,
    htwo Sample.host (itemsHeap [first, second]) 1 [] 0 [.int 5] rfl rfl⟩

/-- More parameters than promised, and narrower ones, are both let through; the call of the method fails. -/
theorem mkCall_passes_misfit :
    Sample.library.accepts (.function [.int] .int) (.function [.int, .int] .int) = true ∧
      (Sample.library.accepts (.function [.int] .int) (.function [.bool] .int) = true ∧
        Sample.library.accepts .bool .int = false) ∧
      ∃ n, mkCall Sample.library none (Signature.pickWith [.int, .int]) [items, returning [first, second]] = .ok n ∧
        ∃ k, (Sample.host.eval n).run ⟨#[.list [.int 5]]⟩ = (.error (.argumentCount 2 1), k) :=
  ⟨by decide, ⟨by decide, by decide⟩, _, rfl, _, rfl⟩

end Node

end ExprTree
