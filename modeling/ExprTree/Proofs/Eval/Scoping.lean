import ExprTree.Proofs.Eval.Scopes
import ExprTree.Proofs.Host.Sample

/-!
# The check decides what is found

The check fails exactly if an occurrence of a parameter is bound by no lambda
around it. If it passes, neither the expression nor a function that comes of it
ever misses a parameter, whatever is called afterwards and in whatever order: a
function may outlive the call that made it, and a method may call the functions
it is given.
-/

namespace ExprTree

open Run

variable {host : Host} {h k : Heap}

/-! ## What is done with functions -/

/-- A function is called, or a method that may call the functions among its arguments. -/
inductive Use where
  | call (f : Value) (arguments : List Value)
  | invoke (m : MethodDecl) (arguments : List Value)

namespace Host

/-- Makes a use of functions, with a bound on nested calls. -/
def use (host : Host) (depth : Nat) : Use → Run Value
  | .call f vs => host.applyAt depth f vs
  | .invoke m vs => host.invoke (host.applyAt depth) m vs

/-- The heaps that any number of uses lead to, whether or not they succeed. -/
inductive Reaches (host : Host) (h : Heap) : Heap → Prop where
  | refl : Reaches host h h
  | step {k : Heap} (hk : Reaches host h k) (depth : Nat) (u : Use) : Reaches host h ((host.use depth u).run k).2

theorem use_safe (hhost : host.IsSafe) (depth : Nat) (u : Use) : Safe (host.use depth u) := by
  have happly := applyAt_safe hhost depth
  cases u with
  | call f vs => exact happly f vs
  | invoke m vs => exact hhost.invoke happly m vs

theorem Reaches.isScoped (hhost : host.IsSafe) (hk : host.Reaches h k) (hh : h.IsScoped) : k.IsScoped := by
  induction hk with
  | refl => exact hh
  | step _ depth u ih => exact (use_safe hhost depth u _ ih trivial).isScoped

end Host

theorem Plain.ne_unbound {α : Type} {r : Except Fault α} (hr : Plain r) (p : String) : r ≠ .error (.unbound p) := by
  intro h
  cases hr _ h

/-! ## Exactness and sufficiency -/

namespace Node

variable {l : Library} {n : Node}

/-- A tree of the builders passes the check exactly if every occurrence of a parameter is bound within it. When it
passes, no parameter is missed: not while the tree is evaluated, from any scoped heap, and not in any later use. -/
theorem check_exact (hn : n.IsMade l) (hhost : host.IsSafe) :
    ((∃ f, n.check [] = .error f) ↔ ∃ p bound, n.Occurs p bound ∧ p.number ∉ bound) ∧
      (n.check [] = .ok () → ∀ h : Heap, h.IsScoped →
        (∀ p, ((host.eval n).run h).1 ≠ .error (.unbound p)) ∧
          ∀ k, host.Reaches ((host.eval n).run h).2 k → ∀ depth u p,
            ((host.use depth u).run k).1 ≠ .error (.unbound p)) := by
  refine ⟨?_, fun hcheck h hh => ?_⟩
  · simpa using check_fails_iff hn []
  · have hend := Host.eval_safe hhost hcheck h hh trivial
    refine ⟨hend.plain.ne_unbound, fun k hk depth u => ?_⟩
    -- a use starts from a scoped heap, since all that came before ended in one
    have hscoped := hk.isScoped hhost hend.isScoped
    exact (Host.use_safe hhost depth u k hscoped trivial).plain.ne_unbound

def total : Parameter := ⟨0, .int, some "total"⟩

def amount : Parameter := ⟨1, .int, some "amount"⟩

def added : Node :=
  .binary (.binary (.compound (.arithmetic .add))) (.parameter total) (.parameter amount) .int

/-- A function of a total that gives a function which adds to that total. -/
def accumulator : Node :=
  .lambda [total] (.lambda [amount] added)

theorem isMade_accumulator : accumulator.IsMade Sample.library := by
  have hadded : added.IsMade Sample.library := by
    refine .binary (.parameter total) (.parameter amount) (mkBinary_eq_ok.mpr ⟨_, .int, rfl, ?_, rfl⟩)
    rfl
  have hinner : IsMade Sample.library (.lambda [amount] added) :=
    .lambda hadded (mkLambda_eq_ok.mpr ⟨[amount], rfl, rfl, rfl⟩)
  exact .lambda hinner (mkLambda_eq_ok.mpr ⟨[total], rfl, rfl, rfl⟩)

/-- The inner function outlives the call of the outer one that made it, and finds both parameters in all its calls. -/
theorem check_exact_accumulator :
    (∀ p bound, accumulator.Occurs p bound → p.number ∈ bound) ∧
      ∀ k, Sample.host.Reaches ((Sample.host.eval accumulator).run .empty).2 k → ∀ depth u p,
        ((Sample.host.use depth u).run k).1 ≠ .error (.unbound p) := by
  obtain ⟨hexact, hruns⟩ := check_exact isMade_accumulator Sample.host_isSafe
  have hcheck : accumulator.check [] = .ok () := rfl
  refine ⟨fun p bound hocc => ?_, (hruns hcheck .empty Heap.isScoped_empty).2⟩
  by_contra hfree
  obtain ⟨f, hf⟩ := hexact.mpr ⟨p, bound, hocc, hfree⟩
  rw [hcheck] at hf
  cases hf

example : ((do
      let f ← Sample.host.eval accumulator
      let g ← Sample.host.apply f [.int 1]
      let _ ← Sample.host.apply g [.int 2]
      Sample.host.apply g [.int 3] : Run Value).run .empty).1 = .ok (.int 6) := by
  rfl

end Node

end ExprTree
