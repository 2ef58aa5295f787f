import ExprTree.Proofs.Document.Gating
import ExprTree.Proofs.Document.RoundTrip

/-!
# Writing and reading under the same policy

Writing a node under a policy asks about the methods that the node calls, in
their order; reading its document asks about those of the copy that is read.
A policy does not tell the methods of a copy apart from the original ones, so
both stop at the same first method, or neither does.
-/

namespace ExprTree

/-- The first call of a node that a policy rejects. -/
def Node.rejected? (p : Policy) (n : Node) : Option Method :=
  n.methods.find? fun m => !p.allows m

namespace Node

variable {l : Library} {p : Policy} {names : Names} {h : Heap} {n n' : Node} {d : Document} {s : Interning}

/-- Among methods that are the same one by one, the same one is rejected first. -/
theorem find?_rejected {ms ns : List Method} (hsame : List.Forall₂ (fun m m' : Method => m.same m' = true) ms ns)
    (hdeclared : Method.DeclaredAlike ms ns) :
    Option.Rel (fun m m' : Method => m.same m' = true) (ms.find? fun m => !p.allows m)
      (ns.find? fun m => !p.allows m) := by
  induction hsame with
  | nil => exact .none
  | @cons m m' ms ns hm _ ih =>
    cases hdeclared with | cons hd hrest =>
    rw [List.find?_cons, List.find?_cons, ← Policy.allows_same hm hd]
    cases p.allows m with
    | true => exact ih hrest
    | false => exact .some hm

theorem Copies.rejected {R : Nat → Nat → Prop} (hcopy : Copies R n n') :
    Option.Rel (fun m m' : Method => m.same m' = true) (n.rejected? p) (n'.rejected? p) :=
  find?_rejected hcopy.iso.methods hcopy.declared

end Node

end ExprTree
