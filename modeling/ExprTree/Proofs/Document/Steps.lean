import ExprTree.Proofs.Document.Decoding
import ExprTree.Proofs.Node.Refusals
import ExprTree.Proofs.Signature.Grammar

/-!
# Decoding, step by step

All that decoding does is to resolve signatures that the document says, to take
note of parameters, and to build or to fail. So a property that these steps have
and that passes from computations to their sequences is one of decoding itself
(`IsClosed.decode`), and one walk through the document serves them all.
-/

namespace ExprTree

open Signature (HasShortNumbers)

/-- Is it a fault that is reported as one of the library, whatever its host does? -/
def Signature.Fault.isOwn : Signature.Fault → Bool
  | .invalid _ .tooManyDigits => false
  | _ => true

/-- Is it a fault that is reported as one of the library, whatever its host does? -/
def DecodeFault.isOwn : DecodeFault → Bool
  | .tooManyDigits => false
  | .signature fault => fault.isOwn
  | .malformed _ (.build fault) => fault.isMismatch
  | _ => true

namespace Document

/-- Is the text a value of the document, or of one inside it? -/
inductive Says : Document → String → Prop where
  | here {d : Document} {role text : String} (h : d.value? role = some text) : Says d text
  | inside {d c : Document} {role text : String} (hc : d.child? role = some c) (h : Says c text) : Says d text

/-- A property of computations that the steps have which take note of no parameter, when they say these texts. -/
structure IsSteady (l : Library) (policy : Policy) (Said : String → Prop) (R : ∀ α : Type, Decoding α → Prop) :
    Prop where
  pure : ∀ {α : Type} (a : α), R α (Pure.pure a)
  bind : ∀ {α β : Type} {x : Decoding α} {f : α → Decoding β}, R α x → (∀ a, R β (f a)) → R β (x >>= f)
  throw : ∀ {α : Type} {e : DecodeFault}, e.isOwn = true → R α (MonadExcept.throw e)
  long : ∀ {α : Type} {text : String}, Said text → ¬ HasShortNumbers text.toList → R α (MonadExcept.throw .tooManyDigits)
  type : ∀ {text : String}, Said text → R Ty (Document.type l policy text)
  method : ∀ {text : String}, Said text → R Method (resolving (Signature.decodeMember l policy.loadsModules text))

/-- A property of computations that decoding has when it says these texts. -/
structure IsClosed (l : Library) (policy : Policy) (Said : String → Prop) (R : ∀ α : Type, Decoding α → Prop) : Prop
    extends IsSteady l policy Said R where
  parameter : ∀ {guid text : String} {name : Option String}, R Ty (Document.type l policy text) →
    R Parameter (parameterFor l policy guid text name)

variable {l : Library} {policy : Policy} {R : ∀ α : Type, Decoding α → Prop}

theorem IsClosed.mono {Said Said' : String → Prop} (h : IsClosed l policy Said' R) (hsaid : ∀ text, Said text → Said' text) :
    IsClosed l policy Said R :=
  { h with
    long := fun htext => h.long (hsaid _ htext)
    type := fun htext => h.type (hsaid _ htext)
    method := fun htext => h.method (hsaid _ htext) }

variable {d : Document}

namespace IsSteady

section

variable (h : IsSteady l policy d.Says R)

include h

/-! ## Texts -/

theorem valueOf {α : Type} {role : String} {f : String → Decoding α} (hf : ∀ text, d.Says text → R α (f text)) :
    R α (d.value role >>= f) := by
  unfold value
  split
  · next text htext => exact hf text (.here htext)
  · exact h.throw rfl

theorem value (role : String) : R String (d.value role) := by
  unfold Document.value
  split
  · exact h.pure _
  · exact h.throw rfl

theorem count (role : String) : R Nat (d.count role) := by
  unfold Document.count
  refine h.valueOf fun text htext => ?_
  dsimp only
  split
  · exact h.throw rfl
  · next hdigits =>
    split
    · next hlong =>
      refine h.long htext fun hshort => ?_
      simp only [Bool.or_eq_true, not_or, Bool.not_eq_true', Bool.not_eq_true, Bool.not_eq_false] at hdigits
      have := hshort text.toList List.infix_rfl (List.all_eq_true.mp hdigits.2)
      omega
    · exact h.pure _

theorem flag (role : String) : R Bool (d.flag role) := by
  unfold Document.flag
  refine h.valueOf fun text _ => ?_
  dsimp only
  split
  · exact h.pure _
  · split
    · exact h.pure _
    · exact h.throw rfl

theorem typeOf {α : Type} {role : String} {f : Ty → Decoding α} (hf : ∀ t, R α (f t)) :
    R α (d.value role >>= fun text => Document.type l policy text >>= f) :=
  h.valueOf fun _ htext => h.bind (h.type htext) hf

theorem build {node : Built Node} (hnode : Node.Refuses node) : R Node (d.build node) := by
  unfold Document.build
  split
  · exact h.pure _
  · next fault => exact h.throw (hnode fault rfl)

/-! ## Leaves, members and methods -/

theorem constant : R Node (decodeConstant l policy d) := by
  unfold decodeConstant
  refine h.typeOf fun t => ?_
  split
  · exact h.build (Node.mkConstant_refuses _ _ _)
  · dsimp only
    split
    · exact h.throw rfl
    · split
      · exact h.throw rfl
      · exact h.build (Node.mkConstant_refuses _ _ _)

theorem decodeMember : R DataMember (decodeMember l policy d) := by
  unfold Document.decodeMember
  refine h.valueOf fun typeText htext => h.bind (h.type htext) fun declaring => h.valueOf fun name _ => ?_
  refine h.bind (h.flag _) fun isProperty => ?_
  dsimp only
  split
  · exact h.throw rfl
  · split
    · exact h.pure _
    · exact h.throw rfl

theorem typesUnder (role : String) (n i : Nat) : R (List Ty) (typesUnder l policy d role n i) := by
  induction n generalizing i with
  | zero => exact h.pure _
  | succ n ih => exact h.typeOf fun t => h.bind (ih (i + 1)) fun ts => h.pure _

theorem demand {condition : Bool} {fault : DecodeFault} (hfault : fault.isOwn = true) :
    R Unit (demand condition fault) := by
  unfold Document.demand
  split
  · exact h.pure _
  · exact h.throw hfault

theorem checkTypes (memberText : String) (i : Nat) (ts : List Ty) : R Unit (checkTypes l policy d memberText i ts) := by
  induction ts generalizing i with
  | nil => exact h.pure _
  | cons t ts ih => exact h.typeOf fun written => h.bind (h.demand rfl) fun _ => ih (i + 1)

theorem closeOver (memberText : String) (m : Method) (arguments : List Ty) :
    R Method (closeOver memberText m arguments) := by
  unfold Document.closeOver
  split
  · exact h.pure _
  · split
    · exact h.pure _
    · exact h.throw rfl

theorem decodeMethod : R Method (decodeMethod l policy d) := by
  unfold Document.decodeMethod namedMethod
  refine h.bind ?_ fun m => h.bind (h.demand rfl) fun _ => h.pure _
  refine h.valueOf fun memberText htext => h.bind (h.method htext) fun m => ?_
  refine h.typeOf fun declaring => h.bind (h.demand rfl) fun _ => ?_
  refine h.bind (h.count _) fun genericCount => h.bind (h.typesUnder _ _ _) fun arguments => ?_
  refine h.bind (h.closeOver _ _ _) fun m => h.bind (h.count _) fun given => ?_
  exact h.bind (h.demand rfl) fun _ => h.bind (h.checkTypes _ _ _) fun _ => h.pure _

theorem joinBinary (k : Kind) (left right : Node) (conversion : Option Node) :
    R Node (joinBinary l d k left right conversion) := by
  unfold Document.joinBinary
  split
  · exact h.build (Node.mkBinary_refuses _ _ _)
  · exact h.build (Node.mkConverted_refuses _ _ _ _ _)
  · exact h.throw rfl

end

end IsSteady

namespace IsClosed

section

variable (h : IsClosed l policy d.Says R)

include h

theorem decodeParameter : R Parameter (decodeParameter l policy d) := by
  unfold Document.decodeParameter
  refine h.valueOf fun guid _ => ?_
  have hrest : R Parameter (d.value "Type" >>= fun text => parameterFor l policy guid text (d.value? "Name")) :=
    h.valueOf fun text htext => h.parameter (h.type htext)
  split
  · exact h.bind (h.throw rfl) fun _ => hrest
  · exact hrest

/-! ## The tree -/

variable (ih : ∀ role c, d.child? role = some c → R Node (c.decode l policy))

include ih

theorem child (role : String) : R Node (decodedChild d (decodedUnder l policy d) role) := by
  unfold decodedChild decodedUnder
  cases hc : d.child? role with
  | none => exact h.throw rfl
  | some c => exact ih role c hc

theorem child? (role : String) : R (Option Node) (decodedChild? (decodedUnder l policy d) role) := by
  unfold decodedChild? decodedUnder
  cases hc : d.child? role with
  | none => exact h.pure _
  | some c => exact h.bind (ih role c hc) fun _ => h.pure _

theorem childrenUnder (role : String) (n i : Nat) :
    R (List Node) (childrenUnder d (decodedUnder l policy d) role n i) := by
  induction n generalizing i with
  | zero => exact h.pure _
  | succ n ihn => exact h.bind (h.child ih _) fun _ => h.bind (ihn (i + 1)) fun _ => h.pure _

theorem parametersFrom (n i : Nat) : R (List Node) (parametersFrom d (decodedUnder l policy d) n i) := by
  induction n generalizing i with
  | zero => exact h.pure _
  | succ n ihn =>
    refine h.bind (h.child ih _) fun node => ?_
    split
    · exact h.bind (ihn (i + 1)) fun _ => h.pure _
    · exact h.throw rfl

/-- If the children are decoded that way, so is the whole. -/
theorem step : R Node (d.decode l policy) := by
  cases d.tagged with
  | unsupported hk =>
    rw [decode_unsupported l policy hk]
    exact h.throw rfl
  | constant hk =>
    rw [decode_constant l policy hk]
    exact h.constant
  | parameter hk =>
    rw [decode_parameter l policy hk]
    exact h.bind h.decodeParameter fun _ => h.pure _
  | unary u hk =>
    rw [decode_unary l policy hk]
    exact h.bind (h.child ih _) fun operand => h.typeOf fun t => h.build (Node.mkUnary_refuses _ _ _)
  | binary b hk =>
    rw [decode_binary l policy hk]
    refine h.bind (h.child ih _) fun left => h.bind (h.child ih _) fun right => ?_
    exact h.bind (h.child? ih _) fun conversion => h.joinBinary _ _ _ _
  | memberAccess hk =>
    rw [decode_member l policy hk]
    exact h.bind h.decodeMember fun m => h.bind (h.child ih _) fun e => h.build (Node.mkMember_refuses _ _)
  | lambda hk =>
    rw [decode_lambda l policy hk]
    refine h.bind (h.count _) fun n => h.bind (h.parametersFrom ih _ _) fun ps => ?_
    exact h.bind (h.child ih _) fun body => h.build (Node.mkLambda_refuses _ _)
  | call hk =>
    rw [decode_call l policy hk]
    refine h.bind h.decodeMethod fun m => h.bind (h.child? ih _) fun target => ?_
    exact h.bind (h.childrenUnder ih _ _ _) fun arguments => h.build (Node.mkCall_refuses _ _ _)

end

/-- Decoding has every property that its steps have. -/
theorem decode (h : IsClosed l policy d.Says R) : R Node (d.decode l policy) := by
  induction d using induct_child with
  | step d ih => exact h.step fun role c hc => ih role c hc (h.mono fun text => .inside hc)

end IsClosed

end Document

end ExprTree
