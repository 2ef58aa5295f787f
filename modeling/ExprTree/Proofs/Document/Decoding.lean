import ExprTree.Document.Decode
import ExprTree.Proofs.Action

/-!
# What decoding does, kind by kind

One equation for each kind of node says which children and texts are read and
in which order. What is proved about decoding follows these equations and an
induction over the children.
-/

namespace ExprTree

namespace Document

/-- Induction from the children of a document to the document. -/
theorem induct_child {motive : Document → Prop}
    (step : ∀ d, (∀ role c, d.child? role = some c → motive c) → motive d) (d : Document) : motive d := by
  generalize hn : sizeOf d = n
  induction n using Nat.strongRecOn generalizing d with
  | _ n ih => exact step d fun role c hc => ih _ (hn ▸ sizeOf_child hc) c rfl

/-- A resolution changes nothing but the names. -/
theorem resolving_run {α : Type} (r : Signature.Resolving α) (s : DecodeState) :
    (resolving r).run s = ((r.run s.names).1.mapError .signature, { s with names := (r.run s.names).2 }) := by
  unfold resolving
  rw [Action.run_bind_ok (Action.run_get s)]
  rcases r.run s.names with ⟨_ | a, names⟩
  · exact Action.run_bind_ok (Action.run_set s _) _
  · exact Action.run_bind_ok (Action.run_set s _) _

variable (l : Library) (policy : Policy)

theorem parameterFor_known {guid : String} {q : Parameter} {s : DecodeState} (h : s.parameters.lookup guid = some q)
    (typeText : String) (name : Option String) :
    (parameterFor l policy guid typeText name).run s = (.ok q, s) := by
  unfold parameterFor
  rw [Action.run_bind_ok (Action.run_get s)]
  simp only [h]
  rfl

theorem parameterFor_new {guid : String} {s : DecodeState} (h : s.parameters.lookup guid = none)
    (typeText : String) (name : Option String) :
    (parameterFor l policy guid typeText name).run s =
      match (type l policy typeText).run s with
      | (.ok t, s') => (.ok ⟨s'.next, t, name⟩,
          { s' with parameters := (guid, ⟨s'.next, t, name⟩) :: s'.parameters, next := s'.next + 1 })
      | (.error e, s') => (.error e, s') := by
  unfold parameterFor
  rw [Action.run_bind_ok (Action.run_get s)]
  simp only [h]
  rcases ht : (type l policy typeText).run s with ⟨_ | t, s'⟩
  · exact Action.run_bind_error ht _
  · rw [Action.run_bind_ok ht, Action.run_bind_ok (Action.run_get s'), Action.run_bind_ok (Action.run_set s' _)]
    rfl

theorem lookup_decodings (cs : List (String × Option Document)) (role : String) :
    ((decodings l policy cs).lookup role).join = ((cs.lookup role).join).map (decode l policy) := by
  induction cs with
  | nil => rfl
  | cons entry rest ih =>
    obtain ⟨r, _ | c⟩ := entry <;> simp only [decodings, List.lookup_cons] <;> cases role == r <;> simp [ih]

/-- How the child under a role is decoded, if it is there. -/
def decodedUnder (d : Document) (role : String) : Option (Decoding Node) :=
  (d.child? role).map (decode l policy)

theorem decode_eq (d : Document) : d.decode l policy = rebuild l policy d (decodedUnder l policy d) := by
  obtain ⟨kind, children, values⟩ := d
  rw [decode]
  simp only [lookup_decodings]
  rfl

variable {d : Document}

theorem decode_constant (h : Kind.ofTag? d.kind = some .constant) :
    d.decode l policy = decodeConstant l policy d := by
  rw [decode_eq, rebuild, h]

theorem decode_parameter (h : Kind.ofTag? d.kind = some .parameter) :
    d.decode l policy = (do return .parameter (← decodeParameter l policy d)) := by
  rw [decode_eq, rebuild, h]

theorem decode_unary {u : UnaryKind} (h : Kind.ofTag? d.kind = some (.unary u)) :
    d.decode l policy = (do
      let operand ← decodedChild d (decodedUnder l policy d) "Operand"
      let t ← type l policy (← d.value "Type")
      d.build (Node.mkUnary (.unary u) operand (some t))) := by
  rw [decode_eq, rebuild, h]

theorem decode_binary {b : BinaryKind} (h : Kind.ofTag? d.kind = some (.binary b)) :
    d.decode l policy = (do
      let left ← decodedChild d (decodedUnder l policy d) "Left"
      let right ← decodedChild d (decodedUnder l policy d) "Right"
      let conversion ← decodedChild? (decodedUnder l policy d) "Conversion"
      joinBinary l d (.binary b) left right conversion) := by
  rw [decode_eq, rebuild, h]

theorem decode_member (h : Kind.ofTag? d.kind = some .memberAccess) :
    d.decode l policy = (do
      let m ← decodeMember l policy d
      let expression ← decodedChild d (decodedUnder l policy d) "Expression"
      d.build (Node.mkMember l expression m)) := by
  rw [decode_eq, rebuild, h]

theorem decode_lambda (h : Kind.ofTag? d.kind = some .lambda) :
    d.decode l policy = (do
      let parameters ← parametersFrom d (decodedUnder l policy d) (← d.count "ParameterCount") 0
      let body ← decodedChild d (decodedUnder l policy d) "Body"
      d.build (Node.mkLambda parameters body)) := by
  rw [decode_eq, rebuild, h]

theorem decode_call (h : Kind.ofTag? d.kind = some .call) :
    d.decode l policy = (do
      let m ← decodeMethod l policy d
      let target ← decodedChild? (decodedUnder l policy d) "Object"
      let arguments ← childrenUnder d (decodedUnder l policy d) "Argument" m.parameterTypes.length 0
      d.build (Node.mkCall l target m arguments)) := by
  rw [decode_eq, rebuild, h]

/-- The tag of a kind that cannot be encoded, or of no kind, is all that is looked at. -/
theorem decode_unsupported (h : ∀ k, Kind.ofTag? d.kind = some k → k.isEncodable = false) :
    d.decode l policy = throw (.unsupportedKind (((Kind.ofTag? d.kind).map Kind.tag).getD d.kind)) := by
  rw [decode_eq, rebuild]
  cases hk : Kind.ofTag? d.kind with
  | none => rfl
  | some k =>
    have := h k hk
    cases k <;> simp [Kind.isEncodable] at this <;> rfl

/-- What the tag of a document can be: no kind that is decoded, or one of those that are. -/
inductive Tagged (d : Document) : Prop
  | unsupported (h : ∀ k, Kind.ofTag? d.kind = some k → k.isEncodable = false)
  | constant (h : Kind.ofTag? d.kind = some .constant)
  | parameter (h : Kind.ofTag? d.kind = some .parameter)
  | unary (u : UnaryKind) (h : Kind.ofTag? d.kind = some (.unary u))
  | binary (b : BinaryKind) (h : Kind.ofTag? d.kind = some (.binary b))
  | memberAccess (h : Kind.ofTag? d.kind = some .memberAccess)
  | lambda (h : Kind.ofTag? d.kind = some .lambda)
  | call (h : Kind.ofTag? d.kind = some .call)

theorem tagged (d : Document) : d.Tagged := by
  cases hk : Kind.ofTag? d.kind with
  | none => exact .unsupported fun k h => by cases hk.symm.trans h
  | some k =>
    cases k with
    | constant => exact .constant hk
    | parameter => exact .parameter hk
    | unary u => exact .unary u hk
    | binary b => exact .binary b hk
    | memberAccess => exact .memberAccess hk
    | lambda => exact .lambda hk
    | call => exact .call hk
    | conditional => exact .unsupported fun k h => by cases hk.symm.trans h; rfl
    | bare b => exact .unsupported fun k h => by cases hk.symm.trans h; rfl

theorem build_yields {P : Node → Prop} (d : Document) {node : Built Node} (h : ∀ n, node = .ok n → P n) :
    Action.Yields (d.build node) P := by
  unfold build
  cases node with
  | ok n => exact .pure (h n rfl)
  | error e => exact .throw

/-! ## What the policy is asked for

Apart from the method of a call, decoding asks the policy only whether it may load modules. -/

section

variable {l : Library} {p q : Policy} (h : p.loadsModules = q.loadsModules)

include h

theorem type_eq : type l p = type l q := by
  funext text
  rw [type, type, h]

theorem typesUnder_eq (d : Document) (role : String) (n i : Nat) :
    typesUnder l p d role n i = typesUnder l q d role n i := by
  induction n generalizing i with
  | zero => rfl
  | succ n ih => simp only [typesUnder, type_eq (l := l) h, ih]

theorem checkTypes_eq (d : Document) (memberText : String) (i : Nat) (ts : List Ty) :
    checkTypes l p d memberText i ts = checkTypes l q d memberText i ts := by
  induction ts generalizing i with
  | nil => rfl
  | cons t ts ih => simp only [checkTypes, type_eq (l := l) h, ih]

theorem namedMethod_eq (d : Document) : namedMethod l p d = namedMethod l q d := by
  simp only [namedMethod, h, type_eq (l := l) h, typesUnder_eq (l := l) h, checkTypes_eq (l := l) h]

theorem decodeConstant_eq (d : Document) : decodeConstant l p d = decodeConstant l q d := by
  simp only [decodeConstant, type_eq (l := l) h]

theorem decodeParameter_eq (d : Document) : decodeParameter l p d = decodeParameter l q d := by
  simp only [decodeParameter, parameterFor, type_eq (l := l) h]

theorem decodeMember_eq (d : Document) : decodeMember l p d = decodeMember l q d := by
  simp only [decodeMember, type_eq (l := l) h]

end

end Document

end ExprTree
