import ExprTree.Proofs.Document.Decoding
import ExprTree.Proofs.Document.Interning
import ExprTree.Proofs.Node.Calls

/-!
# Where the policy is asked

Writing and reading ask the policy about the calls of a node, each once and in
the order in which the node lists its methods. So a run that asks goes on like
one that does not, up to the first method of the node that is rejected.
-/

namespace ExprTree

open Action (Gated Settled)

/-! ## Writing -/

namespace Interning

/-- The same parameters were seen, whatever identifiers they were given. -/
def Shifted (s t : Interning) : Prop :=
  s.slots = t.slots ∧ s.arena.length = t.arena.length

theorem Shifted.refl (s : Interning) : s.Shifted s :=
  ⟨rfl, rfl⟩

end Interning

namespace Node

open Interning (Shifted)

variable (p : Policy)

/-- Does the first computation ask about these methods, in this order, and go on like the second one? -/
abbrev AsksOf {α : Type} (x y : Encoding α) (same : α → α → Prop) (ms : List Method) : Prop :=
  Gated Shifted (fun m => !p.allows m) EncodeFault.unsafeCall x y same fun _ ms' => ms' = ms

variable {p} {α β : Type}

namespace AsksOf

variable {x y : Encoding α} {f g : α → Encoding β} {same : α → α → Prop} {same' : β → β → Prop} {ms ms' : List Method}

theorem pure {a b : α} (hab : same a b) : AsksOf p (Pure.pure a) (Pure.pure b) same [] :=
  Gated.pure hab rfl

theorem bind (hx : AsksOf p x y same ms) (hsame : ∀ a, same a a)
    (hf : ∀ a b, same a b → AsksOf p (f a) (g b) same' ms') {ms'' : List Method} (hms : ms ++ ms' = ms'') :
    AsksOf p (x >>= f) (y >>= g) same' ms'' :=
  Gated.bind Shifted.refl hsame hx fun a b _ hab h => (hf a b hab).imp fun _ _ h' => by rw [h, h', hms]

/-- What does not look at the parameters is the same after others were given. -/
theorem ofSettled {Quiet : EncodeFault → Prop} (h : Settled (fun _ => True) id Quiet x) : AsksOf p x x Eq [] := by
  obtain ⟨r, -, hr⟩ := h
  intro s t b t' hst hrun
  obtain ⟨hend, -, hleft⟩ := hr t trivial
  obtain ⟨hend', -, hleft'⟩ := hr s trivial
  rw [hrun] at hend hleft
  obtain rfl : t' = t := hleft
  refine ⟨[], rfl, fun _ => ⟨b, s, Prod.ext (hend'.trans hend.symm) hleft', hst, rfl⟩, by simp⟩

end AsksOf

theorem callTexts_gated (m : Method) (n : Nat) : AsksOf p (callTexts (some p) m n) (callTexts none m n) Eq [m] := by
  cases hallowed : p.allows m with
  | true =>
    have hsame : callTexts (some p) m n = callTexts none m n := by
      simp only [callTexts, Option.any_some, hallowed, Option.any_none, Bool.not_true]
    rw [hsame]
    intro s t b t' hst hrun
    obtain ⟨_, rfl, hgo, -⟩ := AsksOf.ofSettled (p := p) (callTexts_settled none m n) s t b t' hst hrun
    exact ⟨[m], rfl, fun _ => hgo rfl, by simp [hallowed]⟩
  | false =>
    intro s t b t' _ _
    refine ⟨[m], rfl, by simp [hallowed], fun m' hm' => ⟨s, ?_⟩⟩
    obtain rfl : m = m' := by simpa [hallowed] using hm'
    simp only [callTexts, Option.any_some, hallowed, Bool.not_false, if_true]
    exact Action.run_bind_error (Action.run_throw _ s) _

/-- A parameter has been seen in both or is new to both. -/
theorem intern_shifted {s t t' : Interning} {e : ParameterEntry} (hst : s.Shifted t) {q : Parameter}
    (h : t.intern q = (.ok e, t')) : ∃ e' s', s.intern q = (.ok e', s') ∧ s'.Shifted t' := by
  obtain ⟨hslots, hlength⟩ := hst
  unfold Interning.intern at h ⊢
  have hknown : ((s.slots.lookup q.number).bind (s.arena[·]?)).isSome =
      ((t.slots.lookup q.number).bind (t.arena[·]?)).isSome := by
    rw [hslots]
    cases t.slots.lookup q.number with
    | none => rfl
    | some i =>
      rw [Option.bind_some, Option.bind_some, Bool.eq_iff_iff]
      simp [hlength]
  cases ht : (t.slots.lookup q.number).bind (t.arena[·]?) with
  | some e₁ =>
    rw [ht] at h hknown
    obtain ⟨e', hs⟩ := Option.isSome_iff_exists.mp hknown
    cases h
    rw [hs]
    exact ⟨e', s, rfl, hslots, hlength⟩
  | none =>
    rw [ht] at h hknown
    rw [Option.isNone_iff_eq_none.mp (Option.isSome_eq_false_iff.mp hknown)]
    cases htype : Signature.encodeType q.type with
    | error fault =>
      rw [htype] at h
      cases h
    | ok type =>
      rw [htype] at h
      cases h
      exact ⟨_, _, rfl, by simp [hslots, hlength], by simp [hlength]⟩

theorem encodeParameter_gated (q : Parameter) :
    AsksOf p (encodeParameter q) (encodeParameter q) (fun _ _ => True) [] := by
  intro s t b t' hst hrun
  refine ⟨[], rfl, fun _ => ?_, by simp⟩
  rw [run_encodeParameter] at hrun ⊢
  rcases ht : t.intern q with ⟨fault | e, t₁⟩
  · rw [ht] at hrun
    cases hrun
  · rw [ht] at hrun
    cases hrun
    obtain ⟨e', s', hs, hst'⟩ := intern_shifted hst ht
    rw [hs]
    exact ⟨_, s', rfl, hst', trivial⟩

theorem encodeParameters_gated : ∀ qs : List Parameter,
    AsksOf p (encodeParameters qs) (encodeParameters qs) (fun ds ds' => ds.length = ds'.length) []
  | [] => .pure rfl
  | q :: qs => .bind (encodeParameter_gated q) (fun _ => trivial)
      (fun _ _ _ => .bind (encodeParameters_gated qs) (fun _ => rfl) (fun _ _ h => .pure (congrArg (· + 1) h)) rfl) rfl

theorem lambdaDocument_gated {ds ds' : List Document} (h : ds.length = ds'.length) (body body' : Document) :
    AsksOf p (lambdaDocument ds body) (lambdaDocument ds' body') (fun _ _ => True) [] := by
  unfold lambdaDocument
  rw [h]
  exact .bind (.ofSettled (countText_settled _)) (fun _ => rfl) (fun _ _ _ => .pure trivial) rfl

variable (h : Heap) (p)

mutual

/-- Writing asks about the methods of the node. -/
theorem encode_gated : ∀ n : Node, AsksOf p (encode h (some p) n) (encode h none n) (fun _ _ => True) n.methods
  | .constant v t => by
    intro s t' b u hst hrun
    obtain ⟨ms, hms, hgo, hstop⟩ := AsksOf.ofSettled (p := p) (encodeConstant_settled h v t) s t' b u hst hrun
    refine ⟨ms, hms, fun hnone => ?_, hstop⟩
    obtain ⟨d, s', hd, hst', -⟩ := hgo hnone
    exact ⟨d, s', hd, hst', trivial⟩
  | .parameter q => encodeParameter_gated q
  | .lambda qs body =>
    .bind (encodeParameters_gated qs) (fun _ => rfl) (fun _ _ hlength =>
      .bind (encode_gated body) (fun _ => trivial) (fun _ _ _ => lambdaDocument_gated hlength _ _) rfl)
      (by simp [methods])
  | .binary k left right _ => by
    cases k with
    | binary =>
      exact .bind (encode_gated left) (fun _ => trivial) (fun _ _ _ =>
        .bind (encode_gated right) (fun _ => trivial) (fun _ _ _ => .pure trivial) rfl) (by simp [methods])
    | _ => exact .throw _
  | .converted left right q body => by
    have hone (d d' : Document) : [d].length = [d'].length := rfl
    rw [encode, encode]
    exact .bind (encode_gated left) (fun _ => trivial) (fun _ _ _ =>
      .bind (encode_gated right) (fun _ => trivial) (fun _ _ _ =>
        .bind (encodeParameter_gated q) (fun _ => trivial) (fun d d' _ =>
          .bind (encode_gated body) (fun _ => trivial) (fun _ _ _ =>
            .bind (lambdaDocument_gated (hone d d') _ _) (fun _ => trivial)
              (fun _ _ _ => .pure trivial) rfl) rfl) rfl) rfl)
      (by simp [methods])
  | .unary k operand t => by
    cases k with
    | unary =>
      exact .bind (encode_gated operand) (fun _ => trivial) (fun _ _ _ =>
        .bind (.ofSettled (typeText_settled t)) (fun _ => rfl) (fun _ _ _ => .pure trivial) rfl) (by simp [methods])
    | _ => exact .throw _
  | .member e m => by
    rw [encode, encode]
    split
    · exact .throw _
    · exact .bind (encode_gated e) (fun _ => trivial) (fun _ _ _ =>
        .bind (.ofSettled (typeText_settled _)) (fun _ => rfl) (fun _ _ _ => .pure trivial) rfl) (by simp [methods])
  | .call m args =>
    .bind (callTexts_gated m _) (fun _ => rfl) (fun _ _ _ =>
      .bind (encodeAll_gated args) (fun _ => rfl) (fun _ _ _ => .pure trivial) rfl) (by simp [methods])
  | .callOn target m args =>
    .bind (callTexts_gated m _) (fun _ => rfl) (fun _ _ _ =>
      .bind (encode_gated target) (fun _ => trivial) (fun _ _ _ =>
        .bind (encodeAll_gated args) (fun _ => rfl) (fun _ _ _ => .pure trivial) rfl) rfl) (by simp [methods])
  | .conditional .. => .throw _
  | .bare k t => by
    rw [encode, encode]
    split
    · exact .throw _
    · exact .throw _

theorem encodeAll_gated : ∀ ns : List Node,
    AsksOf p (encodeAll h (some p) ns) (encodeAll h none ns) (fun ds ds' => ds.length = ds'.length) (methodsOfAll ns)
  | [] => .pure rfl
  | n :: ns =>
    .bind (encode_gated n) (fun _ => trivial) (fun _ _ _ =>
      .bind (encodeAll_gated ns) (fun _ => rfl) (fun _ _ hlength => .pure (congrArg (· + 1) hlength)) rfl)
      (by simp [methodsOfAll])

end

end Node

/-! ## Reading -/

namespace Document

variable (p q : Policy) {l : Library}

/-- Does the first computation ask about the methods that the second one comes across, and go on like it? -/
abbrev AsksOf {α : Type} (x y : Decoding α) (Meets : α → List Method → Prop) : Prop :=
  Gated Eq (fun m => !p.allows m) DecodeFault.unsafeCall x y Eq Meets

variable {p q} {α β : Type}

namespace AsksOf

variable {x y : Decoding α} {f g : α → Decoding β} {Meets : α → List Method → Prop} {Meets₂ : β → List Method → Prop}

theorem bind (hx : AsksOf p x y Meets)
    (hf : ∀ a ms, Meets a ms → AsksOf p (f a) (g a) fun b ms' => Meets₂ b (ms ++ ms')) :
    AsksOf p (x >>= f) (y >>= g) Meets₂ :=
  Gated.bind (fun _ => rfl) (fun _ => rfl) hx fun a b ms hab h => by
    subst hab
    exact hf a ms h

theorem same {P : α → Prop} (hx : Action.Yields x P) : AsksOf p x x fun a ms => ms = [] ∧ P a := by
  rintro s _ b t' rfl hrun
  exact ⟨[], ⟨rfl, hx s b t' hrun⟩, fun _ => ⟨b, t', hrun, rfl, rfl⟩, by simp⟩

theorem after (hf : ∀ a, AsksOf p (f a) (g a) Meets₂) : AsksOf p (x >>= f) (x >>= g) Meets₂ :=
  (AsksOf.same .any).bind fun a _ h => by
    rw [h.1]
    exact hf a

end AsksOf

theorem build_gated {d : Document} {node : Built Node} (ms : List Method) (h : ∀ n, node = .ok n → n.methods = ms) :
    AsksOf p (d.build node) (d.build node) fun n ms' => ms ++ ms' = n.methods :=
  (AsksOf.same (build_yields d h)).imp fun n ms' hn => by simp [hn.1, hn.2]

theorem joinBinary_gated (d : Document) (k : Kind) (left right : Node) (conversion : Option Node) :
    AsksOf p (joinBinary l d k left right conversion) (joinBinary l d k left right conversion)
      fun n ms => left.methods ++ right.methods ++ (conversion.map Node.methods).getD [] ++ ms = n.methods := by
  unfold joinBinary
  split
  · exact build_gated _ fun n hn => (Node.methods_mkBinary hn).trans (List.append_nil _).symm
  · exact build_gated _ fun n hn => Node.methods_mkConverted hn
  · exact .throw _

theorem decodeConstant_gated (d : Document) :
    AsksOf p (decodeConstant l q d) (decodeConstant l q d) fun n ms => ms = n.methods := by
  have hbuild (t : Ty) (v : Value) : AsksOf p (d.build (Node.mkConstant l noHeap v (some t)))
      (d.build (Node.mkConstant l noHeap v (some t))) fun n ms => ms = n.methods :=
    build_gated [] fun n hn => Node.methods_mkConstant hn
  unfold decodeConstant
  refine .after fun text => .after fun t => ?_
  split
  · exact hbuild t .none
  · dsimp only
    split
    · exact .throw _
    · split
      · exact .throw _
      · exact hbuild t _

section

variable (hpq : p.loadsModules = q.loadsModules)

include hpq

/-- The policy is asked last, once the method is known. -/
theorem decodeMethod_gated (d : Document) :
    AsksOf p (decodeMethod l p d) (decodeMethod l q d) fun m ms => ms = [m] := by
  unfold decodeMethod
  rw [namedMethod_eq hpq]
  refine .after fun m => ?_
  rintro s _ b t' rfl hrun
  obtain ⟨rfl, rfl⟩ : b = m ∧ t' = s := by
    unfold demand at hrun
    split at hrun
    · cases hrun
      exact ⟨rfl, rfl⟩
    · cases hrun
  refine ⟨[b], rfl, fun hnone => ⟨b, t', ?_, rfl, rfl⟩, fun m hm => ⟨t', ?_⟩⟩
  · have hallowed : p.allows b = true := by simpa using hnone
    rw [demand, if_pos hallowed]
    rfl
  · obtain ⟨hrejected, rfl⟩ : p.allows b = false ∧ b = m := by simpa using hm
    rw [demand, if_neg (by simp [hrejected])]
    rfl

end

section

variable {d : Document}
  (ih : ∀ role c, d.child? role = some c → AsksOf p (c.decode l p) (c.decode l q) fun n ms => ms = n.methods)

include ih

theorem decodedChild_gated (role : String) :
    AsksOf p (decodedChild d (decodedUnder l p d) role) (decodedChild d (decodedUnder l q d) role)
      fun n ms => ms = n.methods := by
  unfold decodedChild decodedUnder
  cases hc : d.child? role with
  | none => exact .throw _
  | some c => exact ih role c hc

theorem decodedChild?_gated (role : String) :
    AsksOf p (decodedChild? (decodedUnder l p d) role) (decodedChild? (decodedUnder l q d) role)
      fun n ms => ms = (n.map Node.methods).getD [] := by
  unfold decodedChild? decodedUnder
  cases hc : d.child? role with
  | none => exact .pure rfl rfl
  | some c => exact (ih role c hc).bind fun n ms h => .pure rfl (by simp [h])

theorem childrenUnder_gated (role : String) (n i : Nat) :
    AsksOf p (childrenUnder d (decodedUnder l p d) role n i) (childrenUnder d (decodedUnder l q d) role n i)
      fun ns ms => ms = Node.methodsOfAll ns := by
  induction n generalizing i with
  | zero => exact .pure rfl rfl
  | succ n ihn =>
    exact (decodedChild_gated ih _).bind fun first ms h => (ihn (i + 1)).bind fun rest ms' h' =>
      .pure rfl (by simp [h, h', Node.methodsOfAll])

theorem parametersFrom_gated (n i : Nat) :
    AsksOf p (parametersFrom d (decodedUnder l p d) n i) (parametersFrom d (decodedUnder l q d) n i)
      fun _ ms => ms = [] := by
  induction n generalizing i with
  | zero => exact .pure rfl rfl
  | succ n ihn =>
    refine (decodedChild_gated ih _).bind fun first ms h => ?_
    cases first with
    | parameter r => exact (ihn (i + 1)).bind fun rest ms' h' => .pure rfl (by simp [h, h', Node.methods])
    | _ => exact .throw _

end

/-- Reading asks about the methods of the node that is read. -/
theorem decode_gated (hpq : p.loadsModules = q.loadsModules) (d : Document) :
    AsksOf p (d.decode l p) (d.decode l q) fun n ms => ms = n.methods := by
  induction d using induct_child with
  | step d ih =>
    cases d.tagged with
    | unsupported hk =>
      rw [decode_unsupported l q hk]
      exact .throw _
    | constant hk =>
      rw [decode_constant l p hk, decode_constant l q hk, decodeConstant_eq hpq]
      exact decodeConstant_gated d
    | parameter hk =>
      rw [decode_parameter l p hk, decode_parameter l q hk, decodeParameter_eq hpq]
      exact .after fun r => .pure rfl rfl
    | unary u hk =>
      rw [decode_unary l p hk, decode_unary l q hk, type_eq hpq]
      refine (decodedChild_gated ih _).bind fun operand ms h => .after fun text => .after fun t => ?_
      refine build_gated _ fun n hn => ?_
      exact (Node.methods_mkUnary hn).trans h.symm
    | binary b hk =>
      rw [decode_binary l p hk, decode_binary l q hk]
      refine (decodedChild_gated ih _).bind fun left ms h => (decodedChild_gated ih _).bind fun right ms' h' => ?_
      refine (decodedChild?_gated ih _).bind fun conversion ms'' h'' => ?_
      subst h h' h''
      exact (joinBinary_gated d _ left right conversion).imp fun n _ hn => by simpa using hn
    | memberAccess hk =>
      rw [decode_member l p hk, decode_member l q hk, decodeMember_eq hpq]
      refine .after fun m => (decodedChild_gated ih _).bind fun e ms h => build_gated _ fun n hn => ?_
      exact (Node.methods_mkMember hn).trans h.symm
    | lambda hk =>
      rw [decode_lambda l p hk, decode_lambda l q hk]
      refine .after fun count => (parametersFrom_gated ih _ _).bind fun ps ms h => ?_
      subst h
      refine (decodedChild_gated ih _).bind fun body ms h => build_gated _ fun n hn => ?_
      exact (Node.methods_mkLambda hn).trans h.symm
    | call hk =>
      rw [decode_call l p hk, decode_call l q hk]
      refine (decodeMethod_gated hpq d).bind fun m ms h => (decodedChild?_gated ih _).bind fun target ms' h' => ?_
      refine (childrenUnder_gated ih _ _ _).bind fun arguments ms'' h'' => ?_
      subst h h' h''
      exact (build_gated _ fun n hn => Node.methods_mkCall hn).imp fun n _ hn => by simpa using hn

end Document

end ExprTree
