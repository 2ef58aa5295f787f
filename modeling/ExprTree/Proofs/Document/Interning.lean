import ExprTree.Document.Encode
import ExprTree.Proofs.Action

/-!
# Parameters on their way into a document

Writing keeps what it knows: a parameter that was seen keeps its place, no two
parameters share one, and identifiers are only ever added to those that were
handed out.
-/

namespace ExprTree

namespace Interning

variable {s s' s'' : Interning}

/-- Has every parameter that was seen a place of its own in the arena? -/
structure IsSound (s : Interning) : Prop where
  inside : ∀ a i, s.slots.lookup a = some i → i < s.arena.length
  separate : ∀ a b i, s.slots.lookup a = some i → s.slots.lookup b = some i → a = b

theorem isSound_start (k : Nat) : (start k).IsSound :=
  ⟨by simp [start], by simp [start]⟩

/-- What was seen is still in its place. -/
structure LeadsTo (s s' : Interning) : Prop where
  slots : ∀ a i, s.slots.lookup a = some i → s'.slots.lookup a = some i
  minted : s.minted ≤ s'.minted

theorem LeadsTo.refl (s : Interning) : s.LeadsTo s :=
  ⟨fun _ _ => id, Nat.le_refl _⟩

theorem LeadsTo.trans (h : s.LeadsTo s') (h' : s'.LeadsTo s'') : s.LeadsTo s'' :=
  ⟨fun a i ha => h'.slots a i (h.slots a i ha), Nat.le_trans h.minted h'.minted⟩

/-- The interning after a new parameter was given the next place. -/
def extended (s : Interning) (number : Nat) (e : ParameterEntry) : Interning :=
  ⟨s.arena ++ [e], (number, s.arena.length) :: s.slots, s.minted + 1⟩

theorem lookup_extended (number : Nat) (e : ParameterEntry) (a : Nat) :
    (s.extended number e).slots.lookup a = if a = number then some s.arena.length else s.slots.lookup a := by
  rw [extended, List.lookup_cons]
  by_cases h : a = number
  · simp [h]
  · simp [h, beq_eq_false_iff_ne.mpr h]

theorem IsSound.extended (hs : s.IsSound) (number : Nat) (e : ParameterEntry) : (s.extended number e).IsSound := by
  constructor
  · intro a i ha
    rw [lookup_extended] at ha
    have hlength : (s.extended number e).arena.length = s.arena.length + 1 := by simp [Interning.extended]
    split at ha
    · cases ha
      omega
    · have := hs.inside a i ha
      omega
  · intro a b i ha hb
    rw [lookup_extended] at ha hb
    split at ha <;> split at hb
    · next h h' => rw [h, h']
    · cases ha
      exact absurd (hs.inside b _ hb) (Nat.lt_irrefl _)
    · cases hb
      exact absurd (hs.inside a _ ha) (Nat.lt_irrefl _)
    · exact hs.separate a b i ha hb

theorem leadsTo_extended {number : Nat} (h : s.slots.lookup number = none) (e : ParameterEntry) :
    s.LeadsTo (s.extended number e) := by
  refine ⟨fun a i ha => ?_, Nat.le_succ _⟩
  rw [lookup_extended, if_neg]
  · exact ha
  · rintro rfl
    rw [h] at ha
    cases ha

/-- A parameter is known, or has no name for its type, or is new. -/
theorem intern_cases (hs : s.IsSound) (p : Parameter) :
    (∃ i e, s.slots.lookup p.number = some i ∧ s.arena[i]? = some e ∧ s.intern p = (.ok e, s)) ∨
      s.slots.lookup p.number = none ∧
        ((∃ fault, Signature.encodeType p.type = .error fault ∧
            s.intern p = (.error fault, { s with minted := s.minted + 1 })) ∨
          ∃ type, Signature.encodeType p.type = .ok type ∧
            s.intern p = (.ok ⟨Guid.nth (s.minted + 1), type, p.name⟩,
              s.extended p.number ⟨Guid.nth (s.minted + 1), type, p.name⟩)) := by
  unfold intern
  cases hslot : s.slots.lookup p.number with
  | some i =>
    obtain ⟨e, he⟩ : ∃ e, s.arena[i]? = some e := ⟨_, List.getElem?_eq_getElem (hs.inside _ i hslot)⟩
    exact .inl ⟨i, e, rfl, he, by simp only [Option.bind_some, he]⟩
  | none =>
    refine .inr ⟨rfl, ?_⟩
    simp only [Option.bind_none]
    cases htype : Signature.encodeType p.type with
    | error fault => exact .inl ⟨fault, rfl, rfl⟩
    | ok type => exact .inr ⟨type, rfl, rfl⟩

theorem IsSound.intern (hs : s.IsSound) (p : Parameter) : (s.intern p).2.IsSound := by
  obtain ⟨i, e, -, -, h⟩ | ⟨-, ⟨fault, -, h⟩ | ⟨type, -, h⟩⟩ := intern_cases hs p
  all_goals rw [h]
  · exact hs
  · exact ⟨hs.inside, hs.separate⟩
  · exact hs.extended _ _

theorem IsSound.leadsTo_intern (hs : s.IsSound) (p : Parameter) : s.LeadsTo (s.intern p).2 := by
  obtain ⟨i, e, -, -, h⟩ | ⟨hnew, ⟨fault, -, h⟩ | ⟨type, -, h⟩⟩ := intern_cases hs p
  all_goals rw [h]
  · exact .refl s
  · exact ⟨fun _ _ => id, Nat.le_succ _⟩
  · exact leadsTo_extended hnew _

end Interning

/-! ## Texts -/

namespace Node

/-- Does it end the same whatever is known of parameters, and leave that alone? -/
abbrev IsSettled {α : Type} (x : Encoding α) : Prop :=
  Action.Settled (fun _ => True) id (fun _ => True) x

theorem typeText_settled (t : Ty) : IsSettled (typeText t) := by
  unfold typeText
  split
  · exact .pure _
  · exact .throw trivial

theorem typeTexts_settled : ∀ ts : List Ty, IsSettled (typeTexts ts)
  | [] => .pure _
  | t :: ts => .bind (typeText_settled t) fun _ => .bind (typeTexts_settled ts) fun _ => .pure _

theorem countText_settled (n : Nat) : IsSettled (countText n) := by
  unfold countText
  split
  · exact .pure _
  · exact .throw trivial

theorem memberTexts_settled (m : Method) (n : Nat) (member : String) :
    IsSettled (do
      let declaring ← typeText (.cls m.declaring)
      let types ← typeTexts m.parameterTypes
      let generics ← typeTexts m.arguments
      let argumentCount ← countText n
      let genericCount ← countText m.arguments.length
      let texts := [("Method", member), ("MethodType", declaring), ("ArgumentCount", argumentCount),
          ("GenericArgumentCount", genericCount)] ++
        numbered "ArgumentType" types ++ numbered "GenericArgument" generics
      return texts.map fun (r, s) => (r, some s) : Encoding (List (String × Option String))) :=
  .bind (typeText_settled _) fun _ => .bind (typeTexts_settled _) fun _ => .bind (typeTexts_settled _) fun _ =>
    .bind (countText_settled _) fun _ => .bind (countText_settled _) fun _ => .pure _

theorem callTexts_settled (policy : Option Policy) (m : Method) (n : Nat) : IsSettled (callTexts policy m n) := by
  unfold callTexts
  refine .ite (.bind (.throw trivial) fun _ => ?_) ?_
  all_goals
    cases Signature.encodeMember m with
    | ok member => exact .bind (.pure member) (memberTexts_settled m n)
    | error fault => exact .bind (.throw trivial) (memberTexts_settled m n)

theorem encodeConstant_settled (h : Heap) (v : Value) (t : Ty) : IsSettled (encodeConstant h v t) := by
  have htexts (text : Option String) : IsSettled (do
      return .node Kind.constant.tag [] [("Type", some (← typeText t)), ("Value", text)] : Encoding Document) :=
    .bind (typeText_settled t) fun _ => .pure _
  unfold encodeConstant
  refine .ite (.bind (.pure _) htexts) (.ite (.bind (.throw trivial) fun _ => ?_) ?_)
  all_goals
    cases ConstantText.write? h v with
    | some s => exact .bind (.pure _) htexts
    | none => exact .bind (.throw trivial) htexts

end Node

/-! ## Writing only adds -/

namespace Node

open Interning (IsSound LeadsTo)

/-- However it ends, does the computation keep the places that were given? -/
def Grows {α : Type} (x : Encoding α) : Prop :=
  ∀ s r s', s.IsSound → x.run s = (r, s') → s'.IsSound ∧ s.LeadsTo s'

namespace Grows

variable {α β : Type} {x : Encoding α} {f : α → Encoding β}

theorem pure (a : α) : Grows (Pure.pure a : Encoding α) := by
  rintro s r s' hs ⟨⟩
  exact ⟨hs, .refl s⟩

theorem throw (e : EncodeFault) : Grows (MonadExcept.throw e : Encoding α) := by
  rintro s r s' hs ⟨⟩
  exact ⟨hs, .refl s⟩

theorem ofSettled (h : IsSettled x) : Grows x := by
  obtain ⟨r, -, hr⟩ := h
  intro s r' s' hs hrun
  obtain ⟨-, -, hsame⟩ := hr s trivial
  rw [hrun] at hsame
  obtain rfl : s' = s := hsame
  exact ⟨hs, .refl s'⟩

theorem bind (hx : Grows x) (hf : ∀ a, Grows (f a)) : Grows (x >>= f) := by
  intro s r s' hs hrun
  rw [Action.run_bind] at hrun
  rcases hxs : x.run s with ⟨e | a, t⟩
  · rw [hxs] at hrun
    cases hrun
    exact hx s _ _ hs hxs
  · rw [hxs] at hrun
    obtain ⟨ht, hst⟩ := hx s _ t hs hxs
    obtain ⟨hs', hts'⟩ := hf a t r s' ht hrun
    exact ⟨hs', hst.trans hts'⟩

theorem ite {p : Prop} [Decidable p] {y : Encoding α} (hx : Grows x) (hy : Grows y) : Grows (if p then x else y) := by
  split
  · exact hx
  · exact hy

end Grows

theorem run_encodeParameter (p : Parameter) (s : Interning) :
    (encodeParameter p).run s =
      (((s.intern p).1.mapError .naming).map fun e =>
        .node Kind.parameter.tag [] [("Type", some e.type), ("Name", e.name), ("Guid", some e.guid)],
        (s.intern p).2) := by
  unfold encodeParameter
  rw [Action.run_bind_ok (Action.run_get s)]
  rcases s.intern p with ⟨fault | e, t⟩
  all_goals
    simp only
    rw [Action.run_bind_ok (Action.run_set s t)]
    rfl

theorem encodeParameter_grows (p : Parameter) : Grows (encodeParameter p) := by
  intro s r s' hs hrun
  rw [run_encodeParameter] at hrun
  cases hrun
  exact ⟨hs.intern p, hs.leadsTo_intern p⟩

theorem encodeParameters_grows : ∀ ps : List Parameter, Grows (encodeParameters ps)
  | [] => .pure _
  | p :: ps => (encodeParameter_grows p).bind fun _ => (encodeParameters_grows ps).bind fun _ => .pure _

theorem length_encodeParameters {ps : List Parameter} {ds : List Document} {s s' : Interning}
    (h : (encodeParameters ps).run s = (.ok ds, s')) : ds.length = ps.length := by
  induction ps generalizing s ds with
  | nil =>
    cases h
    rfl
  | cons p ps ih =>
    obtain ⟨first, s₁, -, h₁⟩ := Action.run_bind_eq_ok h
    obtain ⟨rest, s₂, hrest, h₂⟩ := Action.run_bind_eq_ok h₁
    cases h₂
    simp [ih hrest]

theorem lambdaDocument_grows (parameters : List Document) (body : Document) : Grows (lambdaDocument parameters body) :=
  (Grows.ofSettled (countText_settled _)).bind fun _ => .pure _

variable (h : Heap) (policy : Option Policy)

mutual

/-- Writing a node keeps the places of parameters. -/
theorem encode_grows : ∀ n : Node, Grows (encode h policy n)
  | .constant v t => .ofSettled (encodeConstant_settled h v t)
  | .parameter p => encodeParameter_grows p
  | .lambda ps body =>
    (encodeParameters_grows ps).bind fun _ => (encode_grows body).bind fun _ => lambdaDocument_grows _ _
  | .binary k left right _ => by
    cases k with
    | binary => exact (encode_grows left).bind fun _ => (encode_grows right).bind fun _ => .pure _
    | _ => exact .throw _
  | .converted left right p body =>
    (encode_grows left).bind fun _ => (encode_grows right).bind fun _ => (encodeParameter_grows p).bind fun _ =>
      (encode_grows body).bind fun _ => (lambdaDocument_grows _ _).bind fun _ => .pure _
  | .unary k operand t => by
    cases k with
    | unary => exact (encode_grows operand).bind fun _ => (Grows.ofSettled (typeText_settled t)).bind fun _ => .pure _
    | _ => exact .throw _
  | .member e m => by
    rw [encode]
    have hrest : Grows (do
        let expression ← encode h policy e
        return .node Kind.memberAccess.tag [("Expression", some expression)]
          [("Type", some (← typeText (.cls m.declaring))), ("Member", some m.name),
            ("IsProperty", some (if m.isProperty then "true" else "false"))] : Encoding Document) :=
      (encode_grows e).bind fun _ => (Grows.ofSettled (typeText_settled _)).bind fun _ => .pure _
    exact .ite ((Grows.throw _).bind fun _ => hrest) hrest
  | .call m args => (Grows.ofSettled (callTexts_settled policy m _)).bind fun _ => (encodeAll_grows args).bind fun _ => .pure _
  | .callOn target m args =>
    (Grows.ofSettled (callTexts_settled policy m _)).bind fun _ => (encode_grows target).bind fun _ => (encodeAll_grows args).bind fun _ => .pure _
  | .conditional .. => .throw _
  | .bare k t => by
    rw [encode]
    exact .ite (.throw _) (.throw _)

theorem encodeAll_grows : ∀ ns : List Node, Grows (encodeAll h policy ns)
  | [] => .pure _
  | n :: ns => (encode_grows n).bind fun _ => (encodeAll_grows ns).bind fun _ => .pure _

end

end Node

end ExprTree
