import ExprTree.Proofs.Document.Constant
import ExprTree.Proofs.Document.Identity
import ExprTree.Proofs.Signature.Yielding

/-!
# What decoding yields

Whatever a document says, the tree that is decoded from it is built by the
typing rules of parts that were read: types in normal form, constants of the
form that their type names, members that are declared, methods that are the
only ones of their signature, and no count with more digits than can be read.
The names and parameters that decoding takes note of stay such parts.
-/

namespace ExprTree

open Action (Stays Yields)

/-- Is the method found under its signature, with arguments and counts that can be read? -/
structure Method.IsRead (l : Library) (m : Method) : Prop where
  found : m.IsFound l
  arguments : ∀ a ∈ m.arguments, a.IsRead
  argumentCount : m.parameterTypes.length < 10 ^ integerDigitLimit
  genericCount : m.arguments.length < 10 ^ integerDigitLimit

/-- Is the tree built by the typing rules of parts that were read? -/
inductive Node.IsRead (l : Library) : Node → Prop where
  | constant {v : Value} {t : Ty} {n : Node} (hn : mkConstant l Document.noHeap v (some t) = .ok n) (ht : t.IsRead)
      (hv : v = .none ∨ ∃ f text, ConstantText.formOf? (ConstantText.target t) = some f ∧ f.read? text = some v) :
      IsRead l n
  | parameter {p : Parameter} (ht : p.type.IsRead) : IsRead l (.parameter p)
  | lambda {parameters : List Node} {body n : Node} (hn : mkLambda parameters body = .ok n)
      (hps : ∀ p ∈ parameters, IsRead l p) (hcount : parameters.length < 10 ^ integerDigitLimit) (hb : IsRead l body) :
      IsRead l n
  | binary {k : Kind} {left right n : Node} (hn : mkBinary l k left right = .ok n) (hl : IsRead l left)
      (hr : IsRead l right) : IsRead l n
  | converted {k : Kind} {left right conversion n : Node} (hn : mkConverted k left right conversion = .ok n)
      (hl : IsRead l left) (hr : IsRead l right) (hc : IsRead l conversion) : IsRead l n
  | unary {k : Kind} {operand n : Node} {t : Ty} (hn : mkUnary k operand (some t) = .ok n) (ho : IsRead l operand)
      (ht : t.IsRead) : IsRead l n
  | member {e n : Node} {m : DataMember} (hn : mkMember l e m = .ok n) (he : IsRead l e) (hm : l.HasMember m) :
      IsRead l n
  | call {target : Option Node} {m : Method} {arguments : List Node} {n : Node}
      (hn : mkCall l target m arguments = .ok n) (ht : ∀ t, target = some t → IsRead l t)
      (ha : ∀ a ∈ arguments, IsRead l a) (hm : m.IsRead l) : IsRead l n

/-- Are the names and the parameters that are known such as can be read? -/
structure DecodeState.IsRead (s : DecodeState) : Prop where
  names : s.names.HoldsForms
  parameters : ∀ e ∈ s.parameters, e.2.type.IsRead

namespace Document

variable {l : Library} {policy : Policy} {d : Document}

/-- From states that can be read, whatever happens the state stays such; a success yields what is described. -/
abbrev Keeps {α : Type} (x : Decoding α) (P : α → Prop) : Prop := Stays DecodeState.IsRead x P

/-! ## Steps -/

theorem resolving_keeps {α : Type} {r : Signature.Resolving α} {P : α → Prop} (h : Stays Names.HoldsForms r P) :
    Keeps (resolving r) P := by
  intro s a t hs hrun
  rw [resolving_run] at hrun
  cases hrun
  obtain ⟨hnames, hP⟩ := h s.names _ _ hs.names rfl
  refine ⟨⟨hnames, hs.parameters⟩, fun b hb => hP b ?_⟩
  rcases hr : (r.run s.names).1 with e | c
  · rw [hr] at hb
    cases hb
  · rw [hr] at hb
    cases hb
    exact hr

theorem build_keeps {node : Built Node} {P : Node → Prop} (h : ∀ n, node = .ok n → P n) : Keeps (d.build node) P := by
  unfold build
  cases node with
  | ok n => exact .pure (h n rfl)
  | error fault => exact .throw _

theorem count_short (d : Document) (role : String) : Yields (d.count role) (· < 10 ^ integerDigitLimit) := by
  unfold count
  refine .after fun text => ?_
  dsimp only
  split
  · exact .throw
  · next hdigits =>
    split
    · exact .throw
    · next hshort =>
      simp only [Bool.or_eq_true, not_or, Bool.not_eq_true', Bool.not_eq_false] at hdigits
      refine .pure ((Text.natOfDigits_lt (List.all_eq_true.mp hdigits.2)).trans_le ?_)
      exact Nat.pow_le_pow_right (by decide) (not_lt.mp hshort)

theorem decodeMember_yields (d : Document) : Yields (decodeMember l policy d) l.HasMember := by
  unfold decodeMember
  refine .after fun text => .after fun declaring => .after fun name => .after fun isProperty => ?_
  dsimp only
  split
  · exact .throw
  · split
    · next m hm =>
      refine .pure ?_
      cases isProperty with
      | true => exact Library.hasMember_of_property hm
      | false => exact Library.hasMember_of_field hm
    · exact .throw

variable (hexports : l.ExportsForms)

include hexports

theorem type_keeps (text : String) : Keeps (type l policy text) Ty.IsRead :=
  resolving_keeps (Signature.decodeType_stays (Library.looksUp_isForm hexports _) Ty.isMadeOf_isRead text)

theorem method_keeps (text : String) :
    Keeps (resolving (Signature.decodeMember l policy.loadsModules text)) fun m => m.IsFound l ∧ m.definition = m :=
  (resolving_keeps (Signature.decodeMember_stays (Library.looksUp_isForm hexports _) Ty.isMadeOf_isRead text)).imp
    fun _ h => h.isFound

theorem keeps_isSteady (policy : Policy) (Said : String → Prop) :
    IsSteady l policy Said fun _ x => Keeps x fun _ => True where
  pure _ := .pure trivial
  bind hx hf := hx.bind fun a _ => hf a
  throw _ := .throw _
  long _ _ := .throw _
  type _ := (type_keeps hexports _).imp fun _ _ => trivial
  method _ := (method_keeps hexports _).imp fun _ _ => trivial

theorem value_keeps (role : String) : Keeps (d.value role) fun _ => True :=
  (keeps_isSteady hexports .strict _).value role

/-! ## Leaves -/

theorem decodeConstant_keeps : Keeps (decodeConstant l policy d) (Node.IsRead l) := by
  unfold decodeConstant
  refine (value_keeps hexports _).bind fun text _ => (type_keeps hexports text).bind fun t ht => ?_
  split
  · exact build_keeps fun n hn => .constant hn ht (.inl rfl)
  · next word _ =>
    dsimp only
    split
    · exact .throw _
    · next f hf =>
      split
      · exact .throw _
      · next v hv => exact build_keeps fun n hn => .constant hn ht (.inr ⟨f, word, hf, hv⟩)

theorem parameterFor_keeps (guid text : String) (name : Option String) :
    Keeps (parameterFor l policy guid text name) (·.type.IsRead) := by
  intro s r t hs hrun
  cases hlookup : s.parameters.lookup guid with
  | some q =>
    rw [parameterFor_known l policy hlookup] at hrun
    cases hrun
    exact ⟨hs, by rintro _ ⟨⟩; exact hs.parameters _ (mem_of_lookup hlookup)⟩
  | none =>
    rw [parameterFor_new l policy hlookup] at hrun
    rcases htype : (type l policy text).run s with ⟨fault | u, s'⟩
    · obtain ⟨hs', -⟩ := type_keeps hexports text s _ s' hs htype
      rw [htype] at hrun
      cases hrun
      exact ⟨hs', nofun⟩
    · obtain ⟨hs', hu⟩ := type_keeps hexports text s _ s' hs htype
      rw [htype] at hrun
      cases hrun
      refine ⟨⟨hs'.names, fun e he => ?_⟩, by rintro _ ⟨⟩; exact hu u rfl⟩
      obtain rfl | he := List.mem_cons.mp he
      · exact hu u rfl
      · exact hs'.parameters e he

theorem decodeParameter_keeps : Keeps (decodeParameter l policy d) (·.type.IsRead) := by
  unfold decodeParameter
  refine (value_keeps hexports _).bind fun guid _ => ?_
  have hrest : Keeps (d.value "Type" >>= fun text => parameterFor l policy guid text (d.value? "Name")) (·.type.IsRead) :=
    (value_keeps hexports _).bind fun text _ => parameterFor_keeps hexports guid text _
  split
  · exact (Stays.throw (P := fun _ => True) _).bind fun _ _ => hrest
  · exact hrest

/-! ## Methods -/

theorem typesUnder_keeps (role : String) (n i : Nat) :
    Keeps (typesUnder l policy d role n i) fun ts => ts.length = n ∧ ∀ t ∈ ts, t.IsRead := by
  induction n generalizing i with
  | zero => exact .pure ⟨rfl, by simp⟩
  | succ n ih =>
    refine (value_keeps hexports _).bind fun text _ => (type_keeps hexports text).bind fun t ht => ?_
    exact (ih (i + 1)).bind fun ts hts => .pure ⟨by simp [hts.1], by simpa using ⟨ht, hts.2⟩⟩

omit hexports in
theorem closeOver_keeps {m : Method} (hm : m.IsFound l) (hdefinition : m.definition = m) (text : String)
    (arguments : List Ty) : Keeps (closeOver text m arguments) fun m' => m'.IsFound l ∧ m'.arguments = arguments := by
  unfold closeOver
  split
  · next hplain =>
    have hempty : arguments = [] := by
      simp only [Bool.and_eq_true] at hplain
      exact List.isEmpty_iff.mp hplain.1
    exact .pure ⟨hm, by rw [hempty, ← hdefinition, Method.definition]⟩
  · split
    · next m' hclose =>
      refine .pure ⟨hm.close hdefinition hclose, ?_⟩
      obtain ⟨-, -, -, rfl⟩ := Method.close_eq_ok.mp hclose
      rfl
    · exact .throw _

theorem namedMethod_keeps : Keeps (namedMethod l policy d) (Method.IsRead l) := by
  have hsteady := keeps_isSteady hexports policy d.Says
  unfold namedMethod
  refine (value_keeps hexports _).bind fun text _ => (method_keeps hexports text).bind fun m hm => ?_
  refine (value_keeps hexports _).bind fun typeText _ => (type_keeps hexports typeText).bind fun declaring _ => ?_
  refine (hsteady.demand rfl).bind fun _ _ => ?_
  refine ((hsteady.count _).yielding (count_short d _)).bind fun count hcount => ?_
  refine (typesUnder_keeps hexports _ count 0).bind fun arguments harguments => ?_
  refine (closeOver_keeps hm.1 hm.2 text arguments).bind fun m' hm' => ?_
  refine ((hsteady.count _).yielding (count_short d _)).bind fun given hgiven => ?_
  refine ((hsteady.demand rfl).yielding (demand_yields _ _)).bind fun _ hsame => ?_
  refine (hsteady.checkTypes _ _ _).bind fun _ _ => .pure ⟨hm'.1, hm'.2.symm ▸ harguments.2, ?_, ?_⟩
  · have hlength : given = m'.parameterTypes.length := by simpa using hsame.2
    exact hlength ▸ hgiven.2
  · rw [hm'.2, harguments.1]
    exact hcount.2

theorem decodeMethod_keeps : Keeps (decodeMethod l policy d) (Method.IsRead l) := by
  unfold decodeMethod
  exact (namedMethod_keeps hexports).bind fun m hm =>
    ((keeps_isSteady hexports policy d.Says).demand rfl).bind fun _ _ => .pure hm

/-! ## The tree -/

section

variable (ih : ∀ role c, d.child? role = some c → Keeps (c.decode l policy) (Node.IsRead l))

include ih

omit hexports

theorem decodedChild_keeps (role : String) :
    Keeps (decodedChild d (decodedUnder l policy d) role) (Node.IsRead l) := by
  unfold decodedChild decodedUnder
  cases hc : d.child? role with
  | none => exact .throw _
  | some c => exact ih role c hc

theorem decodedChild?_keeps (role : String) :
    Keeps (decodedChild? (decodedUnder l policy d) role) fun n => ∀ c, n = some c → c.IsRead l := by
  unfold decodedChild? decodedUnder
  cases hc : d.child? role with
  | none => exact .pure nofun
  | some c => exact (ih role c hc).bind fun n hn => .pure (by rintro _ ⟨⟩; exact hn)

theorem childrenUnder_keeps (role : String) (n i : Nat) :
    Keeps (childrenUnder d (decodedUnder l policy d) role n i) fun ns => ∀ n ∈ ns, n.IsRead l := by
  induction n generalizing i with
  | zero => exact .pure (by simp)
  | succ n ihn =>
    refine (decodedChild_keeps ih _).bind fun first hfirst => (ihn (i + 1)).bind fun rest hrest => .pure ?_
    simpa using ⟨hfirst, hrest⟩

theorem parametersFrom_keeps (n i : Nat) :
    Keeps (parametersFrom d (decodedUnder l policy d) n i) fun ns => ns.length = n ∧ ∀ n ∈ ns, n.IsRead l := by
  induction n generalizing i with
  | zero => exact .pure ⟨rfl, by simp⟩
  | succ n ihn =>
    refine (decodedChild_keeps ih _).bind fun first hfirst => ?_
    split
    · exact (ihn (i + 1)).bind fun rest hrest => .pure ⟨by simp [hrest.1], by simpa using ⟨hfirst, hrest.2⟩⟩
    · exact .throw _

end

omit hexports in
theorem joinBinary_keeps {k : Kind} {left right : Node} {conversion : Option Node}
    (hl : left.IsRead l) (hr : right.IsRead l) (hc : ∀ c, conversion = some c → c.IsRead l) :
    Keeps (joinBinary l d k left right conversion) (Node.IsRead l) := by
  unfold joinBinary
  split
  · exact build_keeps fun n hn => .binary hn hl hr
  · exact build_keeps fun n hn => .converted hn hl hr (hc _ rfl)
  · exact .throw _

/-- What is decoded from any document is built of parts that were read. -/
theorem decode_keeps (d : Document) : Keeps (d.decode l policy) (Node.IsRead l) := by
  induction d using induct_child with
  | step d ih =>
    have hsteady := keeps_isSteady hexports policy d.Says
    cases d.tagged with
    | unsupported hk =>
      rw [decode_unsupported l policy hk]
      exact .throw _
    | constant hk =>
      rw [decode_constant l policy hk]
      exact decodeConstant_keeps hexports
    | parameter hk =>
      rw [decode_parameter l policy hk]
      exact (decodeParameter_keeps hexports).bind fun p hp => .pure (.parameter hp)
    | unary u hk =>
      rw [decode_unary l policy hk]
      refine (decodedChild_keeps ih _).bind fun operand ho => (value_keeps hexports _).bind fun text _ => ?_
      exact (type_keeps hexports text).bind fun t ht => build_keeps fun n hn => .unary hn ho ht
    | binary b hk =>
      rw [decode_binary l policy hk]
      refine (decodedChild_keeps ih _).bind fun left hl => (decodedChild_keeps ih _).bind fun right hr => ?_
      exact (decodedChild?_keeps ih _).bind fun conversion hc => joinBinary_keeps hl hr hc
    | memberAccess hk =>
      rw [decode_member l policy hk]
      refine (hsteady.decodeMember.yielding (decodeMember_yields d)).bind fun m hm => ?_
      exact (decodedChild_keeps ih _).bind fun e he => build_keeps fun n hn => .member hn he hm.2
    | lambda hk =>
      rw [decode_lambda l policy hk]
      refine ((hsteady.count _).yielding (count_short d _)).bind fun count hcount => ?_
      refine (parametersFrom_keeps ih count 0).bind fun ps hps => (decodedChild_keeps ih _).bind fun body hb => ?_
      exact build_keeps fun n hn => .lambda hn hps.2 (hps.1 ▸ hcount.2) hb
    | call hk =>
      rw [decode_call l policy hk]
      refine (decodeMethod_keeps hexports).bind fun m hm => (decodedChild?_keeps ih _).bind fun target ht => ?_
      exact (childrenUnder_keeps ih _ _ 0).bind fun arguments ha => build_keeps fun n hn => .call hn ht ha hm

end Document

end ExprTree
