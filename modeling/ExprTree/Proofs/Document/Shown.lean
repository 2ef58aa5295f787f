import ExprTree.Node.Text
import ExprTree.Proofs.Document.Constant
import ExprTree.Proofs.Document.Decoding
import ExprTree.Proofs.Node.Building

/-!
# Showing what was decoded

Every tree that is decoded from a document has a text: the only values without
one are integers with too many digits, and no such integer can be read.
-/

namespace ExprTree

open Action (Yields)

namespace Node

variable {l : Library}

/-- Can a tree be shown, whatever the heap is? -/
def HasText (n : Node) : Prop :=
  ∀ h, ∃ s, n.text h = some s

theorem hasText_constant {v : Value} (hv : v = .none ∨ ∃ (f : ConstantText.Form) (text : String), f.read? text = some v)
    (t : Ty) : HasText (.constant v t) := by
  intro h
  obtain rfl | ⟨f, text, hread⟩ := hv
  · exact ⟨"None", rfl⟩
  · obtain ⟨word, hword⟩ := ConstantText.exists_write_of_read hread h
    cases v with
    | int n => exact ⟨word, hword⟩
    | tuple items => exact ⟨word, hword⟩
    | ref a => exact ⟨word, hword⟩
    | _ => exact ⟨_, rfl⟩

example (h : Heap) : text h (.constant (.int 3) .int) = some "3" := by
  cbv

theorem hasText_all {ns : List Node} (hns : ∀ n ∈ ns, n.HasText) (h : Heap) : ∃ ss, textAll h ns = some ss := by
  induction ns with
  | nil => exact ⟨[], rfl⟩
  | cons n ns ih =>
    obtain ⟨s, hs⟩ := hns n (by simp) h
    obtain ⟨ss, hss⟩ := ih fun n hn => hns n (by simp [hn])
    exact ⟨s :: ss, by simp [textAll, hs, hss]⟩

theorem hasText_binary {k : Kind} {left right n : Node} (hn : mkBinary l k left right = .ok n) (hl : left.HasText)
    (hr : right.HasText) : n.HasText := by
  obtain ⟨b, t, rfl, -, rfl⟩ := mkBinary_eq_ok.mp hn
  intro h
  obtain ⟨s, hs⟩ := hl h
  obtain ⟨u, hu⟩ := hr h
  simp [text, hs, hu]

theorem hasText_converted {k : Kind} {left right n : Node} {ps : List Parameter} {body : Node}
    (hn : mkConverted k left right (.lambda ps body) = .ok n) (hl : left.HasText) (hr : right.HasText)
    (hb : (lambda ps body).HasText) : n.HasText := by
  obtain ⟨p, body', rfl, hlambda, -, -, rfl⟩ := mkConverted_eq_ok.mp hn
  cases hlambda
  intro h
  obtain ⟨s, hs⟩ := hl h
  obtain ⟨u, hu⟩ := hr h
  obtain ⟨w, hw⟩ := hb h
  obtain ⟨w', hw', -⟩ : ∃ w', text h body = some w' ∧ _ := Option.bind_eq_some_iff.mp (by simpa [text] using hw)
  simp [text, hs, hu, hw']

theorem hasText_unary {k : Kind} {operand n : Node} {t : Option Ty} (hn : mkUnary k operand t = .ok n)
    (ho : operand.HasText) : n.HasText := by
  obtain ⟨u, t, rfl, rfl⟩ := mkUnary_shape hn
  intro h
  obtain ⟨s, hs⟩ := ho h
  rw [text, hs]
  dsimp only [Option.bind_eq_bind, Option.bind_some]
  split
  · exact ⟨_, rfl⟩
  · split <;> exact ⟨_, rfl⟩
  · exact ⟨_, rfl⟩

theorem hasText_member {e n : Node} {m : DataMember} (hn : mkMember l e m = .ok n) (he : e.HasText) : n.HasText := by
  obtain ⟨-, rfl⟩ := mkMember_eq_ok.mp hn
  intro h
  obtain ⟨s, hs⟩ := he h
  simp [text, hs]

theorem hasText_lambda {parameters : List Node} {body n : Node} (hn : mkLambda parameters body = .ok n)
    (hb : body.HasText) : n.HasText := by
  obtain ⟨ps, rfl, -, rfl⟩ := mkLambda_eq_ok.mp hn
  intro h
  obtain ⟨s, hs⟩ := hb h
  simp [text, hs]

theorem hasText_call {target : Option Node} {m : Method} {arguments : List Node} {n : Node}
    (hn : mkCall l target m arguments = .ok n) (ht : ∀ t, target = some t → t.HasText)
    (ha : ∀ a ∈ arguments, a.HasText) : n.HasText := by
  obtain ⟨-, -, -, rfl⟩ := mkCall_eq_ok.mp hn
  intro h
  obtain ⟨ss, hss⟩ := hasText_all ha h
  cases target with
  | none => simp [callOf, text, hss]
  | some t =>
    obtain ⟨s, hs⟩ := ht t rfl h
    simp [callOf, text, hs, hss]

end Node

namespace Document

variable {l : Library} {policy : Policy} {d : Document}

theorem build_shows {node : Built Node} (h : ∀ n, node = .ok n → n.HasText) : Yields (d.build node) Node.HasText := by
  unfold build
  cases node with
  | ok n => exact .pure (h n rfl)
  | error fault => exact .throw

theorem decodeConstant_shows : Yields (decodeConstant l policy d) Node.HasText := by
  unfold decodeConstant
  refine .after fun _ => .after fun t => ?_
  split
  · refine build_shows fun n hn => ?_
    obtain ⟨-, rfl⟩ := Node.mkConstant_eq_ok.mp hn
    exact Node.hasText_constant (.inl rfl) _
  · next text _ =>
    dsimp only
    split
    · exact .throw
    · next f _ =>
      split
      · exact .throw
      · next v hv =>
        refine build_shows fun n hn => ?_
        obtain ⟨-, rfl⟩ := Node.mkConstant_eq_ok.mp hn
        exact Node.hasText_constant (.inr ⟨f, text, hv⟩) _

section
variable (ih : ∀ role c, d.child? role = some c → Yields (c.decode l policy) Node.HasText)
include ih

theorem decodedChild_shows (role : String) : Yields (decodedChild d (decodedUnder l policy d) role) Node.HasText := by
  unfold decodedChild decodedUnder
  cases hc : d.child? role with
  | none => exact .throw
  | some c => exact ih role c hc

theorem decodedChild?_shows (role : String) :
    Yields (decodedChild? (decodedUnder l policy d) role) fun n => ∀ c, n = some c → c.HasText := by
  unfold decodedChild? decodedUnder
  cases hc : d.child? role with
  | none => exact .pure nofun
  | some c => exact (ih role c hc).bind fun n hn => .pure (by rintro _ ⟨⟩; exact hn)

theorem childrenUnder_shows (role : String) (n i : Nat) :
    Yields (childrenUnder d (decodedUnder l policy d) role n i) fun ns => ∀ n ∈ ns, n.HasText := by
  induction n generalizing i with
  | zero => exact .pure (by simp)
  | succ n ihn =>
    refine (decodedChild_shows ih _).bind fun first hfirst => (ihn (i + 1)).bind fun rest hrest => .pure ?_
    simpa using ⟨hfirst, hrest⟩

end

theorem joinBinary_shows {k : Kind} {left right : Node} {conversion : Option Node} (hl : left.HasText)
    (hr : right.HasText) (hc : ∀ c, conversion = some c → c.HasText) :
    Yields (joinBinary l d k left right conversion) Node.HasText := by
  unfold joinBinary
  split
  · exact build_shows fun n hn => Node.hasText_binary hn hl hr
  · exact build_shows fun n hn => Node.hasText_converted hn hl hr (hc _ rfl)
  · exact .throw

/-- What is decoded from a document can be shown. -/
theorem decode_shows (l : Library) (policy : Policy) (d : Document) : Yields (d.decode l policy) Node.HasText := by
  induction d using induct_child with
  | step d ih =>
    cases d.tagged with
    | unsupported hk =>
      rw [decode_unsupported l policy hk]
      exact .throw
    | constant hk =>
      rw [decode_constant l policy hk]
      exact decodeConstant_shows
    | parameter hk =>
      rw [decode_parameter l policy hk]
      exact .after fun p => .pure fun h => ⟨_, rfl⟩
    | unary u hk =>
      rw [decode_unary l policy hk]
      refine (decodedChild_shows ih _).bind fun operand ho => .after fun _ => .after fun t => ?_
      exact build_shows fun n hn => Node.hasText_unary hn ho
    | binary b hk =>
      rw [decode_binary l policy hk]
      refine (decodedChild_shows ih _).bind fun left hl => (decodedChild_shows ih _).bind fun right hr => ?_
      exact (decodedChild?_shows ih _).bind fun conversion hc => joinBinary_shows hl hr hc
    | memberAccess hk =>
      rw [decode_member l policy hk]
      refine .after fun m => (decodedChild_shows ih _).bind fun e he => ?_
      exact build_shows fun n hn => Node.hasText_member hn he
    | lambda hk =>
      rw [decode_lambda l policy hk]
      refine .after fun count => .after fun ps => (decodedChild_shows ih _).bind fun body hb => ?_
      exact build_shows fun n hn => Node.hasText_lambda hn hb
    | call hk =>
      rw [decode_call l policy hk]
      refine .after fun m => (decodedChild?_shows ih _).bind fun target ht => ?_
      exact (childrenUnder_shows ih _ _ 0).bind fun arguments ha => build_shows fun n hn => Node.hasText_call hn ht ha

end Document

end ExprTree
