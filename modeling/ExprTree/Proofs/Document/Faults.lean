import ExprTree.Proofs.Document.Steps
import ExprTree.Proofs.Signature.Acceptance

/-!
# How decoding fails

Whatever a document says, decoding it yields a node or one of the library's own
faults, except at a number with more digits than the host reads: a count or a
position that is too long ends in a fault of the host (`decode_overlong`). So
only a document that says such a number is not reported on as it should be.
-/

namespace ExprTree

open Action (Stops)
open Signature (HasShortNumbers)

/-- Does a number end the reading because it has too many digits? -/
def DecodeFault.isNumberLimit : DecodeFault → Bool
  | .tooManyDigits => true
  | .signature (.invalid _ .tooManyDigits) => true
  | _ => false

namespace Signature

variable {l : Library} {loads : Bool}

theorem not_short_of_parse_type {text : String} (h : TypeSig.parse text = .error .tooManyDigits) :
    ¬ HasShortNumbers text.toList :=
  Reader.run_refuses Reader.type_refuses h rfl

theorem not_short_of_parse_member {text : String} (h : MemberSig.parse text = .error .tooManyDigits) :
    ¬ HasShortNumbers text.toList :=
  Reader.run_refuses Reader.member_refuses h rfl

/-- The fault is one of the library, or the text has a number that is too long. -/
def ReportsOn (text : String) (f : Fault) : Prop :=
  f.isOwn = true ∨ f = .invalid text .tooManyDigits ∧ ¬ HasShortNumbers text.toList

theorem resolveName_stops (name : String) (hint : Option String) :
    Stops (resolveName l loads name hint) fun f => f.isOwn = true := by
  intro names f names' h
  unfold resolveName at h
  rw [Action.run_bind_ok (Action.run_get names)] at h
  rcases hr : l.resolveName name hint loads names with ⟨found, after⟩
  simp only [hr] at h
  rw [Action.run_bind_ok (Action.run_set names after)] at h
  cases hform : found.filter Ty.isForm with
  | none =>
    rw [hform] at h
    cases h
    rfl
  | some t =>
    rw [hform] at h
    cases h

mutual

theorem TypeSig.resolve_stops : ∀ s : TypeSig, Stops (s.resolve l loads) fun f => f.isOwn = true
  | .parameter position => .pure _
  | .named name arguments hint => by
    unfold TypeSig.resolve
    exact .bind (resolveName_stops name hint) fun _ => .bind (TypeSig.resolveAll_stops arguments) fun _ => .pure _

theorem TypeSig.resolveAll_stops : ∀ ss : List TypeSig, Stops (TypeSig.resolveAll l loads ss) fun f => f.isOwn = true
  | [] => .pure _
  | s :: ss => by
    unfold TypeSig.resolveAll
    exact .bind (TypeSig.resolve_stops s) fun _ => .bind (TypeSig.resolveAll_stops ss) fun _ => .pure _

end

theorem MemberSig.resolve_stops (s : MemberSig) : Stops (s.resolve l loads) fun f => f.isOwn = true := by
  unfold MemberSig.resolve
  refine .bind (TypeSig.resolve_stops _) fun declaring => .bind (TypeSig.resolveAll_stops _) fun types => ?_
  split
  · exact .throw rfl
  · split
    · exact .pure _
    · exact .throw rfl
    · exact .throw rfl

theorem decodeType_stops (text : String) : Stops (decodeType l loads text) (ReportsOn text) := by
  unfold decodeType
  split
  · exact fun names f names' h => .inl (TypeSig.resolve_stops _ names f names' h)
  · next fault hparse =>
    cases fault with
    | unexpected what rest => exact .throw (.inl rfl)
    | tooManyDigits => exact .throw (.inr ⟨rfl, not_short_of_parse_type hparse⟩)

theorem decodeMember_stops (text : String) : Stops (decodeMember l loads text) (ReportsOn text) := by
  unfold decodeMember
  split
  · exact fun names f names' h => .inl (MemberSig.resolve_stops _ names f names' h)
  · next fault hparse =>
    cases fault with
    | unexpected what rest => exact .throw (.inl rfl)
    | tooManyDigits => exact .throw (.inr ⟨rfl, not_short_of_parse_member hparse⟩)

end Signature

namespace Document

variable {l : Library} {policy : Policy} {d : Document}

/-- Does the document say a number that is longer than numbers may be? -/
def SaysLongNumber (d : Document) : Prop :=
  ∃ text, d.Says text ∧ ¬ HasShortNumbers text.toList

/-- The fault is one of the library, or it is about a number of the document that is too long. -/
def Reports (d : Document) (e : DecodeFault) : Prop :=
  e.isOwn = true ∨ e.isNumberLimit = true ∧ d.SaysLongNumber

theorem resolving_stops {α : Type} {r : Signature.Resolving α} {text : String}
    (h : Stops r (Signature.ReportsOn text)) (htext : d.Says text) : Stops (resolving r) d.Reports := by
  intro s e t hrun
  rw [resolving_run] at hrun
  rcases hr : r.run s.names with ⟨fault | a, names⟩
  · rw [hr] at hrun
    cases hrun
    obtain hown | ⟨rfl, hlong⟩ := h _ _ _ hr
    · exact .inl hown
    · exact .inr ⟨rfl, text, htext, hlong⟩
  · rw [hr] at hrun
    cases hrun

theorem parameterFor_stops {P : DecodeFault → Prop} {guid typeText : String} {name : Option String}
    (h : Stops (type l policy typeText) P) : Stops (parameterFor l policy guid typeText name) P := by
  intro s e t hrun
  cases hlookup : s.parameters.lookup guid with
  | some q =>
    rw [parameterFor_known l policy hlookup] at hrun
    cases hrun
  | none =>
    rw [parameterFor_new l policy hlookup] at hrun
    rcases ht : (type l policy typeText).run s with ⟨e' | t', s'⟩
    · rw [ht] at hrun
      cases hrun
      exact h _ _ _ ht
    · rw [ht] at hrun
      cases hrun

theorem reports_isClosed (l : Library) (policy : Policy) (d : Document) :
    IsClosed l policy d.Says fun _ x => Stops x d.Reports where
  pure a := .pure a
  bind hx hf := .bind hx hf
  throw he := .throw (.inl he)
  long htext hlong := .throw (.inr ⟨rfl, _, htext, hlong⟩)
  type htext := resolving_stops (Signature.decodeType_stops _) htext
  method htext := resolving_stops (Signature.decodeMember_stops _) htext
  parameter h := parameterFor_stops h

/-- A lambda that says it has a parameter count of so many digits. -/
def overlong (digits : Nat) : Document :=
  .node "Lambda" [] [("ParameterCount", some (String.ofList (List.replicate digits '1')))]

theorem decode_overlong {digits : Nat} (h : integerDigitLimit < digits) (s : DecodeState) :
    ((overlong digits).decode l policy).run s = (.error .tooManyDigits, s) := by
  have hall : ∀ c ∈ List.replicate digits '1', c.isDigit = true := fun c hc => by
    rw [List.eq_of_mem_replicate hc]
    rfl
  have hcount : (overlong digits).count "ParameterCount" = throw .tooManyDigits := by
    have hvalue : (overlong digits).value "ParameterCount" = pure (String.ofList (List.replicate digits '1')) := rfl
    rw [count, hvalue, pure_bind]
    simp only [String.toList_ofList, List.all_eq_true.mpr hall, List.length_replicate]
    rw [if_neg (by simp; omega), if_pos h]
  rw [decode_lambda l policy (show Kind.ofTag? (overlong digits).kind = some .lambda by rfl), hcount]
  rfl

end Document

end ExprTree
