import ExprTree.Document.Encode
import ExprTree.Proofs.Document.Decoding
import ExprTree.Proofs.Number.Digits
import Mathlib.Data.List.Forall2
import Std.Data.String.ToNat

/-!
# Roles

A role with a number leads to the thing that has the number, and no other role
does. So what a lambda or a call is written with is found again under the
roles that decoding asks for.
-/

namespace ExprTree

/-! ## Tags -/

theorem Operation.mem_all (o : Operation) : o ∈ all := by
  cases o with
  | arithmetic k => cases k <;> decide
  | bitwise k => cases k <;> decide
  | shift k => cases k <;> decide

namespace Kind

theorem mem_all (k : Kind) : k ∈ all := by
  have hbinary (b : BinaryKind) : b ∈ BinaryKind.all := by
    cases b with
    | operation o => simp [BinaryKind.all, o.mem_all]
    | compound o => simp [BinaryKind.all, o.mem_all]
    | ordering k => cases k <;> decide
    | _ => decide
  have hunary (u : UnaryKind) : u ∈ UnaryKind.all := by
    cases u with
    | convert checked => cases checked <;> decide
    | negate checked => cases checked <;> decide
    | step k => obtain ⟨increments, yieldsOld⟩ := k; cases increments <;> cases yieldsOld <;> decide
    | _ => decide
  cases k with
  | binary b => simp [all, hbinary b]
  | unary u => simp [all, hunary u]
  | bare b => cases b <;> decide
  | _ => decide

/-- No two kinds have the same tag. -/
theorem ofTag_tag (k : Kind) : ofTag? k.tag = some k := by
  have hall : ∀ k ∈ all, ofTag? k.tag = some k := by decide
  exact hall k (mem_all k)

end Kind

/-! ## Numbered roles -/

namespace Node

variable {α : Type}

theorem numbered_inj {stem : String} {i j : Nat} : stem ++ toString i = stem ++ toString j ↔ i = j := by
  refine ⟨fun h => ?_, congrArg fun k : Nat => stem ++ toString k⟩
  have hlists := congrArg String.toList h
  rw [String.toList_append, String.toList_append, List.append_cancel_left_eq] at hlists
  exact Nat.repr_injective (String.toList_injective hlists)

theorem lookup_zipIdx (stem : String) (xs : List α) (k i : Nat) :
    ((xs.zipIdx k).map fun (x, i) => (stem ++ toString i, x)).lookup (stem ++ toString (k + i)) = xs[i]? := by
  induction xs generalizing k i with
  | nil => rfl
  | cons x xs ih =>
    rw [List.zipIdx_cons, List.map_cons, List.lookup_cons]
    cases i with
    | zero => simp
    | succ i =>
      have hne : (stem ++ toString (k + (i + 1)) == stem ++ toString k) = false := by
        rw [beq_eq_false_iff_ne]
        exact fun h => absurd (numbered_inj.mp h) (by omega)
      rw [hne, show k + (i + 1) = k + 1 + i by omega, ih (k + 1) i, List.getElem?_cons_succ]

theorem lookup_numbered (stem : String) (xs : List α) (i : Nat) :
    (numbered stem xs).lookup (stem ++ toString i) = xs[i]? := by
  have := lookup_zipIdx stem xs 0 i
  rwa [Nat.zero_add] at this

/-- Is the role none of those that a stem makes with numbers? -/
def IsApart (stem role : String) : Prop :=
  ∀ i : Nat, role ≠ stem ++ toString i

theorem lookup_apart {stem role : String} (h : IsApart stem role) (xs : List α) :
    (numbered stem xs).lookup role = none := by
  rw [List.lookup_eq_none_iff]
  intro entry hmem
  obtain ⟨⟨x, i⟩, -, rfl⟩ := List.mem_map.mp hmem
  simpa using h i

/-- A role that goes on otherwise than with digits is apart from the stem. -/
theorem isApart_of_rest {stem role : String} {c : Char} {cs : List Char} (h : role.toList = stem.toList ++ c :: cs)
    (hc : c.isDigit = false) : IsApart stem role := by
  rintro i rfl
  rw [String.toList_append, List.append_cancel_left_eq, Text.toList_toString] at h
  have hdigit := Text.isDigit_of_mem_toDigits (n := i) (c := c) (by simp [h])
  rw [hc] at hdigit
  cases hdigit

/-- A role that starts otherwise is apart from the stem. -/
theorem isApart_of_start {stem role : String} (h : stem.toList.isPrefixOf role.toList = false) : IsApart stem role := by
  rintro i rfl
  rw [String.toList_append, Bool.eq_false_iff, Ne, List.isPrefixOf_iff_prefix] at h
  exact h (List.prefix_append _ _)

end Node

namespace Document

theorem lookup_present {α : Type} (es : List (String × α)) (role : String) :
    ((es.map fun (r, a) => (r, some a)).lookup role).join = es.lookup role := by
  induction es with
  | nil => rfl
  | cons e es ih =>
    obtain ⟨r, a⟩ := e
    simp only [List.map_cons, List.lookup_cons]
    cases role == r
    · exact ih
    · rfl

/-! ## Reading under a role -/

variable {d c : Document} {role text : String}

theorem value_eq (h : d.value? role = some text) : d.value role = pure text := by
  rw [value, h]

theorem count_eq {n : Nat} (h : d.value? role = some text) (ht : integerText? (n : Int) = some text) :
    d.count role = pure n := by
  unfold integerText? at ht
  split at ht
  · cases ht
  · next hcount =>
    cases ht
    have htext : (toString (n : Int)).toList = Nat.toDigits 10 n := Text.toList_toString n
    have hlength : ¬(Nat.toDigits 10 n).length > integerDigitLimit := hcount
    have hdigits : ((Nat.toDigits 10 n).isEmpty || !(Nat.toDigits 10 n).all Char.isDigit) = false := by
      rw [Text.all_isDigit_toDigits]
      simp [Nat.toDigits_ne_nil]
    unfold count
    rw [value_eq h, pure_bind]
    simp only [htext, hdigits, if_neg hlength, Text.natOfDigits_toDigits]
    rfl

theorem flag_eq {b : Bool} (h : d.value? role = some (if b then "true" else "false")) : d.flag role = pure b := by
  unfold flag
  rw [value_eq h, pure_bind]
  cases b with
  | true => simp only [if_true, show Text.lower "true" = "true" by decide]
  | false => simp [show Text.lower "false" = "false" by decide]

section

variable (l : Library) (policy : Policy)

theorem decodedChild_eq (h : d.child? role = some c) :
    decodedChild d (decodedUnder l policy d) role = c.decode l policy := by
  rw [decodedChild, decodedUnder, h, Option.map_some]

theorem decodedChild?_some (h : d.child? role = some c) :
    decodedChild? (decodedUnder l policy d) role = c.decode l policy >>= fun n => pure (some n) := by
  rw [decodedChild?, decodedUnder, h, Option.map_some]

theorem decodedChild?_none (h : d.child? role = none) :
    decodedChild? (decodedUnder l policy d) role = pure none := by
  rw [decodedChild?, decodedUnder, h, Option.map_none]

end

/-! ## Documents by their roles -/

/-- The document of a lambda over these parameters with this body. -/
structure IsLambda (d : Document) (parameters : List Document) (body : Document) : Prop where
  kind : Kind.ofTag? d.kind = some .lambda
  count : d.count "ParameterCount" = pure parameters.length
  parameter : ∀ i : Nat, d.child? ("Parameter" ++ toString i) = parameters[i]?
  body : d.child? "Body" = some body

/-- The texts are what the types are written as. -/
def AreWritten (ts : List Ty) (texts : List String) : Prop :=
  List.Forall₂ (fun t text => Signature.encodeType t = .ok text) ts texts

/-- The values of a document that say which method it calls, with how many arguments. -/
structure NamesMethod (values : List (String × Option String)) (m : Method) (argumentCount : Nat) : Prop where
  method : ∃ text, (values.lookup "Method").join = some text ∧ Signature.encodeMember m = .ok text
  declaring : ∃ text, (values.lookup "MethodType").join = some text ∧ Signature.encodeType (.cls m.declaring) = .ok text
  argumentCount : ∃ text, (values.lookup "ArgumentCount").join = some text ∧ integerText? (argumentCount : Int) = some text
  genericCount : ∃ text, (values.lookup "GenericArgumentCount").join = some text ∧
    integerText? (m.arguments.length : Int) = some text
  parameterTypes : ∃ texts, AreWritten m.parameterTypes texts ∧
    ∀ i : Nat, (values.lookup ("ArgumentType" ++ toString i)).join = texts[i]?
  arguments : ∃ texts, AreWritten m.arguments texts ∧
    ∀ i : Nat, (values.lookup ("GenericArgument" ++ toString i)).join = texts[i]?

/-- The document of a call on this instance, if there is one, with these arguments. -/
structure IsCall (d : Document) (target : Option Document) (arguments : List Document) : Prop where
  kind : Kind.ofTag? d.kind = some .call
  target : d.child? "Object" = target
  argument : ∀ i : Nat, d.child? ("Argument" ++ toString i) = arguments[i]?

end Document

/-! ## What is written -/

namespace Node

open Document (AreWritten IsCall NamesMethod)

variable {s s' : Interning}

theorem typeText_eq_ok {t : Ty} {text : String} (h : (typeText t).run s = (.ok text, s')) :
    s' = s ∧ Signature.encodeType t = .ok text := by
  unfold typeText at h
  split at h
  · next ht =>
    cases h
    exact ⟨rfl, ht⟩
  · cases h

theorem typeTexts_eq_ok {ts : List Ty} {texts : List String} (h : (typeTexts ts).run s = (.ok texts, s')) :
    s' = s ∧ AreWritten ts texts := by
  induction ts generalizing texts with
  | nil =>
    cases h
    exact ⟨rfl, .nil⟩
  | cons t ts ih =>
    obtain ⟨first, s₁, hfirst, hrun⟩ := Action.run_bind_eq_ok h
    obtain ⟨rest, s₂, hrest, hrun'⟩ := Action.run_bind_eq_ok hrun
    cases hrun'
    obtain ⟨rfl, ht⟩ := typeText_eq_ok hfirst
    obtain ⟨rfl, hts⟩ := ih hrest
    exact ⟨rfl, .cons ht hts⟩

theorem countText_eq_ok {n : Nat} {text : String} (h : (countText n).run s = (.ok text, s')) :
    s' = s ∧ integerText? (n : Int) = some text := by
  unfold countText at h
  split at h
  · next ht =>
    cases h
    exact ⟨rfl, ht⟩
  · cases h

theorem lambdaDocument_eq_ok {parameters : List Document} {body d : Document}
    (h : (lambdaDocument parameters body).run s = (.ok d, s')) : s' = s ∧ d.IsLambda parameters body := by
  obtain ⟨text, s₁, hcount, hrun⟩ := Action.run_bind_eq_ok h
  cases hrun
  obtain ⟨rfl, htext⟩ := countText_eq_ok hcount
  have hbody : IsApart "Parameter" "Body" := isApart_of_start (by decide)
  refine ⟨rfl, Kind.ofTag_tag .lambda, Document.count_eq rfl htext, fun i => ?_, ?_⟩
  · have hne : ("Parameter" ++ toString i == "Body") = false := beq_eq_false_iff_ne.mpr (hbody i).symm
    rw [Document.child?, Document.children, Document.lookup_present, List.lookup_append, lookup_numbered, List.lookup_cons,
      hne]
    exact Option.or_none
  · rw [Document.child?, Document.children, Document.lookup_present, List.lookup_append, lookup_apart hbody]
    rfl

/-- What is found under the roles of a call. -/
theorem lookup_callTexts (firsts : List (String × String)) (types generics : List String)
    (hfirsts : ∀ e ∈ firsts, IsApart "ArgumentType" e.1 ∧ IsApart "GenericArgument" e.1) (i : Nat) :
    (firsts ++ numbered "ArgumentType" types ++ numbered "GenericArgument" generics).lookup
        ("ArgumentType" ++ toString i) = types[i]? ∧
      (firsts ++ numbered "ArgumentType" types ++ numbered "GenericArgument" generics).lookup
        ("GenericArgument" ++ toString i) = generics[i]? := by
  have htypes : firsts.lookup ("ArgumentType" ++ toString i) = none :=
    List.lookup_eq_none_iff.mpr fun e he => bne_iff_ne.mpr ((hfirsts e he).1 i).symm
  have hgenerics : firsts.lookup ("GenericArgument" ++ toString i) = none :=
    List.lookup_eq_none_iff.mpr fun e he => bne_iff_ne.mpr ((hfirsts e he).2 i).symm
  have hapart : IsApart "GenericArgument" ("ArgumentType" ++ toString i) := by
    refine isApart_of_start ?_
    rw [String.toList_append]
    rfl
  have hapart' : IsApart "ArgumentType" ("GenericArgument" ++ toString i) := by
    refine isApart_of_start ?_
    rw [String.toList_append]
    rfl
  rw [List.lookup_append, List.lookup_append, List.lookup_append, List.lookup_append, lookup_numbered, lookup_numbered,
    lookup_apart hapart, lookup_apart hapart', htypes, hgenerics]
  simp

/-- The texts that come before the numbered ones are taken for none of those. -/
theorem isApart_firsts (member declaring given genericCount : String) :
    ∀ e ∈ [("Method", member), ("MethodType", declaring), ("ArgumentCount", given), ("GenericArgumentCount", genericCount)],
      IsApart "ArgumentType" e.1 ∧ IsApart "GenericArgument" e.1 := by
  have hrest : "GenericArgumentCount".toList = "GenericArgument".toList ++ 'C' :: "ount".toList := by decide
  simp only [List.forall_mem_cons, List.not_mem_nil, false_imp_iff, implies_true, and_true]
  exact ⟨⟨isApart_of_start (by decide), isApart_of_start (by decide)⟩,
    ⟨isApart_of_start (by decide), isApart_of_start (by decide)⟩,
    ⟨isApart_of_start (by decide), isApart_of_start (by decide)⟩,
    isApart_of_start (by decide), isApart_of_rest hrest (by decide)⟩

theorem callTexts_eq_ok {policy : Option Policy} {m : Method} {n : Nat} {texts : List (String × Option String)}
    (h : (callTexts policy m n).run s = (.ok texts, s')) : s' = s ∧ NamesMethod texts m n := by
  unfold callTexts at h
  cases hpolicy : policy.any (!·.allows m) with
  | true =>
    simp only [hpolicy, if_true] at h
    cases h
  | false =>
    cases hmember : Signature.encodeMember m with
    | error fault =>
      simp only [hpolicy, hmember, Bool.false_eq_true, if_false] at h
      cases h
    | ok member =>
      simp only [hpolicy, hmember, Bool.false_eq_true, if_false, pure_bind] at h
      obtain ⟨declaring, s₁, hdeclaring, hrun⟩ := Action.run_bind_eq_ok h
      obtain ⟨types, s₂, htypes, hrun₂⟩ := Action.run_bind_eq_ok hrun
      obtain ⟨generics, s₃, hgenerics, hrun₃⟩ := Action.run_bind_eq_ok hrun₂
      obtain ⟨given, s₄, hgiven, hrun₄⟩ := Action.run_bind_eq_ok hrun₃
      obtain ⟨genericCount, s₅, hgenericCount, hrun₅⟩ := Action.run_bind_eq_ok hrun₄
      cases hrun₅
      obtain ⟨rfl, hdeclaring'⟩ := typeText_eq_ok hdeclaring
      obtain ⟨rfl, htypes'⟩ := typeTexts_eq_ok htypes
      obtain ⟨rfl, hgenerics'⟩ := typeTexts_eq_ok hgenerics
      obtain ⟨rfl, hgiven'⟩ := countText_eq_ok hgiven
      obtain ⟨rfl, hgenericCount'⟩ := countText_eq_ok hgenericCount
      have hfirsts := isApart_firsts member declaring given genericCount
      refine ⟨rfl, ⟨⟨member, ?_, hmember⟩, ⟨declaring, ?_, hdeclaring'⟩, ⟨given, ?_, hgiven'⟩,
        ⟨genericCount, ?_, hgenericCount'⟩, ⟨types, htypes', fun i => ?_⟩, ⟨generics, hgenerics', fun i => ?_⟩⟩⟩
      all_goals refine (Document.lookup_present _ _).trans ?_
      · rfl
      · rfl
      · rfl
      · rfl
      · exact (lookup_callTexts _ types generics hfirsts i).1
      · exact (lookup_callTexts _ types generics hfirsts i).2

theorem isCall_document (texts : List (String × Option String)) (target : Option Document) (arguments : List Document) :
    IsCall (.node Kind.call.tag
      (("Object", target) :: (numbered "Argument" arguments).map fun (r, d) => (r, some d)) texts) target arguments := by
  have hobject : IsApart "Argument" "Object" := isApart_of_start (by decide)
  refine ⟨Kind.ofTag_tag .call, rfl, fun i => ?_⟩
  have hne : ("Argument" ++ toString i == "Object") = false := beq_eq_false_iff_ne.mpr (hobject i).symm
  rw [Document.child?, Document.children, List.lookup_cons, hne]
  exact (Document.lookup_present _ _).trans (lookup_numbered _ _ _)

end Node

end ExprTree
