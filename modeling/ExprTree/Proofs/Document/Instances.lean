import ExprTree.Proofs.Document.RoundTrip
import ExprTree.Proofs.Scalar.Equality
import ExprTree.Proofs.Signature.OwnName

/-!
# Constants of subclasses

A constant may be an instance of a class below the one that its type names.
It is written as what it is and read as what the type says: a character
becomes a text and a double a general float, which are equal to them. The
words for truth values are no whole numbers, so a truth value that stands as
one is written and cannot be read.
-/

namespace ExprTree

namespace Scalar

/-- The form that constants of the class have. -/
def form : Scalar → ConstantText.Form
  | .bool => .bool
  | .int => .int
  | .decimal => .decimal
  | .str => .text
  | .char => .char
  | .fixed t => .fixed t
  | .float k => .float k

theorem formOf?_ty (s : Scalar) : ConstantText.formOf? s.ty = some s.form := by
  revert s
  exact forall_of_all (by decide +kernel)

end Scalar

namespace ConstantText

variable {h : Heap} {v : Value} {s : Scalar} {word : String} {t : Ty}

theorem exists_ty_of_formOf? {f : Form} (hf : formOf? t = some f) (hobject : t.isObject = false) :
    ∃ s : Scalar, t = s.ty ∧ f = s.form := by
  have hscalar : ∃ s : Scalar, t = s.ty := by
    unfold formOf? at hf
    split at hf
    · next h => exact ⟨.bool, Ty.eq_cls_of_isClass h⟩
    split at hf
    · next h => exact ⟨.char, Ty.eq_cls_of_isClass h⟩
    split at hf
    · next h => exact ⟨.int, Ty.eq_cls_of_isClass h⟩
    split at hf
    · next h => exact ⟨.decimal, Ty.eq_cls_of_isClass h⟩
    split at hf
    · next h =>
      rw [hobject, Bool.or_false] at h
      exact ⟨.str, Ty.eq_cls_of_isClass h⟩
    split at hf
    · next _ i h => exact ⟨.fixed i, Ty.eq_cls_of_isClass (List.find?_some (p := fun i => t.isClass (.ofIntType i)) h)⟩
    · next k _ h =>
      exact ⟨.float k, Ty.eq_cls_of_isClass (List.find?_some (p := fun k : FloatKind => t.isClass k.className) h)⟩
    · cases hf
  obtain ⟨s, rfl⟩ := hscalar
  rw [s.formOf?_ty] at hf
  exact ⟨s, rfl, (Option.some.inj hf).symm⟩

theorem isOf_of_target (ht : target t = s.ty) : t.IsOf s := by
  unfold target at ht
  cases hi : t.optionalInner? with
  | none =>
    rw [hi, Option.getD_none] at ht
    exact ht ▸ .plain s
  | some i =>
    rw [hi, Option.getD_some] at ht
    exact .optional (hi.trans (congrArg some ht))

/-- The words for truth values are no whole numbers. -/
theorem read_truth (b : Bool) (hword : write? h (.bool b) = some word) : Form.int.read? word = none := by
  cases hword
  cases b <;> decide +kernel

theorem read_own (hv : v.scalar? = some s) (hproper : v.IsProper) (hword : write? h v = some word) :
    s.form.read? word = some v :=
  read_write (Scalar.scalarClass?_of_scalar? hv) hproper s.formOf?_ty hword

/-- All other instances are read as their equals in the class. -/
theorem read_cast (hv : s.Holds v) (hproper : v.IsProper) (htruth : s = .int → ∀ b, v ≠ .bool b)
    (hword : write? h v = some word) : s.form.read? word = some (s.cast v) := by
  cases hv with
  | truth b => exact absurd rfl (htruth rfl b)
  | letter c =>
    cases hword
    rfl
  | double x =>
    cases hword
    exact read_float (k := .general) hproper
  | float k x =>
    rw [read_own (s := .float k) rfl hproper hword]
    cases k <;> rfl
  | _ => exact read_own rfl hproper hword

theorem target_of_equivalent {t' : Ty} (ht : target t = s.ty) (hsame : t.equivalent t' = true) : target t' = s.ty := by
  have htarget := target_equivalent hsame
  rw [ht] at htarget
  exact Ty.eq_cls_of_equivalent htarget

end ConstantText

theorem Scalar.Holds.cast {s : Scalar} {v : Value} (hv : s.Holds v) : s.Holds (s.cast v) := by
  cases hv with
  | truth b => exact .int _
  | letter c => exact .str _
  | double x => exact .float .general x
  | float k x => cases k <;> constructor
  | _ => constructor

namespace Library.HasScalars

variable {l : Library} (hl : l.HasScalars) {h : Heap} {v : Value} {s : Scalar} {t : Ty}
include hl

/-- A value that is no reference is accepted by a scalar type if it is an instance of the class. -/
theorem isInstance_iff (hv : v.scalarClass?.isSome = true) :
    Arithmetic.isInstance l h v s.className = .ok true ↔ s.Holds v := by
  obtain ⟨c, hc⟩ := Option.isSome_iff_exists.mp hv
  have hname : h.className v = c := by simp only [Heap.className, hc]
  rw [Arithmetic.isInstance, if_neg s.className_ne.2.1, hl.holds_iff, hname]
  simp [hc]

end Library.HasScalars

namespace Node

variable {l : Library} {h : Heap} {v : Value} {type : Option Ty} {n : Node} {p : Policy} {names : Names}
  {policy : Option Policy} {s s' : Interning} {d : Document}

/-- What is accepted as a constant of a scalar type is none or an instance of the class. -/
theorem holds_of_mkConstant (hl : l.HasScalars) (hn : mkConstant l h v type = .ok n)
    (hplain : v.scalarClass? = none → ∀ s : Scalar, l.isSubclass (h.className v) s.className = false)
    {s : Scalar} (ht : n.type.IsOf s) (hsome : v.isNone = false) : s.Holds v := by
  obtain ⟨hnone | hinstance, rfl⟩ := mkConstant_eq_ok.mp hn
  · rw [hsome] at hnone
    cases hnone
  have hinstance := hinstance _ ht.constantClass?
  cases hc : v.scalarClass? with
  | none =>
    rw [Arithmetic.isInstance, if_neg s.className_ne.2.1, hplain hc s] at hinstance
    cases hinstance
  | some c => exact (hl.isInstance_iff (by rw [hc]; rfl)).mp hinstance

theorem mkConstant_of_holds (hl : l.HasScalars) {s : Scalar} {t : Ty} (ht : t.IsOf s) (hformed : t.Formed)
    (hv : s.Holds v) : mkConstant l h v (some t) = .ok (.constant v t) := by
  obtain ⟨d, hd, -⟩ := hl.holds_iff.mp hv
  refine mkConstant_eq_ok.mpr ⟨.inr fun c hc => ?_, by rw [Transfer.constantType_given hformed]⟩
  rw [Transfer.constantType_given hformed, ht.constantClass?] at hc
  cases hc
  exact (hl.isInstance_iff (by rw [hd]; rfl)).mpr hv

/-- The document of a constant. -/
def constantDocument (typeText : String) (text : Option String) : Document :=
  .node Kind.constant.tag [] [("Type", some typeText), ("Value", text)]

section
variable {typeText : String} {t : Ty} {after : Names}
  (htype : (Signature.decodeType l p.loadsModules typeText).run names = (.ok t, after))
include htype

theorem run_type : (Document.type l p typeText).run ⟨names, [], 0⟩ = (.ok t, ⟨after, [], 0⟩) := by
  rw [Document.type, Document.resolving_run, htype]
  rfl

theorem decode_none (hformed : t.Formed) :
    ((constantDocument typeText none).decode l p).run ⟨names, [], 0⟩ = (.ok (.constant .none t), ⟨after, [], 0⟩) := by
  have hkind : Kind.ofTag? (constantDocument typeText none).kind = some .constant := Kind.ofTag_tag .constant
  have hvalue : (constantDocument typeText none).value? "Type" = some typeText := rfl
  have htext : (constantDocument typeText none).value? "Value" = none := rfl
  have hmade : mkConstant l Document.noHeap .none (some t) = .ok (.constant .none t) :=
    mkConstant_eq_ok.mpr ⟨.inl rfl, by rw [Transfer.constantType_given hformed]⟩
  rw [Document.decode_constant l p hkind, Document.decodeConstant, Document.value_eq hvalue, pure_bind,
    Action.run_bind_ok (run_type htype), htext]
  simp only [hmade]
  rfl

theorem decode_word {f : ConstantText.Form} (hf : ConstantText.formOf? (ConstantText.target t) = some f) (word : String) :
    ((constantDocument typeText (some word)).decode l p).run ⟨names, [], 0⟩ =
      ((f.read? word).elim (throw (.invalidConstant (ConstantText.target t) word)) fun w =>
        (constantDocument typeText (some word)).build (mkConstant l Document.noHeap w (some t))).run
        ⟨after, [], 0⟩ := by
  have hkind : Kind.ofTag? (constantDocument typeText (some word)).kind = some .constant := Kind.ofTag_tag .constant
  have hvalue : (constantDocument typeText (some word)).value? "Type" = some typeText := rfl
  have htext : (constantDocument typeText (some word)).value? "Value" = some word := rfl
  rw [Document.decode_constant l p hkind, Document.decodeConstant, Document.value_eq hvalue, pure_bind,
    Action.run_bind_ok (run_type htype), htext]
  simp only [hf]
  cases f.read? word <;> rfl

theorem decode_word_read {f : ConstantText.Form} (hf : ConstantText.formOf? (ConstantText.target t) = some f)
    {word : String} {w : Value} (hread : f.read? word = some w)
    (hmade : mkConstant l Document.noHeap w (some t) = .ok n) :
    ((constantDocument typeText (some word)).decode l p).run ⟨names, [], 0⟩ = (.ok n, ⟨after, [], 0⟩) := by
  rw [decode_word htype hf, hread, Option.elim_some, hmade]
  rfl

theorem decode_word_refused {f : ConstantText.Form} (hf : ConstantText.formOf? (ConstantText.target t) = some f)
    {word : String} (hread : f.read? word = none) :
    ((constantDocument typeText (some word)).decode l p).run ⟨names, [], 0⟩ =
      (.error (.invalidConstant (ConstantText.target t) word), ⟨after, [], 0⟩) := by
  rw [decode_word htype hf, hread, Option.elim_none]
  rfl

end

/-- A constant of a scalar type that is written is read back as an equal constant of an equivalent type, unless it is
a truth value that stands as a whole number; then its text is refused. -/
theorem decode_instance (hl : l.HasScalars) (hn : mkConstant l h v type = .ok n)
    (hplain : v.scalarClass? = none → ∀ s : Scalar, l.isSubclass (h.className v) s.className = false)
    (hproper : v.IsProper) (htype : n.type.IsRecoverable l p.loadsModules names)
    (hobject : (ConstantText.target n.type).isObject = false) (hrun : (n.encode h policy).run s = (.ok d, s')) :
    ((∃ b, v = .bool b) ∧ ConstantText.target n.type = .int →
      ∃ word after, (d.decode l p).run ⟨names, [], 0⟩ = (.error (.invalidConstant .int word), ⟨after, [], 0⟩)) ∧
    (¬((∃ b, v = .bool b) ∧ ConstantText.target n.type = .int) →
      ∃ w t' after, (d.decode l p).run ⟨names, [], 0⟩ = (.ok (.constant w t'), ⟨after, [], 0⟩) ∧
        n.type.equivalent t' = true ∧ h.Matches v w) := by
  obtain ⟨-, rfl⟩ := mkConstant_eq_ok.mp hn
  obtain ⟨-, typeText, text, htypeText, rfl, hcases⟩ := Transfer.encodeConstant_eq_ok hrun
  obtain ⟨t', after, hdecode, -, hsame, hformed⟩ := Signature.decodeType_readable htype.isReadable htypeText .refl
  obtain ⟨hnone, rfl⟩ | ⟨hsome, hform, word, hword, rfl⟩ := hcases
  · obtain rfl : v = .none := by cases v <;> first | rfl | cases hnone
    exact ⟨by simp, fun _ => ⟨.none, t', after, decode_none hdecode hformed, hsame, .inl rfl⟩⟩
  · obtain ⟨f, hf⟩ := Option.isSome_iff_exists.mp hform
    obtain ⟨r, htarget, rfl⟩ := ConstantText.exists_ty_of_formOf? hf hobject
    have htarget' := ConstantText.target_of_equivalent htarget hsame
    have hform' : ConstantText.formOf? (ConstantText.target t') = some r.form := by rw [htarget', r.formOf?_ty]
    have hholds : r.Holds v := holds_of_mkConstant hl hn hplain (ConstantText.isOf_of_target htarget) hsome
    constructor
    · rintro ⟨⟨b, rfl⟩, hint⟩
      obtain rfl : r = .int := Scalar.className_injective r .int (Ty.cls.inj (htarget.symm.trans hint))
      have hrefused := decode_word_refused (p := p) hdecode hform' (ConstantText.read_truth b hword)
      rw [htarget'] at hrefused
      exact ⟨word, after, hrefused⟩
    · intro hother
      have htruth : r = .int → ∀ b, v ≠ .bool b := by
        rintro rfl b rfl
        exact hother ⟨⟨b, rfl⟩, htarget⟩
      have hmade := mkConstant_of_holds (h := Document.noHeap) hl (ConstantText.isOf_of_target htarget') hformed hholds.cast
      exact ⟨r.cast v, t', after,
        decode_word_read hdecode hform' (ConstantText.read_cast hholds hproper htruth hword) hmade, hsame,
        Scalar.matches_cast hholds hproper h⟩

theorem isRecoverable_sample {c : ClassName} {name : String} (hname : (Ty.cls c).qualifiedName? = some name)
    (hwords : Signature.IsTypeWord name ∧ Signature.IsWord (Ty.packageOf (Ty.cls c).module))
    (hfind : (Sample.library.find name (some (Ty.packageOf (Ty.cls c).module)) false Sample.library.preloaded).1.any
      (Ty.cls c).equivalent = true) : (Ty.cls c).IsRecoverable Sample.library false sampleNames := by
  refine ⟨.cls c, fun form hform => ?_, nofun⟩
  obtain rfl : form = .cls c := List.mem_singleton.mp hform
  exact Ty.findsItself_sample (.inr ⟨_, rfl⟩) hname hwords hfind

theorem encode_word {t : Ty} {text word : String} (hsome : v.isNone = false)
    (hform : (ConstantText.formOf? (ConstantText.target t)).isSome = true)
    (htype : Signature.encodeType t = .ok text) (hword : ConstantText.write? h v = some word) :
    ((Node.constant v t).encode h policy).run s = (.ok (constantDocument text (some word)), s) := by
  have hsupported : (ConstantText.formOf? (ConstantText.target t)).isNone = false := by simpa using hform
  have htypeText : typeText t = pure text := by rw [Node.typeText, htype]
  rw [encode, encodeConstant, hsome, hsupported, hword, htypeText]
  rfl

theorem isRecoverable_sample_str : Ty.str.IsRecoverable Sample.library false sampleNames :=
  isRecoverable_sample rfl (by decide) (by decide)

theorem isRecoverable_sample_int : Ty.int.IsRecoverable Sample.library false sampleNames :=
  isRecoverable_sample rfl (by decide) (by decide)

/-- A letter is read back as a text, and a truth value that stands as a whole number is not read back. -/
theorem decode_instance_sample :
    (∃ d w t' σ, ((Node.constant (.char 'x') .str).encode .empty none).run (Interning.start 0) =
        (.ok d, Interning.start 0) ∧
      (d.decode Sample.library .strict).run ⟨sampleNames, [], 0⟩ = (.ok (.constant w t'), σ) ∧
      Ty.str.equivalent t' = true ∧ Heap.empty.Matches (.char 'x') w) ∧
    ∃ d word σ, ((Node.constant (.bool true) .int).encode .empty none).run (Interning.start 0) =
        (.ok d, Interning.start 0) ∧
      (d.decode Sample.library .strict).run ⟨sampleNames, [], 0⟩ = (.error (.invalidConstant .int word), σ) := by
  constructor
  · obtain ⟨text, htext⟩ := Signature.exists_text (show (Signature.encodeType .str).toOption.isSome = true by decide)
    have hmade : mkConstant Sample.library .empty (.char 'x') (some .str) = .ok (.constant (.char 'x') .str) := rfl
    have hwritten : ((Node.constant (.char 'x') .str).encode .empty none).run (Interning.start 0) =
        (.ok (constantDocument text (some "x")), Interning.start 0) := encode_word rfl rfl htext rfl
    obtain ⟨-, hread⟩ := decode_instance (p := .strict) Sample.library_hasScalars hmade (by simp [Value.scalarClass?])
      trivial isRecoverable_sample_str rfl hwritten
    obtain ⟨w, t', after, hrun, hsame, hmatches⟩ := hread (by simp)
    exact ⟨_, w, t', _, hwritten, hrun, hsame, hmatches⟩
  · obtain ⟨text, htext⟩ := Signature.exists_text (show (Signature.encodeType .int).toOption.isSome = true by decide)
    have hmade : mkConstant Sample.library .empty (.bool true) (some .int) = .ok (.constant (.bool true) .int) := rfl
    have hwritten : ((Node.constant (.bool true) .int).encode .empty none).run (Interning.start 0) =
        (.ok (constantDocument text (some "true")), Interning.start 0) := encode_word rfl rfl htext rfl
    obtain ⟨hrefused, -⟩ := decode_instance (p := .strict) Sample.library_hasScalars hmade (by simp [Value.scalarClass?])
      trivial isRecoverable_sample_int rfl hwritten
    obtain ⟨word, after, hrun⟩ := hrefused ⟨⟨true, rfl⟩, rfl⟩
    exact ⟨_, word, _, hwritten, hrun⟩

/-- A truth value is accepted as a whole number, and written as a word that is no number. -/
theorem decode_truth :
    mkConstant Sample.library .empty (.bool true) (some .int) = .ok (.constant (.bool true) .int) ∧
      ∃ d σ, ((Node.constant (.bool true) .int).encode .empty none).run (Interning.start 0) =
          (.ok d, Interning.start 0) ∧
        (d.decode Sample.library .strict).run ⟨sampleNames, [], 0⟩ = (.error (.invalidConstant .int "true"), σ) := by
  obtain ⟨text, htext⟩ := Signature.exists_text (show (Signature.encodeType .int).toOption.isSome = true by decide)
  obtain ⟨t', after, hdecode, -, hsame, -⟩ := Signature.decodeType_readable isRecoverable_sample_int.isReadable htext .refl
  obtain rfl := Ty.eq_cls_of_equivalent hsame
  have hwritten : ((Node.constant (.bool true) .int).encode .empty none).run (Interning.start 0) =
      (.ok (constantDocument text (some "true")), Interning.start 0) := encode_word rfl rfl htext rfl
  have hrefused : ConstantText.Form.int.read? "true" = none := ConstantText.read_truth true (h := .empty) rfl
  exact ⟨rfl, _, _, hwritten, decode_word_refused (p := .strict) hdecode (Scalar.formOf?_ty .int) hrefused⟩

end Node

end ExprTree
