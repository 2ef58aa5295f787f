import ExprTree.Document.Constant
import ExprTree.Proofs.Number.RoundTrip
import ExprTree.Proofs.Ty.Congruence

/-!
# Reading written constants

A value of one of the classes that constants can have is written so that it
reads back, with its own class: numbers exactly, texts as they are. The class
that is read is named by the type, or by what the type is optional over.
-/

namespace ExprTree

/-- Is a number one that its class can hold? -/
def Value.IsProper : Value → Prop
  | .fixed t n => t.Holds n
  | .float k x => k.format.Holds x
  | .decimal d => d.isRepresentable = true
  | _ => True

instance (v : Value) : Decidable v.IsProper := by
  cases v <;> unfold Value.IsProper <;> infer_instance

namespace ConstantText

/-- Is the value none, or exactly of the class that constants of the type are read as? -/
def IsExact (v : Value) (t : Ty) : Prop :=
  v = .none ∨ ∃ c, v.scalarClass? = some c ∧ target t = .cls c ∧ v.IsProper

variable {h : Heap} {v : Value} {c : ClassName} {f : Form} {s : String}

theorem digitCount_le_of_holds {t : IntType} {n : Int} (hn : t.Holds n) : digitCount n.natAbs ≤ integerDigitLimit := by
  have hbound : n.natAbs < 10 ^ integerDigitLimit := by
    have hlow : -(2 ^ 64) ≤ t.low := by
      obtain ⟨s, w⟩ := t
      cases s <;> cases w <;> decide
    have hhigh : t.high ≤ 2 ^ 64 := by
      obtain ⟨s, w⟩ := t
      cases s <;> cases w <;> decide
    obtain ⟨h₁, h₂⟩ := hn
    have hsmall : n.natAbs ≤ 2 ^ 64 := by omega
    exact hsmall.trans_lt (by decide +kernel)
  exact (Text.length_toDigits_le (by decide)).mpr hbound

theorem read_integerText {n : Int} (hs : integerText? n = some s) : readInteger? s = some n := by
  unfold integerText? at hs
  split at hs
  · cases hs
  · next hcount =>
    cases hs
    exact readInteger_toString (not_lt.mp hcount)

/-- A float is read as the double it was written as, and that is converted back. -/
theorem read_float {k : FloatKind} {x : Binary} (hx : k.format.Holds x) :
    (Form.float k).read? (FloatStyle.double.render x) = some (.float k x) := by
  have hdouble : Format.double.Holds (Format.double.convert x) ∧ k.format.convert (Format.double.convert x) = x := by
    cases k with
    | general | double =>
      rw [show Format.double.convert x = x from Format.convert_of_holds (by decide) hx]
      exact ⟨hx, Format.convert_of_holds (by decide) hx⟩
    | half => exact Format.convert_widened (by decide) ⟨by decide, by decide, by decide⟩ hx
    | single => exact Format.convert_widened (by decide) ⟨by decide, by decide, by decide⟩ hx
  have hrender : FloatStyle.double.render x = FloatStyle.double.render (Format.double.convert x) := by
    have hsame : FloatStyle.double.format.convert (Format.double.convert x) = FloatStyle.double.format.convert x :=
      Format.convert_of_holds (by decide) hdouble.1
    unfold FloatStyle.render
    rw [hsame]
  rw [hrender, Form.read?, Binary.read_render hdouble.1, Option.map_some, hdouble.2]

theorem formOf_fixed (t : IntType) : formOf? (.cls (.ofIntType t)) = some (.fixed t) := by
  obtain ⟨s, w⟩ := t
  cases s <;> cases w <;> rfl

/-- What is written of a value is read as the value. -/
theorem read_write (hc : v.scalarClass? = some c) (hv : v.IsProper) (hf : formOf? (.cls c) = some f)
    (hs : write? h v = some s) : f.read? s = some v := by
  cases v with
  | bool b =>
    cases hc
    cases hf
    cases hs
    cases b with
    | true => rw [Form.read?, if_pos rfl, if_pos (by decide +kernel)]
    | false => rw [Form.read?, if_neg (by decide +kernel), if_pos (by decide +kernel)]
  | int n =>
    cases hc
    cases hf
    rw [Form.read?, read_integerText hs, Option.map_some]
  | fixed t n =>
    cases hc
    cases hs
    obtain rfl : f = .fixed t := by simpa [formOf_fixed, eq_comm] using hf
    have hn : t.Holds n := hv
    rw [Form.read?, readInteger_toString (digitCount_le_of_holds hn), Option.bind_some, if_pos hn]
  | float k x =>
    cases hc
    cases hs
    obtain rfl : f = .float k := by
      cases k <;> cases hf <;> rfl
    exact read_float hv
  | decimal d =>
    cases hc
    cases hf
    cases hs
    rw [Form.read?, Decimal.read_render hv, Option.map_some]
  | str t =>
    cases hc
    cases hf
    cases hs
    rfl
  | char x =>
    cases hc
    cases hf
    cases hs
    rw [Form.read?, String.toList_singleton]
  | _ => cases hc <;> cases hf

/-! ## What was read -/

theorem digitCount_le_of_read {n : Int} (hs : readInteger? s = some n) : digitCount n.natAbs ≤ integerDigitLimit := by
  unfold readInteger? at hs
  simp only [Option.bind_eq_bind, Option.bind_eq_some_iff] at hs
  obtain ⟨ds, -, hn⟩ := hs
  split at hn
  · next hds =>
    simp only [Bool.and_eq_true, decide_eq_true_eq, List.all_eq_true] at hds
    obtain ⟨⟨-, hdigits⟩, hlength⟩ := hds
    have hsmall : Text.natOfDigits ds < 10 ^ integerDigitLimit :=
      (Text.natOfDigits_lt hdigits).trans_le (Nat.pow_le_pow_right (by decide) hlength)
    have habs : n.natAbs = Text.natOfDigits ds := by
      cases hn
      unfold withSign
      split <;> simp
    rw [habs]
    exact (Text.length_toDigits_le (by decide)).mpr hsmall
  · cases hn

theorem isRepresentable_of_read {d : Decimal} (hs : Decimal.read? s = some d) : d.isRepresentable = true := by
  unfold Decimal.read? at hs
  dsimp only at hs
  split at hs
  · cases hs
    rfl
  · split at hs
    · obtain ⟨p, -, rfl⟩ := Option.map_eq_some_iff.mp hs
      rfl
    · split at hs
      · obtain ⟨p, -, rfl⟩ := Option.map_eq_some_iff.mp hs
        rfl
      · obtain ⟨⟨digits, k⟩, -, hd⟩ := Option.bind_eq_some_iff.mp hs
        dsimp only at hd
        split at hd
        · next hrange =>
          cases hd
          exact hrange
        · cases hd

/-- What is read in a form has a class whose constants are read in that form. -/
theorem class_of_read (hs : f.read? s = some v) : ∃ c, v.scalarClass? = some c ∧ v.IsProper ∧ formOf? (.cls c) = some f := by
  cases f with
  | bool =>
    have hv : ∃ b, v = .bool b := by
      simp only [Form.read?] at hs
      split at hs
      · exact ⟨true, (Option.some.inj hs).symm⟩
      · split at hs
        · exact ⟨false, (Option.some.inj hs).symm⟩
        · cases hs
    obtain ⟨b, rfl⟩ := hv
    exact ⟨_, rfl, trivial, rfl⟩
  | char =>
    simp only [Form.read?] at hs
    split at hs
    · cases hs
      exact ⟨_, rfl, trivial, rfl⟩
    · cases hs
  | int =>
    obtain ⟨n, -, rfl⟩ := Option.map_eq_some_iff.mp hs
    exact ⟨_, rfl, trivial, rfl⟩
  | decimal =>
    obtain ⟨d, hd, rfl⟩ := Option.map_eq_some_iff.mp hs
    exact ⟨_, rfl, isRepresentable_of_read hd, rfl⟩
  | text =>
    cases hs
    exact ⟨_, rfl, trivial, rfl⟩
  | fixed t =>
    obtain ⟨n, -, hn⟩ := Option.bind_eq_some_iff.mp hs
    split at hn
    · next hholds =>
      cases hn
      exact ⟨_, rfl, hholds, formOf_fixed t⟩
    · cases hn
  | float k =>
    obtain ⟨x, -, rfl⟩ := Option.map_eq_some_iff.mp hs
    have hholds : k.format.Holds (k.format.convert x) := Format.holds_convert (by cases k <;> decide) (by cases k <;> decide) x
    exact ⟨_, rfl, hholds, by cases k <;> rfl⟩

/-- What is read can be written. -/
theorem exists_write_of_read (hs : f.read? s = some v) (h : Heap) : ∃ word, write? h v = some word := by
  cases v with
  | int n =>
    obtain ⟨c, hc, -, hform⟩ := class_of_read hs
    cases hc
    cases hform
    obtain ⟨n', hn, hv⟩ := Option.map_eq_some_iff.mp hs
    cases hv
    refine ⟨toString n, ?_⟩
    have hshort := digitCount_le_of_read hn
    change integerText? n = some (toString n)
    rw [integerText?, if_neg (not_lt.mpr hshort)]
  | none | bytes | tuple | ref | keys | flag =>
    obtain ⟨c, hc, -, hform⟩ := class_of_read hs
    cases hc <;> cases hform
  | _ => exact ⟨_, rfl⟩

/-- Is what is written of the value read as the value again, in the form that constants of the type have? -/
def Rereads (v : Value) (t : Ty) : Prop :=
  v = .none ∨ ∀ f, formOf? (target t) = some f → ∀ h word, write? h v = some word → f.read? word = some v

theorem IsExact.rereads {t : Ty} (hv : IsExact v t) : Rereads v t := by
  obtain rfl | ⟨c, hc, htarget, hproper⟩ := hv
  · exact .inl rfl
  · exact .inr fun f hf h word hword => read_write hc hproper (htarget ▸ hf) hword

theorem rereads_of_read {t : Ty} (hf : formOf? (target t) = some f) (hs : f.read? s = some v) : Rereads v t := by
  refine .inr fun f' hf' h word hword => ?_
  obtain rfl := Option.some.inj (hf.symm.trans hf')
  obtain ⟨c, hc, hproper, hform⟩ := class_of_read hs
  exact read_write hc hproper hform hword

/-! ## Equivalent types -/

theorem formOf?_congr {t t' : Ty} (ht : t.equivalent t' = true) : formOf? t = formOf? t' := by
  simp only [formOf?, Ty.isBool_congr ht, Ty.isChar_congr ht, Ty.isInt_congr ht, Ty.isDecimal_congr ht, Ty.isStr_congr ht,
    Ty.isObject_congr ht, Ty.fixed?_congr ht, Ty.floatKind?_congr ht]

theorem target_equivalent {t t' : Ty} (ht : t.equivalent t' = true) : (target t).equivalent (target t') = true := by
  have hinner := Ty.optionalInner?_congr ht
  unfold target
  generalize t.optionalInner? = i at hinner
  generalize t'.optionalInner? = i' at hinner
  cases hinner with
  | none => exact ht
  | some hi => exact hi

theorem Rereads.congr {t t' : Ty} (ht : t.equivalent t' = true) (hv : Rereads v t) : Rereads v t' := by
  rwa [Rereads, ← formOf?_congr (target_equivalent ht)]

end ConstantText

end ExprTree
