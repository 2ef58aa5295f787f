import ExprTree.Host.Sample
import ExprTree.Proofs.Ty.Congruence

/-!
# Scalar types

The classes of truth values, numbers and texts, and the unions of one of them
with the null type. Which values are instances of them can be said by cases,
and the instances of a type are among those of a type that accepts it.
-/

namespace ExprTree

/-- A class of truth values, numbers or texts. -/
inductive Scalar where
  | bool | int | decimal | str | char
  | fixed (t : IntType)
  | float (k : FloatKind)
deriving DecidableEq, Repr

namespace Scalar

def className : Scalar → ClassName
  | .bool => .builtin "bool"
  | .int => .builtin "int"
  | .decimal => .decimal
  | .str => .builtin "str"
  | .char => .char
  | .fixed t => .ofIntType t
  | .float k => k.className

def ty (s : Scalar) : Ty :=
  .cls s.className

def all : List Scalar :=
  [.bool, .int, .decimal, .str, .char] ++ IntType.all.map .fixed ++
    [FloatKind.general, .half, .single, .double].map .float

theorem mem_all (s : Scalar) : s ∈ all := by
  cases s with
  | fixed t =>
    obtain ⟨signed, width⟩ := t
    cases signed <;> cases width <;> decide
  | float k => cases k <;> decide
  | _ => decide

theorem forall_of_all {P : Scalar → Prop} (h : ∀ s ∈ all, P s) (s : Scalar) : P s :=
  h s (mem_all s)

theorem className_injective : ∀ s r : Scalar, s.className = r.className → s = r :=
  forall_of_all (by intro s hs; exact forall_of_all (by revert s; decide +kernel))

/-! ## What the typing rules ask of a scalar class -/

variable (s : Scalar)

theorem fixed?_ty : s.ty.fixed? = match s with | .fixed t => some t | _ => none := by
  revert s; exact forall_of_all (by decide +kernel)

theorem floatKind?_ty : s.ty.floatKind? = match s with | .float k => some k | _ => none := by
  revert s; exact forall_of_all (by decide +kernel)

theorem fixedFloat?_ty : s.ty.fixedFloat? = match s with
    | .float .general => none
    | .float k => some k
    | _ => none := by
  revert s; exact forall_of_all (by decide +kernel)

theorem isClass_ty (r : Scalar) : s.ty.isClass r.className = decide (s = r) := by
  change decide (r.className = s.className) = _
  rw [decide_eq_decide]
  exact ⟨fun h => (className_injective r s h).symm, fun h => h ▸ rfl⟩

theorem isInt_ty : s.ty.isInt = decide (s = .int) := s.isClass_ty .int
theorem isBool_ty : s.ty.isBool = decide (s = .bool) := s.isClass_ty .bool
theorem isStr_ty : s.ty.isStr = decide (s = .str) := s.isClass_ty .str
theorem isChar_ty : s.ty.isChar = decide (s = .char) := s.isClass_ty .char
theorem isDecimal_ty : s.ty.isDecimal = decide (s = .decimal) := s.isClass_ty .decimal

theorem className_ne : s.className ≠ .object ∧ s.className ≠ .anything ∧ s.className ≠ .nothing := by
  revert s; exact forall_of_all (by decide +kernel)

theorem isObject_ty : s.ty.isObject = false := by
  simp [Ty.isObject, Ty.isClass, ty, s.className_ne.1.symm]

theorem isNothing_ty : s.ty.isNothing = false := by
  simp [Ty.isNothing, Ty.isClass, ty, s.className_ne.2.2.symm]

/-! ## Values of a scalar class -/

/-- The scalar class that stands below another. -/
def below? : Scalar → Option Scalar
  | .int => some .bool
  | .str => some .char
  | .float .general => some (.float .double)
  | _ => none

/-- Is a value of the class, or of the one below it? -/
inductive Holds : Scalar → Value → Prop where
  | bool (b : Bool) : Holds .bool (.bool b)
  | int (n : Int) : Holds .int (.int n)
  | truth (b : Bool) : Holds .int (.bool b)
  | decimal (d : Decimal) : Holds .decimal (.decimal d)
  | str (s : String) : Holds .str (.str s)
  | letter (c : Char) : Holds .str (.char c)
  | char (c : Char) : Holds .char (.char c)
  | fixed (t : IntType) (n : Int) : Holds (.fixed t) (.fixed t n)
  | float (k : FloatKind) (x : Binary) : Holds (.float k) (.float k x)
  | double (x : Binary) : Holds (.float .general) (.float .double x)

end Scalar

namespace Value

/-- The scalar class that a value is of. -/
def scalar? : Value → Option Scalar
  | .bool _ => some .bool
  | .int _ => some .int
  | .decimal _ => some .decimal
  | .str _ => some .str
  | .char _ => some .char
  | .fixed t _ => some (.fixed t)
  | .float k _ => some (.float k)
  | _ => Option.none

/-- Is a value none, or of a scalar class? -/
def IsScalar (v : Value) : Prop :=
  v.isNone = true ∨ v.scalar?.isSome = true

theorem not_isScalar {v : Value} (hnone : v.isNone = false) (hscalar : v.scalar? = .none) : ¬v.IsScalar := by
  simp [IsScalar, hnone, hscalar]

end Value

namespace Scalar

variable {s r : Scalar} {v : Value}

theorem scalarClass?_of_scalar? (h : v.scalar? = some s) : v.scalarClass? = some s.className := by
  cases v <;> cases h <;> rfl

theorem holds_iff_scalar? : s.Holds v ↔ ∃ r, v.scalar? = some r ∧ (r = s ∨ s.below? = some r) := by
  constructor
  · intro h
    cases h <;> simp [Value.scalar?, below?]
  · rintro ⟨r, hv, rfl | hbelow⟩
    · cases v <;> cases hv <;> constructor
    · cases s with
      | int => cases hbelow; cases v <;> cases hv; constructor
      | str => cases hbelow; cases v <;> cases hv; constructor
      | float k =>
        cases k <;> cases hbelow
        cases v <;> cases hv
        constructor
      | _ => cases hbelow

/-- Nothing stands below what stands below another class. -/
theorem Holds.of_below (h : r.Holds v) (hbelow : s.below? = some r) : s.Holds v := by
  obtain ⟨q, hv, rfl | hq⟩ := holds_iff_scalar?.mp h
  · exact holds_iff_scalar?.mpr ⟨q, hv, .inr hbelow⟩
  · cases s with
    | float k => cases k <;> cases hbelow; cases hq
    | _ => cases hbelow <;> cases hq

end Scalar

/-! ## Instances -/

/-- Do the scalar classes stand to one another, and to the other classes of values, as they should? What else a library
puts below them does not matter. -/
structure Library.HasScalars (l : Library) : Prop where
  below : ∀ s r : Scalar, l.isSubclass r.className s.className = true ↔ r = s ∨ s.below? = some r
  others : ∀ (v : Value) (c : ClassName) (s : Scalar), v.scalarClass? = some c → v.scalar? = none →
    l.isSubclass c s.className = false
  nothing : ∀ s : Scalar, l.isSubclass s.className .nothing = false

/-- Is a value an instance of a type? It is one of a class as constants are; none is one of the unions with the null
type. References are instances of no scalar class. -/
def Library.Has (l : Library) (t : Ty) (v : Value) : Prop :=
  (v.isNone = true ∧ t.optionalInner?.isSome = true) ∨
    ∃ c d, Node.constantClass? t = some c ∧ v.scalarClass? = some d ∧ l.isSubclass d c = true

/-- Is the type the scalar class, or the union of it with the null type? -/
inductive Ty.IsOf : Scalar → Ty → Prop where
  | plain (s : Scalar) : IsOf s s.ty
  | optional {s : Scalar} {t : Ty} (h : t.optionalInner? = some s.ty) : IsOf s t

def Ty.IsScalar (t : Ty) : Prop :=
  ∃ s, t.IsOf s

theorem Ty.IsOf.constantClass? {s : Scalar} {t : Ty} (ht : t.IsOf s) : Node.constantClass? t = some s.className := by
  cases ht with
  | plain => rfl
  | optional h =>
    rw [Node.constantClass?, h]
    rfl

namespace Library.HasScalars

variable {l : Library} (hl : l.HasScalars) {s : Scalar} {t u : Ty} {v : Value}
include hl

theorem holds_iff : s.Holds v ↔ ∃ d, v.scalarClass? = some d ∧ l.isSubclass d s.className = true := by
  rw [Scalar.holds_iff_scalar?]
  constructor
  · rintro ⟨r, hv, hr⟩
    exact ⟨r.className, Scalar.scalarClass?_of_scalar? hv, (hl.below s r).mpr hr⟩
  · rintro ⟨d, hd, hbelow⟩
    cases hv : v.scalar? with
    | none =>
      rw [hl.others v d s hd hv] at hbelow
      cases hbelow
    | some r =>
      rw [Scalar.scalarClass?_of_scalar? hv] at hd
      cases hd
      exact ⟨r, rfl, (hl.below s r).mp hbelow⟩

theorem has_ty : l.Has s.ty v ↔ s.Holds v := by
  rw [hl.holds_iff]
  constructor
  · rintro (⟨-, hnone⟩ | ⟨c, d, hc, hd, hbelow⟩)
    · cases hnone
    · cases hc
      exact ⟨d, hd, hbelow⟩
  · rintro ⟨d, hd, hbelow⟩
    exact .inr ⟨s.className, d, rfl, hd, hbelow⟩

theorem has_optional (ht : t.optionalInner? = some s.ty) : l.Has t v ↔ v.isNone = true ∨ s.Holds v := by
  have hclass := (Ty.IsOf.optional ht).constantClass?
  rw [hl.holds_iff, Library.Has, hclass, ht]
  simp

/-- An instance is none or held by the class. -/
theorem isNone_or_holds (ht : t.IsOf s) (hv : l.Has t v) : v.isNone = true ∨ s.Holds v := by
  cases ht with
  | plain => exact .inr (hl.has_ty.mp hv)
  | optional h => exact (hl.has_optional h).mp hv

theorem isScalar (ht : t.IsOf s) (hv : l.Has t v) : v.IsScalar := by
  refine (hl.isNone_or_holds ht hv).imp id fun hv => ?_
  obtain ⟨r, hr, -⟩ := Scalar.holds_iff_scalar?.mp hv
  exact Option.isSome_of_eq_some hr

theorem has_of_holds (ht : t.IsOf s) (hv : s.Holds v) : l.Has t v := by
  cases ht with
  | plain => exact hl.has_ty.mpr hv
  | optional h => exact (hl.has_optional h).mpr (.inr hv)

end Library.HasScalars

/-! ## Instances of related types -/

namespace Ty

variable {s : Scalar} {t u : Ty}

/-- The other member of an optional type is the only one that is not the null type. -/
theorem members_of_optionalInner? (ht : t.optionalInner? = some u) :
    ∃ ms, t.members? = some ms ∧ ∀ m ∈ ms, m = u ∨ m = nothing := by
  unfold optionalInner? at ht
  split at ht
  · next horigin =>
    refine ⟨t.arguments, members?_of_origin horigin, fun m hm => ?_⟩
    split at ht
    · next r hfilter =>
      split at ht <;> cases ht
      by_cases hnothing : m.isNothing = true
      · cases m with
        | cls c => exact .inr (congrArg Ty.cls (of_decide_eq_true hnothing).symm)
        | _ => cases hnothing
      · have hmem : m ∈ t.arguments.filter (!isNothing ·) := List.mem_filter.mpr ⟨hm, by simpa using hnothing⟩
        rw [hfilter] at hmem
        exact .inl (List.mem_singleton.mp hmem)
    · cases ht
  · cases ht

theorem IsOf.isNothing (ht : t.IsOf s) : t.isNothing = false := by
  cases ht with
  | plain => exact s.isNothing_ty
  | optional h => cases t <;> first | rfl | cases h

theorem IsOf.inner (ht : t.IsOf s) (hu : t.optionalInner? = some u) : u = s.ty := by
  cases ht with
  | plain => cases hu
  | optional h =>
    rw [h] at hu
    exact (Option.some.inj hu).symm

/-- A class with scalar instances is a scalar class. -/
theorem IsOf.eq_ty {c : ClassName} (ht : t.IsOf s) (hc : t.runtimeForm.className? = some c) : t = s.ty := by
  cases ht with
  | plain => rfl
  | optional h =>
    obtain ⟨ms, hms, -⟩ := members_of_optionalInner? h
    obtain ⟨horigin, -⟩ := members?_origin hms
    rw [runtimeForm, horigin] at hc
    cases hc

end Ty

namespace Library

variable {l : Library} {s r : Scalar} {t u : Ty} {v : Value}

theorem has_congr (h : t.equivalent u = true) : l.Has t v ↔ l.Has u v := by
  unfold Has
  rw [Ty.constantClass?_congr h, Ty.isSome_optionalInner?_congr h]

namespace HasScalars

variable (hl : l.HasScalars)
include hl

theorem holds_of_accepts_ty (hu : u.IsOf r) (h : l.accepts s.ty u = true) (hv : l.Has u v) : s.Holds v := by
  obtain ⟨hobject, hanything, -⟩ := s.className_ne
  rw [accepts, Scalar.ty, Ty.accepts] at h
  simp only [hobject, hanything, decide_false, Bool.false_or, Bool.or_eq_true, Bool.and_eq_true] at h
  obtain h | ⟨-, h⟩ := h
  · exact hl.has_ty.mp ((has_congr h).mpr hv)
  · unfold Ty.classBelow at h
    split at h
    · next c d hc hd =>
      cases hd
      obtain rfl := hu.eq_ty hc
      cases hc
      obtain rfl | hbelow := (hl.below s r).mp h
      · exact hl.has_ty.mp hv
      · exact (hl.has_ty.mp hv).of_below hbelow
    · cases h

theorem not_accepts_nothing (hu : u.IsOf r) : l.accepts .nothing u = false := by
  rw [accepts, Ty.nothing, Ty.accepts, Bool.eq_false_iff]
  intro h
  simp only [Bool.or_eq_true, Bool.and_eq_true] at h
  obtain ((h | h) | h) | ⟨-, h⟩ := h
  · cases h
  · cases h
  · rw [Ty.eq_cls_of_equivalent h] at hu
    exact absurd hu.isNothing (by decide)
  · unfold Ty.classBelow at h
    split at h
    · next c d hc hd =>
      cases hd
      obtain rfl := hu.eq_ty hc
      cases hc
      rw [hl.nothing r] at h
      cases h
    · cases h

/-- What is an instance of a type is one of each type that accepts it. -/
theorem has_of_accepts (ht : t.IsOf s) (hu : u.IsOf r) (h : l.accepts t u = true) (hv : l.Has u v) : l.Has t v := by
  cases ht with
  | plain => exact hl.has_ty.mpr (hl.holds_of_accepts_ty hu h hv)
  | optional ht =>
    obtain ⟨ms, hms, hmember⟩ := Ty.members_of_optionalInner? ht
    rw [accepts, Ty.accepts_union _ hms, hu.isNothing, Bool.or_eq_true, if_neg Bool.false_ne_true,
      List.any_eq_true] at h
    obtain h | ⟨m, hm, h⟩ := h
    · exact (has_congr h).mpr hv
    · obtain rfl | rfl := hmember m hm
      · exact (hl.has_optional ht).mpr (.inr (hl.holds_of_accepts_ty hu h hv))
      · have hfalse := hl.not_accepts_nothing hu
        rw [accepts, h] at hfalse
        cases hfalse

end HasScalars

end Library

/-- The classes of the sample. -/
theorem Sample.library_hasScalars : library.HasScalars where
  below := by
    have hall : ∀ s ∈ Scalar.all, ∀ r ∈ Scalar.all,
        library.isSubclass r.className s.className = true ↔ r = s ∨ s.below? = some r := by
      decide +kernel
    exact fun s r => hall s s.mem_all r r.mem_all
  others v c s hc hv := by
    have hall : ∀ c ∈ [ClassName.nothing, ⟨"numpy", "bool"⟩, .builtin "bytes", .builtin "tuple", .builtin "dict_keys"],
        ∀ s ∈ Scalar.all, library.isSubclass c s.className = false := by
      decide +kernel
    refine hall c ?_ s s.mem_all
    cases v <;> cases hv <;> cases hc <;> decide
  nothing := Scalar.forall_of_all (by decide +kernel)

end ExprTree
