import ExprTree.Host.Sample
import ExprTree.Proofs.Eval.Scopes
import ExprTree.Proofs.Scalar.Running
import Mathlib.Data.Int.ModEq

/-!
# Exact values of integer trees

Trees of sums, differences, products and signs over one fixed width, compared
with their values in the integers. Every operator narrows its result, and since
narrowing changes no residue, whatever such a tree yields is congruent to its
exact value. With all operators checked a tree yields the exact value itself,
and does so just when the exact value of every part lies in the width.
-/

namespace ExprTree

open Action (run_bind_ok run_bind_error)

/-! ## Residues in a width -/

namespace IntType

variable {t : IntType} {m n : Int}

theorem wrap_modEq (t : IntType) (n : Int) : t.wrap n ≡ n [ZMOD 2 ^ t.bits] := by
  have h := (Int.mod_modEq (n - t.low) t.span).add_right t.low
  rwa [Int.sub_add_cancel] at h

/-- A width holds one number of each residue. -/
theorem eq_of_modEq (hm : t.Holds m) (hn : t.Holds n) (h : m ≡ n [ZMOD 2 ^ t.bits]) : m = n := by
  have hwrap : t.wrap m = t.wrap n := by
    rw [wrap, wrap, show (m - t.low) % t.span = (n - t.low) % t.span from h.sub_right t.low]
  rwa [wrap_of_holds hm, wrap_of_holds hn] at hwrap

/-- Is `m` the one number of the width that is congruent to `z`? -/
structure IsResidue (t : IntType) (z m : Int) : Prop where
  holds : t.Holds m
  modEq : m ≡ z [ZMOD 2 ^ t.bits]
  unique : ∀ k, t.Holds k → k ≡ z [ZMOD 2 ^ t.bits] → k = m

theorem isResidue_of_modEq {z : Int} (hm : t.Holds m) (h : m ≡ z [ZMOD 2 ^ t.bits]) : t.IsResidue z m :=
  ⟨hm, h, fun _ hk hz => eq_of_modEq hk hm (hz.trans h.symm)⟩

/-- An integer as it fits the width: checked, or wrapped. -/
def fit (t : IntType) (checked : Bool) (n : Int) : Except Fault Int :=
  if t.Holds n then .ok n else if checked then .error (.outOfRange t) else .ok (t.wrap n)

theorem fit_gives (t : IntType) (checked : Bool) (n : Int) :
    Gives (fun m => t.Holds m ∧ m ≡ n [ZMOD 2 ^ t.bits]) (fun f => f = .outOfRange t ∧ checked = true) (t.fit checked n) := by
  unfold fit
  refine .ite (fun h => .ok ⟨h, Int.ModEq.refl n⟩) fun _ => .ite (fun hchecked => .error ⟨rfl, hchecked⟩) fun _ => ?_
  exact .ok ⟨t.holds_wrap n, t.wrap_modEq n⟩

end IntType

theorem Arithmetic.narrow_eq (t : IntType) (checked : Bool) (n : Int) :
    narrow t checked n = (t.fit checked n).map (.fixed t) := by
  unfold narrow IntType.fit
  split_ifs <;> rfl

/-! ## The operators -/

/-- The operators that all rings have. -/
inductive RingKind where
  | add | subtract | multiply
deriving DecidableEq, Repr

namespace RingKind

def onInts : RingKind → Int → Int → Int
  | .add => (· + ·)
  | .subtract => (· - ·)
  | .multiply => (· * ·)

def arithmetic : RingKind → Bool → ArithmeticKind
  | .add, checked => if checked then .addChecked else .add
  | .subtract, checked => if checked then .subtractChecked else .subtract
  | .multiply, checked => if checked then .multiplyChecked else .multiply

theorem onInts_modEq (k : RingKind) {modulus a b c d : Int} (hac : a ≡ c [ZMOD modulus]) (hbd : b ≡ d [ZMOD modulus]) :
    k.onInts a b ≡ k.onInts c d [ZMOD modulus] := by
  cases k with
  | add => exact hac.add hbd
  | subtract => exact hac.sub hbd
  | multiply => exact hac.mul hbd

theorem operate_fixed (k : RingKind) (checked : Bool) {ty : Ty} {t : IntType} (ht : ty.fixed? = some t) (a b : Int) :
    Arithmetic.operate (.arithmetic (k.arithmetic checked)) ty (.fixed t a) (.fixed t b) =
      (t.fit checked (k.onInts a b)).map (.fixed t) := by
  rw [← Arithmetic.narrow_eq]
  cases k <;> cases checked <;>
    simp [arithmetic, onInts, Arithmetic.operate, Arithmetic.add, Arithmetic.subtract, Arithmetic.multiply, Arithmetic.apply, ht, Arithmetic.integer]

end RingKind

/-- The operator of an arithmetic kind, if it is one of a ring. -/
def ArithmeticKind.ring? : ArithmeticKind → Option RingKind
  | .add | .addChecked => some .add
  | .subtract | .subtractChecked => some .subtract
  | .multiply | .multiplyChecked => some .multiply
  | .divide | .modulo | .power => none

@[simp] theorem RingKind.ring?_arithmetic (k : RingKind) (checked : Bool) : (k.arithmetic checked).ring? = some k := by
  cases k <;> cases checked <;> rfl

/-! ## Trees of one width -/

namespace Node

def ring (k : RingKind) (checked : Bool) (left right : Node) (ty : Ty) : Node :=
  .binary (.binary (.operation (.arithmetic (k.arithmetic checked)))) left right ty

def negation (checked : Bool) (operand : Node) (ty : Ty) : Node :=
  .unary (.unary (.negate checked)) operand ty

def plus (operand : Node) (ty : Ty) : Node :=
  .unary (.unary .unaryPlus) operand ty

/-- Is it a tree of these operators over constants and parameters of one width? `Mode` says
whether its operators may be checked and whether they may be unchecked. -/
inductive IsIntegral (t : IntType) (Mode : Bool → Prop) : Node → Prop where
  | constant {n : Int} {ty : Ty} (hn : t.Holds n) (ht : ty.fixed? = some t) : IsIntegral t Mode (.constant (.fixed t n) ty)
  | parameter {p : Parameter} (ht : p.type.fixed? = some t) : IsIntegral t Mode (.parameter p)
  | ring {k : RingKind} {checked : Bool} {left right : Node} {ty : Ty} (hmode : Mode checked)
      (hl : IsIntegral t Mode left) (hr : IsIntegral t Mode right) (ht : ty.fixed? = some t) :
      IsIntegral t Mode (ring k checked left right ty)
  | negation {checked : Bool} {operand : Node} {ty : Ty} (hmode : Mode checked) (ho : IsIntegral t Mode operand)
      (ht : ty.fixed? = some t) : IsIntegral t Mode (negation checked operand ty)
  | plus {operand : Node} {ty : Ty} (ho : IsIntegral t Mode operand) (ht : ty.fixed? = some t) :
      IsIntegral t Mode (plus operand ty)

/-- The value in the integers, where parameters have these values. -/
def exact (values : Nat → Int) : Node → Int
  | .constant (.fixed _ n) _ => n
  | .parameter p => values p.number
  | .binary (.binary (.operation (.arithmetic k))) left right _ =>
    match k.ring? with
    | some k => k.onInts (left.exact values) (right.exact values)
    | none => 0
  | .unary (.unary (.negate _)) operand _ => -operand.exact values
  | .unary (.unary .unaryPlus) operand _ => operand.exact values
  | _ => 0

/-- The same tree with all operators checked, or with none. -/
def withChecks (checked : Bool) : Node → Node
  | .binary (.binary (.operation (.arithmetic k))) left right ty =>
    match k.ring? with
    | some k => ring k checked (left.withChecks checked) (right.withChecks checked) ty
    | none => .binary (.binary (.operation (.arithmetic k))) left right ty
  | .unary (.unary (.negate _)) operand ty => negation checked (operand.withChecks checked) ty
  | .unary (.unary .unaryPlus) operand ty => plus (operand.withChecks checked) ty
  | n => n

/-- Is it the tree, or a part of it? -/
inductive Within (s : Node) : Node → Prop where
  | here : Within s s
  | inside {own : Scope} {n m : Node} (hm : (own, m) ∈ n.parts) (h : Within s m) : Within s n

section
variable {t : IntType} {Mode : Bool → Prop} {values : Nat → Int} {n left right operand : Node} {ty : Ty}

@[simp] theorem exact_ring (k : RingKind) (checked : Bool) (left right : Node) (ty : Ty) :
    (ring k checked left right ty).exact values = k.onInts (left.exact values) (right.exact values) := by
  simp [ring, exact]

@[simp] theorem withChecks_ring (checked : Bool) (k : RingKind) (checked' : Bool) (left right : Node) (ty : Ty) :
    (ring k checked' left right ty).withChecks checked =
      ring k checked (left.withChecks checked) (right.withChecks checked) ty := by
  simp [ring, withChecks]

theorem IsIntegral.fixed? (hn : n.IsIntegral t Mode) : n.type.fixed? = some t := by
  cases hn <;> assumption

theorem IsIntegral.withChecks (hn : n.IsIntegral t Mode) (checked : Bool) :
    (n.withChecks checked).IsIntegral t (· = checked) := by
  induction hn with
  | constant hn ht => exact .constant hn ht
  | parameter ht => exact .parameter ht
  | ring _ _ _ ht ihl ihr =>
    rw [withChecks_ring]
    exact .ring rfl ihl ihr ht
  | negation _ _ ht ih => exact .negation rfl ih ht
  | plus _ ht ih => exact .plus ih ht

theorem IsIntegral.exact_withChecks (hn : n.IsIntegral t Mode) (checked : Bool) (values : Nat → Int) :
    (n.withChecks checked).exact values = n.exact values := by
  induction hn with
  | constant | parameter => rfl
  | ring _ _ _ _ ihl ihr => rw [withChecks_ring, exact_ring, exact_ring, ihl, ihr]
  | negation _ _ _ ih => exact congrArg (- ·) ih
  | plus _ _ ih => exact ih

theorem IsIntegral.parameters_withChecks (hn : n.IsIntegral t Mode) (checked : Bool) :
    (n.withChecks checked).parameters = n.parameters := by
  induction hn with
  | constant | parameter => rfl
  | ring _ _ _ _ ihl ihr =>
    rw [withChecks_ring]
    exact congrArg₂ (· ++ ·) ihl ihr
  | negation _ _ _ ih => exact ih
  | plus _ _ ih => exact ih

/-! ### Trees that are built -/

theorem IsIntegral.of_mkBinary {l : Library} {k : RingKind} {checked : Bool} (hmode : Mode checked)
    (hn : mkBinary l (.binary (.operation (.arithmetic (k.arithmetic checked)))) left right = .ok n)
    (hl : left.IsIntegral t Mode) (hr : right.IsIntegral t Mode) : n.IsIntegral t Mode := by
  obtain ⟨-, rfl⟩ := mkBinary_operation.mp hn
  exact .ring hmode hl hr hl.fixed?

theorem type_of_mkUnary {u : UnaryKind} {type : Option Ty} (hu : u = .unaryPlus ∨ ∃ checked, u = .negate checked)
    (hn : mkUnary (.unary u) operand type = .ok n) : n = .unary (.unary u) operand operand.type := by
  have hconvert : ∀ c, u ≠ .convert c := by
    rintro c rfl
    obtain h | ⟨_, h⟩ := hu <;> cases h
  obtain ⟨ty, hty, -, rfl⟩ := (mkUnary_eq_ok hconvert).mp hn
  have htype : (if operand.type.isNumeric then pure operand.type else throw (.undefinedFor (.unary u) operand.type) : Built Ty) =
      .ok ty := by
    obtain rfl | ⟨_, rfl⟩ := hu <;> exact hty
  rw [(of_ite_eq_ok htype).2]

theorem IsIntegral.of_mkUnary {u : UnaryKind} {type : Option Ty} (hu : u = .unaryPlus ∨ ∃ checked, u = .negate checked ∧ Mode checked)
    (hn : mkUnary (.unary u) operand type = .ok n) (ho : operand.IsIntegral t Mode) : n.IsIntegral t Mode := by
  obtain rfl := type_of_mkUnary (hu.imp id fun ⟨checked, h, _⟩ => ⟨checked, h⟩) hn
  obtain rfl | ⟨checked, rfl, hmode⟩ := hu
  · exact .plus ho ho.fixed?
  · exact .negation hmode ho ho.fixed?

/-! ### Parts -/

/-- Does the exact value of every part lie in the width? -/
def StaysIn (t : IntType) (values : Nat → Int) (n : Node) : Prop :=
  ∀ s, Within s n → t.Holds (s.exact values)

theorem within_iff {s : Node} : Within s n ↔ s = n ∨ ∃ e ∈ n.parts, Within s e.2 := by
  constructor
  · rintro (_ | ⟨hm, h⟩)
    · exact .inl rfl
    · exact .inr ⟨_, hm, h⟩
  · rintro (rfl | ⟨⟨own, m⟩, hm, h⟩)
    · exact .here
    · exact .inside hm h

theorem staysIn_iff : StaysIn t values n ↔ t.Holds (n.exact values) ∧ ∀ e ∈ n.parts, StaysIn t values e.2 := by
  constructor
  · exact fun h => ⟨h n .here, fun e he s hs => h s (.inside he hs)⟩
  · rintro ⟨hn, hparts⟩ s hs
    obtain rfl | ⟨e, he, hs⟩ := within_iff.mp hs
    · exact hn
    · exact hparts e he s hs

theorem staysIn_ring {k : RingKind} {checked : Bool} :
    StaysIn t values (ring k checked left right ty) ↔
      (StaysIn t values left ∧ StaysIn t values right) ∧ t.Holds (k.onInts (left.exact values) (right.exact values)) := by
  rw [staysIn_iff, exact_ring]
  simp only [ring, parts, List.mem_cons, List.not_mem_nil, or_false, forall_eq_or_imp, forall_eq]
  tauto

theorem staysIn_negation {checked : Bool} :
    StaysIn t values (negation checked operand ty) ↔ StaysIn t values operand ∧ t.Holds (-operand.exact values) := by
  rw [staysIn_iff]
  simp only [negation, parts, exact, List.mem_cons, List.not_mem_nil, or_false, forall_eq]
  tauto

theorem staysIn_plus : StaysIn t values (plus operand ty) ↔ StaysIn t values operand := by
  rw [staysIn_iff]
  simp only [plus, parts, exact, List.mem_cons, List.not_mem_nil, or_false, forall_eq]
  exact ⟨And.right, fun h => ⟨h operand .here, h⟩⟩

theorem IsIntegral.staysIn_withChecks (hn : n.IsIntegral t Mode) (checked : Bool) :
    StaysIn t values (n.withChecks checked) ↔ StaysIn t values n := by
  induction hn with
  | constant | parameter => exact Iff.rfl
  | ring _ hl hr _ ihl ihr =>
    rw [withChecks_ring, staysIn_ring, staysIn_ring, ihl, ihr, hl.exact_withChecks, hr.exact_withChecks]
  | @negation _ operand ty _ ho _ ih =>
    rw [show (Node.negation _ operand ty).withChecks checked = Node.negation checked (operand.withChecks checked) ty from rfl,
      staysIn_negation, staysIn_negation, ih, ho.exact_withChecks]
  | @plus operand ty _ _ ih =>
    rw [show (Node.plus operand ty).withChecks checked = Node.plus (operand.withChecks checked) ty from rfl, staysIn_plus,
      staysIn_plus, ih]

end

/-! ## Running a tree of one width -/

section
variable (host : Host) (apply : Apply) {frame : Frame} {h : Heap} {t : IntType} {Mode : Bool → Prop}
  {values : Nat → Int} {n left right operand : Node} {ty : Ty}

/-- Does the tree end with this result in integers of the width, and leave the heap? -/
def Runs (frame : Frame) (h : Heap) (t : IntType) (n : Node) (r : Except Fault Int) : Prop :=
  (n.eval host apply frame).run h = (r.map (.fixed t), h)

theorem runs_parameter {p : Parameter} {m : Int} (hp : frame.lookup? h p.number = some (.fixed t m)) :
    Runs host apply frame h t (.parameter p) (.ok m) := by
  rw [Runs, eval, Run.readParameter, run_bind_ok (Action.run_get h), hp]
  rfl

theorem runs_ring {k : RingKind} {checked : Bool} {r s : Except Fault Int} (hl : Runs host apply frame h t left r)
    (hr : Runs host apply frame h t right s) (hleft : left.type.fixed? = some t) :
    Runs host apply frame h t (ring k checked left right ty) (do t.fit checked (k.onInts (← r) (← s))) := by
  rw [Runs, ring, eval]
  cases r with
  | error f => rw [run_bind_error hl]; rfl
  | ok a =>
    rw [run_bind_ok hl]
    cases s with
    | error f => rw [run_bind_error hr]; rfl
    | ok b =>
      rw [run_bind_ok hr, Run.operate_eq (.inr rfl) (.inr rfl), k.operate_fixed checked hleft]
      cases h : t.fit checked (k.onInts a b) <;> simp [h]

theorem runs_negation {checked : Bool} {r : Except Fault Int} (ho : Runs host apply frame h t operand r)
    (hoperand : operand.type.fixed? = some t) :
    Runs host apply frame h t (negation checked operand ty) (do t.fit checked (-(← r))) := by
  rw [Runs, negation, eval]
  cases r with
  | error f => rw [run_bind_error ho]; rfl
  | ok a =>
    have hnegate : Arithmetic.negate operand.type checked (.fixed t a) = (t.fit checked (-a)).map (.fixed t) := by
      rw [← Arithmetic.narrow_eq]
      simp [Arithmetic.negate, hoperand, Arithmetic.integer]
    rw [run_bind_ok ho]
    simp only [unaryValue, hnegate]
    cases h : t.fit checked (-a) <;> simp [h]

theorem runs_plus {r : Except Fault Int} (ho : Runs host apply frame h t operand r) :
    Runs host apply frame h t (plus operand ty) r := by
  rw [Runs, plus, eval]
  cases r with
  | error f => rw [run_bind_error ho]; rfl
  | ok a => rw [run_bind_ok ho]; rfl

/-- Do the scopes of a frame hold numbers of the width, those given, for these parameters? -/
def HoldsValues (frame : Frame) (h : Heap) (t : IntType) (values : Nat → Int) (ps : List Parameter) : Prop :=
  ∀ p ∈ ps, t.Holds (values p.number) ∧ frame.lookup? h p.number = some (.fixed t (values p.number))

theorem holdsValues_append {ps qs : List Parameter} :
    HoldsValues frame h t values (ps ++ qs) ↔ HoldsValues frame h t values ps ∧ HoldsValues frame h t values qs :=
  List.forall_mem_append

/-- Whatever the operators are, what comes out is congruent to the exact value; only a checked operator fails. -/
theorem IsIntegral.runs (hn : n.IsIntegral t Mode) (hvalues : HoldsValues frame h t values n.parameters) :
    ∃ r, Runs host apply frame h t n r ∧
      Gives (fun m => t.Holds m ∧ m ≡ n.exact values [ZMOD 2 ^ t.bits]) (fun f => f = .outOfRange t ∧ Mode true) r := by
  induction hn with
  | @constant m ty hm ht => exact ⟨.ok m, rfl, .ok ⟨hm, Int.ModEq.refl m⟩⟩
  | @parameter p ht =>
    obtain ⟨hp, hlookup⟩ := hvalues p (List.mem_singleton.mpr rfl)
    exact ⟨_, runs_parameter host apply hlookup, .ok ⟨hp, Int.ModEq.refl _⟩⟩
  | @ring k checked left right ty hmode hl hr ht ihl ihr =>
    obtain ⟨hvl, hvr⟩ := holdsValues_append.mp hvalues
    obtain ⟨r, hrunl, hgl⟩ := ihl hvl
    obtain ⟨s, hrunr, hgr⟩ := ihr hvr
    refine ⟨_, runs_ring host apply hrunl hrunr hl.fixed?, hgl.bind fun a ha => hgr.bind fun b hb => ?_⟩
    rw [exact_ring]
    refine (t.fit_gives checked _).imp (fun m hm => ⟨hm.1, hm.2.trans (k.onInts_modEq ha.2 hb.2)⟩) fun f hf => ?_
    exact ⟨hf.1, hf.2 ▸ hmode⟩
  | @negation checked operand ty hmode ho ht ih =>
    obtain ⟨r, hrun, hg⟩ := ih hvalues
    refine ⟨_, runs_negation host apply hrun ho.fixed?, hg.bind fun a ha => ?_⟩
    refine (t.fit_gives checked _).imp (fun m hm => ⟨hm.1, hm.2.trans ha.2.neg⟩) fun f hf => ⟨hf.1, hf.2 ▸ hmode⟩
  | @plus operand ty ho ht ih =>
    obtain ⟨r, hrun, hg⟩ := ih hvalues
    exact ⟨r, runs_plus host apply hrun, hg⟩

/-- With all operators checked, the exact value comes out, unless a part leaves the width. -/
theorem IsIntegral.runs_checked (hn : n.IsIntegral t (· = true)) (hvalues : HoldsValues frame h t values n.parameters) :
    ∃ r, Runs host apply frame h t n r ∧
      Gives (fun m => m = n.exact values ∧ StaysIn t values n) (fun f => f = .outOfRange t ∧ ¬ StaysIn t values n) r := by
  -- the last operator of a tree whose other parts stay in the width
  have hfit : ∀ (m : Int) (p : Prop), (p ↔ t.Holds m) →
      Gives (fun m' => m' = m ∧ p) (fun f => f = .outOfRange t ∧ ¬ p) (t.fit true m) := fun m p hp => by
    unfold IntType.fit
    refine .ite (fun h => .ok ⟨rfl, hp.mpr h⟩) fun h => ?_
    exact .error ⟨rfl, fun hh => h (hp.mp hh)⟩
  induction hn with
  | @constant m ty hm ht =>
    refine ⟨.ok m, rfl, .ok ⟨rfl, staysIn_iff.mpr ⟨hm, ?_⟩⟩⟩
    simp [parts]
  | @parameter p ht =>
    obtain ⟨hp, hlookup⟩ := hvalues p (List.mem_singleton.mpr rfl)
    refine ⟨_, runs_parameter host apply hlookup, .ok ⟨rfl, staysIn_iff.mpr ⟨hp, ?_⟩⟩⟩
    simp [parts]
  | @ring k checked left right ty hmode hl hr ht ihl ihr =>
    subst hmode
    obtain ⟨hvl, hvr⟩ := holdsValues_append.mp hvalues
    obtain ⟨r, hrunl, hgl⟩ := ihl hvl
    obtain ⟨s, hrunr, hgr⟩ := ihr hvr
    refine ⟨_, runs_ring host apply hrunl hrunr hl.fixed?, ?_⟩
    rw [exact_ring, staysIn_ring]
    refine (hgl.imp (fun _ h => h) fun f hf => ⟨hf.1, fun h => hf.2 h.1.1⟩).bind fun a ha => ?_
    refine (hgr.imp (fun _ h => h) fun f hf => ⟨hf.1, fun h => hf.2 h.1.2⟩).bind fun b hb => ?_
    rw [ha.1, hb.1]
    exact hfit _ _ (and_iff_right ⟨ha.2, hb.2⟩)
  | @negation checked operand ty hmode ho ht ih =>
    subst hmode
    obtain ⟨r, hrun, hg⟩ := ih hvalues
    refine ⟨_, runs_negation host apply hrun ho.fixed?, ?_⟩
    rw [staysIn_negation]
    refine (hg.imp (fun _ h => h) fun f hf => ⟨hf.1, fun h => hf.2 h.1⟩).bind fun a ha => ?_
    rw [ha.1]
    exact hfit _ _ (and_iff_right ha.2)
  | @plus operand ty ho ht ih =>
    obtain ⟨r, hrun, hg⟩ := ih hvalues
    refine ⟨r, runs_plus host apply hrun, ?_⟩
    rw [staysIn_plus]
    exact hg

/-- Whatever a tree of one width yields is the residue of its exact value, and without checks it
yields. With all of them it yields the exact value if no part leaves the width, and overflows if one does. -/
theorem eval_exact (hn : n.IsIntegral t fun _ => True) (hvalues : HoldsValues frame h t values n.parameters) :
    (∀ v k, (n.eval host apply frame).run h = (.ok v, k) → ∃ m, v = .fixed t m ∧ t.IsResidue (n.exact values) m) ∧
    (∃ m, ((n.withChecks false).eval host apply frame).run h = (.ok (.fixed t m), h) ∧ t.IsResidue (n.exact values) m) ∧
    ((∃ v k, ((n.withChecks true).eval host apply frame).run h = (.ok v, k)) ↔
      ∀ s, Within s n → t.Holds (s.exact values)) ∧
    ((∀ s, Within s n → t.Holds (s.exact values)) → ∀ checked,
      ((n.withChecks checked).eval host apply frame).run h = (.ok (.fixed t (n.exact values)), h)) ∧
    ((∃ s, Within s n ∧ ¬ t.Holds (s.exact values)) →
      ∃ f, ((n.withChecks true).eval host apply frame).run h = (.error f, h) ∧ f.kind = .overflow) := by
  have hunchecked : ∃ m, ((n.withChecks false).eval host apply frame).run h = (.ok (.fixed t m), h) ∧
      t.IsResidue (n.exact values) m := by
    obtain ⟨r, hrun, hgives⟩ := (hn.withChecks false).runs host apply (by rwa [hn.parameters_withChecks])
    cases hgives with
    | error hf => cases hf.2
    | ok hm =>
      rw [hn.exact_withChecks] at hm
      exact ⟨_, hrun, IntType.isResidue_of_modEq hm.1 hm.2⟩
  -- with every check made, the run tells whether all parts stay in the width
  obtain ⟨r, hrun, hgives⟩ := (hn.withChecks true).runs_checked host apply (by rwa [hn.parameters_withChecks])
  rw [hn.staysIn_withChecks, hn.exact_withChecks] at hgives
  have hexact : StaysIn t values n → ∀ checked,
      ((n.withChecks checked).eval host apply frame).run h = (.ok (.fixed t (n.exact values)), h) := by
    intro hstays checked
    cases checked with
    | true =>
      cases hgives with
      | error hf => exact absurd hstays hf.2
      | ok hm => rw [← hm.1]; exact hrun
    | false =>
      obtain ⟨m, hrun, hm⟩ := hunchecked
      rw [hm.unique _ (hstays n .here) (Int.ModEq.refl _)]
      exact hrun
  refine ⟨?_, hunchecked, ⟨?_, fun hstays => ⟨_, _, hexact hstays true⟩⟩, hexact, ?_⟩
  · intro v k hv
    obtain ⟨r, hrun, hgives⟩ := hn.runs host apply hvalues
    cases hgives with
    | error hf => cases hrun.symm.trans hv
    | ok hm =>
      cases hrun.symm.trans hv
      exact ⟨_, rfl, IntType.isResidue_of_modEq hm.1 hm.2⟩
  · rintro ⟨v, k, hv⟩
    cases hgives with
    | error hf => cases hrun.symm.trans hv
    | ok hm => exact hm.2
  · rintro ⟨s, hs, hout⟩
    cases hgives with
    | error hf => exact ⟨_, hrun, by rw [hf.1]; rfl⟩
    | ok hm => exact absurd (hm.2 s hs) hout

end

/-- Three times a number less a hundred, in eight bits with a sign. -/
def tripled : Node :=
  let ty := (Scalar.fixed ⟨true, .w8⟩).ty
  ring .subtract false (ring .multiply true (.parameter ⟨0, ty, some "x"⟩) (.constant (.fixed ⟨true, .w8⟩ 3) ty) ty)
    (.constant (.fixed ⟨true, .w8⟩ 100) ty) ty

/-- Of fifty, the product leaves the width, and the difference is in it again. -/
theorem eval_exact_tripled :
    let h : Heap := ⟨#[.scope [(0, .fixed ⟨true, .w8⟩ 50)]]⟩
    tripled.IsIntegral ⟨true, .w8⟩ (fun _ => True) ∧ HoldsValues [0] h ⟨true, .w8⟩ (fun _ => 50) tripled.parameters ∧
      (∃ m, ((tripled.withChecks false).eval Sample.host Sample.host.apply [0]).run h = (.ok (.fixed ⟨true, .w8⟩ m), h) ∧
        IntType.IsResidue ⟨true, .w8⟩ 50 m) ∧
      ∃ f, ((tripled.withChecks true).eval Sample.host Sample.host.apply [0]).run h = (.error f, h) ∧ f.kind = .overflow := by
  intro h
  have hty : (Scalar.fixed ⟨true, .w8⟩).ty.fixed? = some ⟨true, .w8⟩ := by decide
  have hn : tripled.IsIntegral ⟨true, .w8⟩ fun _ => True :=
    .ring trivial (.ring trivial (.parameter hty) (.constant (by decide) hty) hty) (.constant (by decide) hty) hty
  have hvalues : HoldsValues [0] h ⟨true, .w8⟩ (fun _ => 50) tripled.parameters := by
    intro p hp
    obtain rfl := List.mem_singleton.mp hp
    exact ⟨by decide, rfl⟩
  obtain ⟨-, hunchecked, -, -, hoverflows⟩ := eval_exact Sample.host Sample.host.apply hn hvalues
  refine ⟨hn, hvalues, hunchecked, hoverflows ⟨_, .inside (.tail _ (.head _)) .here, ?_⟩⟩
  decide

end Node

end ExprTree
