import ExprTree.Proofs.Signature.Resolution

/-!
# Texts and equivalent types

Equivalent types are written alike. The converse holds of types all of whose
applications are of classes or of the union form, when these have names that
differ and no stop in them: then a text says where it ends and what it is
written for. Each text starts with a run of characters that are no stops, and
the stop behind the run tells a parameter, a form and an application apart.
-/

namespace ExprTree

namespace Ty

mutual

/-- The type itself and its arguments, theirs included. -/
def parts : Ty → List Ty
  | .generic o as => .generic o as :: partsOfAll as
  | .bar ms => .bar ms :: partsOfAll ms
  | t => [t]

def partsOfAll : List Ty → List Ty
  | [] => []
  | t :: ts => parts t ++ partsOfAll ts

end

theorem partsOfAll_eq (ts : List Ty) : partsOfAll ts = ts.flatMap parts := by
  induction ts with
  | nil => rfl
  | cons t ts ih => simp [partsOfAll, ih]

theorem parts_eq (t : Ty) : t.parts = t :: t.arguments.flatMap parts := by
  cases t <;> simp [parts, arguments, partsOfAll_eq]

theorem mem_parts_self (t : Ty) : t ∈ t.parts := by
  rw [parts_eq]
  exact List.mem_cons_self

theorem mem_parts_of_argument {t a s : Ty} (ha : a ∈ t.arguments) (hs : s ∈ a.parts) : s ∈ t.parts := by
  rw [parts_eq]
  exact List.mem_cons_of_mem _ (List.mem_flatMap.mpr ⟨a, ha, hs⟩)

theorem forms_of_isForm {f : Ty} (hf : f.isForm = true) : f.forms = [f] := by
  cases f <;> first | rfl | cases hf

/-- Are arguments given to classes and the union form only, and not to what has arguments already? -/
def AppliesForms (t : Ty) : Prop :=
  ∀ s ∈ t.parts, s.origin?.all isForm = true

instance (t : Ty) : Decidable t.AppliesForms :=
  inferInstanceAs (Decidable (∀ s ∈ t.parts, s.origin?.all isForm = true))

theorem AppliesForms.isForm {t o : Ty} (h : t.AppliesForms) (ho : t.origin? = some o) : o.isForm = true := by
  simpa [ho] using h t t.mem_parts_self

/-- Is the type free of null values, with arguments only for forms, and those among the given ones? -/
structure IsLegible (forms : List Ty) (t : Ty) : Prop where
  noNull : ∀ s ∈ t.parts, s.isNull = false
  applies : t.AppliesForms
  named : t.forms ⊆ forms

theorem IsLegible.argument {forms : List Ty} {t a : Ty} (h : t.IsLegible forms) (ha : a ∈ t.arguments) :
    a.IsLegible forms where
  noNull s hs := h.noNull s (mem_parts_of_argument ha hs)
  applies s hs := h.applies s (mem_parts_of_argument ha hs)
  named _ hf := h.named (mem_forms_of_argument ha hf)

/-- Do different classes and forms have different names, and is there no stop in any of these? -/
structure NamedApart (forms : List Ty) : Prop where
  distinct : ∀ f ∈ forms, ∀ g ∈ forms, f.isForm = true → g.isForm = true → f.qualifiedName? = g.qualifiedName? → f = g
  free : ∀ f ∈ forms, ∀ name, f.qualifiedName? = some name → ∀ c ∈ name.toList, Signature.Reader.isStop c = false

theorem eq_form_of_same {f g : Ty} (hf : f.isForm = true) (h : same f g = true) : f = g := by
  have ho : f.origin? = none := by cases f <;> first | rfl | cases hf
  obtain h | ⟨p, n, m, rfl, -⟩ := same_leaf_left ho h
  · exact h
  · cases hf

theorem namedApart_iff {forms : List Ty} : NamedApart forms ↔
    (∀ f ∈ forms, ∀ g ∈ forms, f.isForm = true → g.isForm = true → f.qualifiedName? = g.qualifiedName? →
      same f g = true) ∧
    ∀ f ∈ forms, f.qualifiedName?.all (·.toList.all (!Signature.Reader.isStop ·)) = true := by
  constructor
  · rintro ⟨hdistinct, hfree⟩
    refine ⟨fun f hf g hg hform hform' hname => ?_, fun f hf => ?_⟩
    · rw [hdistinct f hf g hg hform hform' hname]
      exact same_refl g
    · cases hname : f.qualifiedName? with
      | none => rfl
      | some name => simpa using hfree f hf name hname
  · rintro ⟨hdistinct, hfree⟩
    refine ⟨fun f hf g hg hform hform' hname => ?_, fun f hf name hname c hc => ?_⟩
    · exact eq_form_of_same hform (hdistinct f hf g hg hform hform' hname)
    · have hall := hfree f hf
      rw [hname, Option.all_some, List.all_eq_true] at hall
      simpa using hall c hc

instance (forms : List Ty) : Decidable (NamedApart forms) :=
  decidable_of_iff _ namedApart_iff.symm

theorem named_of_same {o p : Ty} (h : same o p = true) {n m : String} (hn : o.qualifiedName? = some n)
    (hm : p.qualifiedName? = some m) : n = m ∧ o.module = p.module := by
  induction o using induct_shape generalizing p with
  | leaf o ho =>
    obtain rfl | ⟨q, _, _, rfl, -⟩ := same_leaf_left ho h
    · exact ⟨Option.some.inj (hn.symm.trans hm), rfl⟩
    · cases hn
  | union o ms hms =>
    have hunion {t : Ty} {ms : List Ty} (hms : t.members? = some ms) {n : String} (hn : t.qualifiedName? = some n) :
        n = "typing.Union" ∧ t.module = "typing" := by
      obtain rfl | rfl := members?_eq_some.mp hms
      · exact ⟨(Option.some.inj hn).symm, rfl⟩
      · cases hn
    obtain ⟨bs, hbs, -⟩ := same_union_left hms h
    obtain ⟨rfl, ho⟩ := hunion hms hn
    obtain ⟨rfl, hp⟩ := hunion hbs hm
    exact ⟨rfl, ho.trans hp.symm⟩
  | generic o as ho ih =>
    obtain ⟨p, bs, rfl, -, hop, -⟩ := same_generic_left ho h
    exact (ih hop hn hm : n = m ∧ o.module = p.module)

end Ty

namespace Signature

open Reader (isStop)

variable {a b t : Ty} {s : String}

theorem formText_eq_ok {form : Ty} {arguments text : String} :
    formText form arguments = .ok text ↔ ∃ name, nameOf form = .ok name ∧
      "\x7b" ++ name ++ arguments ++ "," ++ Ty.packageOf form.module ++ "\x7d" = text := by
  simp [formText, bind_eq_ok]

theorem encodeType_applied_eq_ok {o : Ty} (ho : t.origin? = some o) :
    encodeType t = .ok s ↔ ∃ texts, encodeTypes t.arguments = .ok texts ∧ formText o (inBrackets texts) = .ok s := by
  rw [encodeType_applied ho, bind_eq_ok]

theorem encodeTypes_cons_eq_ok {ts : List Ty} {texts : List String} :
    encodeTypes (t :: ts) = .ok texts ↔
      ∃ text rest, encodeType t = .ok text ∧ encodeTypes ts = .ok rest ∧ texts = text :: rest := by
  simp only [encodeTypes, bind_eq_ok, pure_eq_ok, Except.ok.injEq]
  constructor
  · rintro ⟨text, htext, rest, hrest, rfl⟩
    exact ⟨text, rest, htext, hrest, rfl⟩
  · rintro ⟨text, rest, htext, hrest, rfl⟩
    exact ⟨text, htext, rest, hrest, rfl⟩

/-! ## Equivalent types -/

theorem encodeTypes_congr {as bs : List Ty} {ss ts : List String}
    (h : List.Forall₂ (fun a b => ∀ s t, encodeType a = .ok s → encodeType b = .ok t → s = t) as bs)
    (has : encodeTypes as = .ok ss) (hbs : encodeTypes bs = .ok ts) : ss = ts := by
  induction h generalizing ss ts with
  | nil =>
    cases has
    cases hbs
    rfl
  | cons hab _ ih =>
    obtain ⟨s, ss, hs, hss, rfl⟩ := encodeTypes_cons_eq_ok.mp has
    obtain ⟨t, ts, ht, hts, rfl⟩ := encodeTypes_cons_eq_ok.mp hbs
    rw [hab s t hs ht, ih hss hts]

theorem encodeType_congr {u : String} (h : a.equivalent b = true) (ha : encodeType a = .ok s)
    (hb : encodeType b = .ok u) : s = u := by
  induction a using Ty.induct_arguments generalizing b s u with
  | step a ih =>
    cases ho : a.origin? with
    | none =>
      rw [Ty.equivalent_leaf ho] at h
      obtain rfl | ⟨p, n, m, rfl, rfl⟩ := Ty.same_leaf_left ho h
      · exact Except.ok.inj (ha.symm.trans hb)
      · exact Except.ok.inj (ha.symm.trans hb)
    | some o =>
      obtain ⟨p, hp, hop, harguments⟩ := Ty.origin?_of_equivalent h ho
      obtain ⟨ss, hss, ha⟩ := (encodeType_applied_eq_ok ho).mp ha
      obtain ⟨ts, hts, hb⟩ := (encodeType_applied_eq_ok hp).mp hb
      have hall : List.Forall₂ (fun x y => ∀ s t, encodeType x = .ok s → encodeType y = .ok t → s = t)
          a.arguments b.arguments :=
        forall₂_imp_of_mem harguments fun x hx y _ hxy s t hs ht => ih x hx hxy hs ht
      obtain ⟨n, hn, rfl⟩ := formText_eq_ok.mp ha
      obtain ⟨m, hm, rfl⟩ := formText_eq_ok.mp hb
      obtain ⟨rfl, hmodule⟩ := Ty.named_of_same hop (nameOf_eq_ok.mp hn).2 (nameOf_eq_ok.mp hm).2
      rw [encodeTypes_congr hall hss hts, hmodule]

/-! ## What stands behind the brace -/

/-- A run of characters that are no stops if the name has none, the stop that ends it, and the rest. -/
inductive Layout : Ty → List Char → Char → List Char → Prop where
  | parameter (p : Nat) (n : String) : Layout (.parameter p n) ('!' :: '!' :: Nat.toDigits 10 p) '\x7d' []
  | form {f : Ty} {name : String} (hf : f.isForm = true) (hname : f.qualifiedName? = some name) :
      Layout f name.toList ',' ((Ty.packageOf f.module).toList ++ ['\x7d'])
  | applied {t o : Ty} {name : String} {texts : List String} (ho : t.origin? = some o)
      (hname : o.qualifiedName? = some name) (htexts : encodeTypes t.arguments = .ok texts) :
      Layout t name.toList '<'
        ((",".intercalate texts).toList ++ '>' :: ',' :: (Ty.packageOf o.module).toList ++ ['\x7d'])

theorem exists_layout (h : encodeType t = .ok s) (hnull : t.isNull = false) :
    ∃ run stop rest, Layout t run stop rest ∧ s.toList = '\x7b' :: (run ++ stop :: rest) := by
  have hform {f : Ty} (hf : f.isForm = true) (h : formText f "" = .ok s) :
      ∃ run stop rest, Layout f run stop rest ∧ s.toList = '\x7b' :: (run ++ stop :: rest) := by
    obtain ⟨name, hname, rfl⟩ := formText_eq_ok.mp h
    exact ⟨_, _, _, .form hf (nameOf_eq_ok.mp hname).2, by simp⟩
  cases ho : t.origin? with
  | none =>
    cases t with
    | parameter p n =>
      cases h
      exact ⟨_, _, _, .parameter p n, by simp⟩
    | cls c => exact hform rfl h
    | union => exact hform rfl h
    | literal v => cases v <;> cases h; cases hnull
    | «variable» n => cases h
    | generic o as => cases ho
    | bar ms => cases ho
  | some o =>
    obtain ⟨texts, htexts, h⟩ := (encodeType_applied_eq_ok ho).mp h
    obtain ⟨name, hname, rfl⟩ := formText_eq_ok.mp h
    exact ⟨_, _, _, .applied ho (nameOf_eq_ok.mp hname).2 htexts, by simp [inBrackets]⟩

theorem not_isStop_of_isDigit {c : Char} (h : c.isDigit = true) : isStop c = false := by
  rw [Bool.eq_false_iff]
  intro hstop
  have hmem : c ∈ ['<', '>', '(', ')', '\x7b', '\x7d', '@', ','] := List.contains_iff_mem.mp hstop
  simp only [List.mem_cons, List.not_mem_nil, or_false] at hmem
  rcases hmem with rfl | rfl | rfl | rfl | rfl | rfl | rfl | rfl <;> revert h <;> decide

theorem Layout.stops {run rest : List Char} {stop : Char} (h : Layout t run stop rest)
    (hfree : ∀ f ∈ t.forms, ∀ name, f.qualifiedName? = some name → ∀ c ∈ name.toList, isStop c = false) :
    isStop stop = true ∧ ∀ c ∈ run, isStop c = false := by
  cases h with
  | parameter p n =>
    refine ⟨by decide, fun c hc => ?_⟩
    obtain rfl | rfl | hc : c = '!' ∨ c = '!' ∨ c ∈ Nat.toDigits 10 p := by simpa using hc
    · decide
    · decide
    · exact not_isStop_of_isDigit (Text.isDigit_of_mem_toDigits hc)
  | form hf hname =>
    exact ⟨by decide, hfree t (by simp [Ty.forms_of_isForm hf]) _ hname⟩
  | applied ho hname _ =>
    exact ⟨by decide, hfree _ (by simp [Ty.forms_applied ho]) _ hname⟩

theorem stop_unique {run run' rest rest' : List Char} {c c' : Char} (hrun : ∀ d ∈ run, isStop d = false)
    (hrun' : ∀ d ∈ run', isStop d = false) (hc : isStop c = true) (hc' : isStop c' = true)
    (h : run ++ c :: rest = run' ++ c' :: rest') : run = run' ∧ c = c' ∧ rest = rest' := by
  induction run generalizing run' with
  | nil =>
    cases run' with
    | nil => simpa using h
    | cons d run' =>
      obtain ⟨rfl, -⟩ := List.cons.inj h
      simp [hrun' c (by simp)] at hc
  | cons d run ih =>
    cases run' with
    | nil =>
      obtain ⟨rfl, -⟩ := List.cons.inj h
      simp [hrun d (by simp)] at hc'
    | cons e run' =>
      obtain ⟨rfl, hmore⟩ := List.cons.inj h
      obtain ⟨rfl, hstop⟩ := ih (fun x hx => hrun x (by simp [hx])) (fun x hx => hrun' x (by simp [hx])) hmore
      exact ⟨rfl, hstop⟩

/-! ## Texts that are alike -/

/-- Wherever the texts of the two types start alike, the types are equivalent and the texts end together. -/
def Cancels (a b : Ty) : Prop :=
  ∀ s t u v, encodeType a = .ok s → encodeType b = .ok t → s.toList ++ u = t.toList ++ v →
    a.equivalent b = true ∧ u = v

/-- Arguments after their commas, up to the bracket that closes them. -/
theorem cancel_commas {as bs : List Ty} {ss ts : List String} {u v : List Char}
    (h : ∀ a ∈ as, ∀ b ∈ bs, Cancels a b) (has : encodeTypes as = .ok ss) (hbs : encodeTypes bs = .ok ts)
    (htext : (ss.flatMap fun s => ',' :: s.toList) ++ '>' :: u = (ts.flatMap fun t => ',' :: t.toList) ++ '>' :: v) :
    Ty.EquivalentAll as bs ∧ u = v := by
  induction as generalizing bs ss ts with
  | nil =>
    cases has
    cases bs with
    | nil =>
      cases hbs
      exact ⟨.nil, by simpa using htext⟩
    | cons b bs =>
      obtain ⟨t, ts, -, -, rfl⟩ := encodeTypes_cons_eq_ok.mp hbs
      simp at htext
  | cons a as ih =>
    obtain ⟨s, ss, hs, hss, rfl⟩ := encodeTypes_cons_eq_ok.mp has
    cases bs with
    | nil =>
      cases hbs
      simp at htext
    | cons b bs =>
      obtain ⟨t, ts, ht, hts, rfl⟩ := encodeTypes_cons_eq_ok.mp hbs
      simp only [List.flatMap_cons, List.cons_append, List.append_assoc, List.cons.injEq, true_and] at htext
      obtain ⟨hab, hmore⟩ := h a (by simp) b (by simp) _ _ _ _ hs ht htext
      obtain ⟨hall, hrest⟩ := ih (fun x hx y hy => h x (by simp [hx]) y (by simp [hy])) hss hts hmore
      exact ⟨.cons hab hall, hrest⟩

theorem cancel_arguments {as bs : List Ty} {ss ts : List String} {u v : List Char}
    (hnull : ∀ a ∈ as ++ bs, a.isNull = false) (h : ∀ a ∈ as, ∀ b ∈ bs, Cancels a b)
    (has : encodeTypes as = .ok ss) (hbs : encodeTypes bs = .ok ts)
    (htext : (",".intercalate ss).toList ++ '>' :: u = (",".intercalate ts).toList ++ '>' :: v) :
    Ty.EquivalentAll as bs ∧ u = v := by
  -- a comma before the first argument makes the lists of one kind; a text is not taken for the closing bracket
  have hfirst {a : Ty} (ha : a ∈ as ++ bs) {s : String} (hs : encodeType a = .ok s) (u v : List Char) :
      s.toList ++ u ≠ '>' :: v := by
    obtain ⟨run, stop, rest, -, hs⟩ := exists_layout hs (hnull a ha)
    simp [hs]
  cases as with
  | nil =>
    cases has
    cases bs with
    | nil =>
      cases hbs
      exact ⟨.nil, by simpa using htext⟩
    | cons b bs =>
      obtain ⟨t, ts, ht, -, rfl⟩ := encodeTypes_cons_eq_ok.mp hbs
      rw [toList_intercalate, List.append_assoc] at htext
      exact absurd htext.symm (hfirst (by simp) ht _ _)
  | cons a as =>
    obtain ⟨s, ss, hs, hss, rfl⟩ := encodeTypes_cons_eq_ok.mp has
    rw [toList_intercalate, List.append_assoc] at htext
    cases bs with
    | nil =>
      cases hbs
      exact absurd htext (hfirst (by simp) hs _ _)
    | cons b bs =>
      refine cancel_commas h has hbs ?_
      obtain ⟨t, ts, ht, hts, rfl⟩ := encodeTypes_cons_eq_ok.mp hbs
      rw [toList_intercalate, List.append_assoc] at htext
      simpa using htext

/-- A text says where it ends and, up to equivalence, what it is written for. -/
theorem cancels {forms : List Ty} (hnames : Ty.NamedApart forms) (ha : a.IsLegible forms) (hb : b.IsLegible forms) :
    Cancels a b := by
  induction a using Ty.induct_arguments generalizing b with
  | step a ih =>
    intro s t u v hs ht htext
    obtain ⟨run, stop, rest, hlayout, hs'⟩ := exists_layout hs (ha.noNull a a.mem_parts_self)
    obtain ⟨run', stop', rest', hlayout', ht'⟩ := exists_layout ht (hb.noNull b b.mem_parts_self)
    obtain ⟨hstop, hrun⟩ := hlayout.stops fun f hf => hnames.free f (ha.named hf)
    obtain ⟨hstop', hrun'⟩ := hlayout'.stops fun f hf => hnames.free f (hb.named hf)
    have hbehind : run ++ stop :: (rest ++ u) = run' ++ stop' :: (rest' ++ v) := by simpa [hs', ht'] using htext
    obtain ⟨hsamerun, hsamestop, hrest⟩ := stop_unique hrun hrun' hstop hstop' hbehind
    -- the stop behind the run tells which of the three is written
    cases hlayout with
    | parameter p n =>
      cases hlayout' with
      | parameter q m =>
        have hdigits : Nat.toDigits 10 p = Nat.toDigits 10 q := by simpa using hsamerun
        obtain rfl : p = q := by rw [← Text.natOfDigits_toDigits p, hdigits, Text.natOfDigits_toDigits]
        rw [Ty.equivalent_leaf rfl]
        exact ⟨Ty.same_parameters p n m, by simpa using hrest⟩
      | form => exact absurd hsamestop (by decide)
      | applied => exact absurd hsamestop (by decide)
    | @form _ name hf hname =>
      cases hlayout' with
      | parameter => exact absurd hsamestop (by decide)
      | @form _ name' hg hname' =>
        obtain rfl : name = name' := String.toList_inj.mp hsamerun
        obtain rfl : a = b := hnames.distinct a (ha.named (by simp [Ty.forms_of_isForm hf])) b
          (hb.named (by simp [Ty.forms_of_isForm hg])) hf hg (hname.trans hname'.symm)
        exact ⟨Ty.equivalent_refl a, List.append_cancel_left hrest⟩
      | applied => exact absurd hsamestop (by decide)
    | @applied _ o name texts ho hname htexts =>
      cases hlayout' with
      | parameter => exact absurd hsamestop (by decide)
      | form => exact absurd hsamestop (by decide)
      | @applied _ o' name' texts' ho' hname' htexts' =>
        obtain rfl : name = name' := String.toList_inj.mp hsamerun
        obtain rfl : o = o' := hnames.distinct o (ha.named (by simp [Ty.forms_applied ho])) o'
          (hb.named (by simp [Ty.forms_applied ho'])) (ha.applies.isForm ho) (hb.applies.isForm ho')
          (hname.trans hname'.symm)
        have hnull : ∀ x ∈ a.arguments ++ b.arguments, x.isNull = false := by
          intro x hx
          rcases List.mem_append.mp hx with hx | hx
          · exact (ha.argument hx).noNull x x.mem_parts_self
          · exact (hb.argument hx).noNull x x.mem_parts_self
        obtain ⟨harguments, hend⟩ := cancel_arguments hnull
          (fun x hx y hy => ih x hx (ha.argument hx) (hb.argument hy)) htexts htexts' (by simpa using hrest)
        exact ⟨(Ty.equivalent_applied ho b).mpr ⟨o, ho', Ty.same_refl o, harguments⟩, by simpa using hend⟩

end Signature

end ExprTree
