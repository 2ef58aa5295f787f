import ExprTree.Document.Decode
import ExprTree.Proofs.Signature.Reaching

/-!
# Coming across Parameter nodes

A document fixes the order in which its Parameter nodes are decoded. On the way,
the first node with an identifier makes a new parameter; a later one with the
same identifier stands for that parameter, whatever type and name it says.
-/

namespace ExprTree

namespace DecodeState

/-- The identifiers that are known. -/
def known (s : DecodeState) : List (Option String) :=
  s.parameters.map fun entry => some entry.1

/-- Are the parameters that are known told apart by their numbers, all of which were given before? -/
structure IsNumbered (s : DecodeState) : Prop where
  given : ∀ guid p, s.parameters.lookup guid = some p → p.number < s.next
  apart : ∀ guid guid' p p', s.parameters.lookup guid = some p → s.parameters.lookup guid' = some p' →
    p.number = p'.number → guid = guid'

theorem isNumbered_start (names : Names) (next : Nat) : IsNumbered ⟨names, [], next⟩ :=
  ⟨nofun, nofun⟩

end DecodeState

namespace Document

/-! ## Parameter nodes -/

/-- The number that stands under a role. -/
def number (d : Document) (role : String) : Nat :=
  Text.natOfDigits ((d.value? role).getD "").toList

def numberedRoles (stem : String) (first count : Nat) : List String :=
  (List.range' first count).map fun i => stem ++ toString i

theorem numberedRoles_succ (stem : String) (first count : Nat) :
    numberedRoles stem first (count + 1) = (stem ++ toString first) :: numberedRoles stem (first + 1) count := by
  rw [numberedRoles, List.range'_succ, List.map_cons, numberedRoles]

/-- The roles whose children are decoded, in this order. -/
def visited (d : Document) : List String :=
  match Kind.ofTag? d.kind with
  | some (.binary _) => ["Left", "Right", "Conversion"]
  | some (.unary _) => ["Operand"]
  | some .memberAccess => ["Expression"]
  | some .lambda => numberedRoles "Parameter" 0 (d.number "ParameterCount") ++ ["Body"]
  | some .call => "Object" :: numberedRoles "Argument" 0 (d.number "ArgumentCount")
  | _ => []

mutual

/-- The Parameter nodes in a document, in the order in which they are decoded. -/
def parameterNodes : Document → List Document
  | .node kind children values =>
    if Kind.ofTag? kind = some .parameter then [.node kind children values]
    else (visited (.node kind children values)).flatMap fun role => ((nodesByRole children).lookup role).getD []
termination_by structural d => d

def nodesByRole : List (String × Option Document) → List (String × List Document)
  | [] => []
  | (role, some c) :: rest => (role, parameterNodes c) :: nodesByRole rest
  | (role, none) :: rest => (role, []) :: nodesByRole rest
termination_by structural cs => cs

end

/-- The Parameter nodes in the child under a role, if there is one. -/
def nodesUnder (d : Document) (role : String) : List Document :=
  ((d.child? role).map parameterNodes).getD []

theorem lookup_nodesByRole (cs : List (String × Option Document)) (role : String) :
    ((nodesByRole cs).lookup role).getD [] = (((cs.lookup role).join).map parameterNodes).getD [] := by
  induction cs with
  | nil => rfl
  | cons entry rest ih =>
    obtain ⟨r, _ | c⟩ := entry <;> simp only [nodesByRole, List.lookup_cons] <;> cases role == r <;> simp [ih]

theorem parameterNodes_eq (d : Document) :
    d.parameterNodes = if Kind.ofTag? d.kind = some .parameter then [d] else d.visited.flatMap d.nodesUnder := by
  obtain ⟨kind, children, values⟩ := d
  rw [parameterNodes]
  simp only [lookup_nodesByRole]
  rfl

theorem nodesUnder_some {d c : Document} {role : String} (h : d.child? role = some c) :
    d.nodesUnder role = c.parameterNodes := by
  rw [nodesUnder, h, Option.map_some, Option.getD_some]

theorem nodesUnder_none {d : Document} {role : String} (h : d.child? role = none) : d.nodesUnder role = [] := by
  rw [nodesUnder, h, Option.map_none, Option.getD_none]

/-- Is each node, unless one with its identifier came before it, given the type and the name of its counterpart? -/
def SameFirsts (known : List (Option String)) : List (Document × Document) → Prop
  | [] => True
  | (e, e') :: rest =>
    (e.value? "Guid" ∉ known → e'.value? "Type" = e.value? "Type" ∧ e'.value? "Name" = e.value? "Name") ∧
      SameFirsts (e.value? "Guid" :: known) rest

theorem SameFirsts.mono {known known' : List (Option String)} {pairs : List (Document × Document)}
    (h : SameFirsts known pairs) (hsub : known ⊆ known') : SameFirsts known' pairs := by
  induction pairs generalizing known known' with
  | nil => trivial
  | cons pair pairs ih => exact ⟨fun hnew => h.1 fun hmem => hnew (hsub hmem), ih h.2 (List.cons_subset_cons _ hsub)⟩

theorem SameFirsts.append {known : List (Option String)} {pairs more : List (Document × Document)}
    (h : SameFirsts known (pairs ++ more)) :
    SameFirsts known pairs ∧ SameFirsts (pairs.map (·.1.value? "Guid") ++ known) more := by
  induction pairs generalizing known with
  | nil => exact ⟨trivial, h⟩
  | cons pair pairs ih =>
    obtain ⟨hfirst, hmore⟩ := ih h.2
    refine ⟨⟨h.1, hfirst⟩, hmore.mono ?_⟩
    simp only [List.map_cons, List.cons_append]
    intro guid hguid
    simp only [List.mem_append, List.mem_cons] at hguid ⊢
    tauto

/-! ## Coming across them -/

section

variable (l : Library) (loads : Bool)

/-- Does the node give the parameter its name, and its type by what the type's text stands for at some moment between
the two states of the names? -/
def Describes (e : Document) (p : Parameter) (start final : Names) : Prop :=
  p.name = e.value? "Name" ∧ ∃ text names names', e.value? "Type" = some text ∧ start.Reaches l loads names ∧
    (Signature.decodeType l loads text).run names = (.ok p.type, names') ∧ names'.Reaches l loads final

/-- From one state to the other, decoding comes across these Parameter nodes, which stand for these parameters. -/
inductive Meets : DecodeState → List Document → List Parameter → DecodeState → Prop where
  | done {s t : DecodeState} (hparameters : t.parameters = s.parameters) (hnext : t.next = s.next)
      (hnames : s.names.Reaches l loads t.names) : Meets s [] [] t
  | again {s t : DecodeState} {e : Document} {es : List Document} {p : Parameter} {ps : List Parameter} {guid : String}
      (hguid : e.value? "Guid" = some guid) (hknown : s.parameters.lookup guid = some p) (h : Meets s es ps t) :
      Meets s (e :: es) (p :: ps) t
  | first {s t : DecodeState} {e : Document} {es : List Document} {ps : List Parameter} {guid text : String} {type : Ty}
      {names names' : Names} (hguid : e.value? "Guid" = some guid) (hnew : s.parameters.lookup guid = none)
      (htext : e.value? "Type" = some text) (hnames : s.names.Reaches l loads names)
      (htype : (Signature.decodeType l loads text).run names = (.ok type, names'))
      (h : Meets ⟨names', (guid, ⟨s.next, type, e.value? "Name"⟩) :: s.parameters, s.next + 1⟩ es ps t) :
      Meets s (e :: es) (⟨s.next, type, e.value? "Name"⟩ :: ps) t

end

variable {l : Library} {loads : Bool}

theorem lookup_eq_none_iff_known {s : DecodeState} {guid : String} :
    s.parameters.lookup guid = none ↔ some guid ∉ s.known := by
  rw [List.lookup_eq_none_iff, DecodeState.known, List.mem_map]
  constructor
  · rintro h ⟨entry, hentry, heq⟩
    have := h entry hentry
    cases heq
    simp at this
  · intro h entry hentry
    rw [bne_iff_ne]
    rintro rfl
    exact h ⟨entry, hentry, rfl⟩

namespace Meets

variable {s t u : DecodeState} {es es' : List Document} {ps ps' : List Parameter}

theorem refl (s : DecodeState) : Meets l loads s [] [] s :=
  .done rfl rfl .refl

/-- Look-ups may come before. -/
theorem after (hparameters : t.parameters = s.parameters) (hnext : t.next = s.next)
    (hnames : s.names.Reaches l loads t.names) (h : Meets l loads t es ps u) : Meets l loads s es ps u := by
  induction h generalizing s with
  | done hparameters' hnext' hnames' =>
    exact .done (hparameters'.trans hparameters) (hnext'.trans hnext) (hnames.trans hnames')
  | again hguid hknown _ ih => exact .again hguid (hparameters ▸ hknown) (ih hparameters hnext hnames)
  | first hguid hnew htext hnames' htype h _ =>
    rw [hparameters, hnext] at h
    rw [hnext]
    exact .first hguid (hparameters ▸ hnew) htext (hnames.trans hnames') htype h

theorem append (h : Meets l loads s es ps t) (h' : Meets l loads t es' ps' u) :
    Meets l loads s (es ++ es') (ps ++ ps') u := by
  induction h with
  | done hparameters hnext hnames => exact h'.after hparameters hnext hnames
  | again hguid hknown _ ih => exact .again hguid hknown (ih h')
  | first hguid hnew htext hnames htype _ ih => exact .first hguid hnew htext hnames htype (ih h')

theorem reaches (h : Meets l loads s es ps t) : s.names.Reaches l loads t.names := by
  induction h with
  | done _ _ hnames => exact hnames
  | again _ _ _ ih => exact ih
  | first _ _ _ hnames htype _ ih => exact hnames.trans ((Signature.decodeType_reaches _ htype).trans ih)

theorem length_eq (h : Meets l loads s es ps t) : es.length = ps.length := by
  induction h with
  | done => rfl
  | again _ _ _ ih => exact congrArg (· + 1) ih
  | first _ _ _ _ _ _ ih => exact congrArg (· + 1) ih

/-- What is known stays known. -/
theorem lookup_of_known (h : Meets l loads s es ps t) {guid : String} {p : Parameter}
    (hp : s.parameters.lookup guid = some p) : t.parameters.lookup guid = some p := by
  induction h with
  | done hparameters => rwa [hparameters]
  | again _ _ _ ih => exact ih hp
  | @first s t e es ps guid' _ _ _ _ _ hnew _ _ _ _ ih =>
    refine ih ?_
    have hne : (guid == guid') = false := by
      rw [beq_eq_false_iff_ne]
      rintro rfl
      rw [hnew] at hp
      cases hp
    rwa [List.lookup_cons, hne]

/-- At the end, the identifier of each node leads to the parameter that the node stands for. -/
theorem lookup_of_mem (h : Meets l loads s es ps t) : ∀ e p, (e, p) ∈ es.zip ps →
    ∃ guid, e.value? "Guid" = some guid ∧ t.parameters.lookup guid = some p := by
  induction h with
  | done => simp
  | again hguid hknown h ih =>
    intro e p hmem
    obtain heq | hmem := List.mem_cons.mp hmem
    · cases heq
      exact ⟨_, hguid, h.lookup_of_known hknown⟩
    · exact ih e p hmem
  | first hguid _ _ _ _ h ih =>
    intro e p hmem
    obtain heq | hmem := List.mem_cons.mp hmem
    · cases heq
      exact ⟨_, hguid, h.lookup_of_known List.lookup_cons_self⟩
    · exact ih e p hmem

theorem known_subset (h : Meets l loads s es ps t) : es.map (·.value? "Guid") ++ s.known ⊆ t.known := by
  have hknown : ∀ {guid : String} {p : Parameter}, t.parameters.lookup guid = some p → some guid ∈ t.known := by
    intro guid p hp
    by_contra hnot
    rw [lookup_eq_none_iff_known.mpr hnot] at hp
    cases hp
  intro guid? hmem
  rcases List.mem_append.mp hmem with hmem | hmem
  · obtain ⟨e, he, rfl⟩ := List.mem_map.mp hmem
    obtain ⟨p, hp⟩ : ∃ p, (e, p) ∈ es.zip ps := by
      have hfst : (es.zip ps).map Prod.fst = es := List.map_fst_zip h.length_eq.le
      rw [← hfst] at he
      obtain ⟨⟨_, p⟩, hp, rfl⟩ := List.mem_map.mp he
      exact ⟨p, hp⟩
    obtain ⟨guid, hguid, hlookup⟩ := h.lookup_of_mem e p hp
    rw [hguid]
    exact hknown hlookup
  · obtain ⟨entry, hentry, rfl⟩ := List.mem_map.mp hmem
    cases hlookup : s.parameters.lookup entry.1 with
    | none => exact absurd hmem (lookup_eq_none_iff_known.mp hlookup)
    | some p => exact hknown (h.lookup_of_known hlookup)

end Meets

/-- A new parameter is told apart from those before it. -/
theorem isNumbered_cons {s : DecodeState} (hs : s.IsNumbered) (names : Names) (guid : String) (type : Ty)
    (name : Option String) :
    DecodeState.IsNumbered ⟨names, (guid, ⟨s.next, type, name⟩) :: s.parameters, s.next + 1⟩ := by
  have hcases {guid' : String} {p : Parameter}
      (h : ((guid, (⟨s.next, type, name⟩ : Parameter)) :: s.parameters).lookup guid' = some p) :
      (guid' = guid ∧ p.number = s.next) ∨ s.parameters.lookup guid' = some p := by
    rw [List.lookup_cons] at h
    split at h
    · next heq =>
      cases h
      exact .inl ⟨eq_of_beq heq, rfl⟩
    · exact .inr h
  constructor
  · intro guid' p h
    obtain ⟨-, heq⟩ | h := hcases h
    · exact heq ▸ Nat.lt_succ_self _
    · exact (hs.given guid' p h).trans (Nat.lt_succ_self _)
  · intro guid₁ guid₂ p₁ p₂ h₁ h₂ hsame
    obtain ⟨rfl, heq₁⟩ | h₁ := hcases h₁
    · obtain ⟨rfl, -⟩ | h₂ := hcases h₂
      · rfl
      · have := hs.given guid₂ p₂ h₂
        omega
    · have hlt := hs.given guid₁ p₁ h₁
      obtain ⟨rfl, heq₂⟩ | h₂ := hcases h₂
      · omega
      · exact hs.apart guid₁ guid₂ p₁ p₂ h₁ h₂ hsame

namespace Meets

variable {s t : DecodeState} {es : List Document} {ps : List Parameter}

theorem isNumbered (h : Meets l loads s es ps t) (hs : s.IsNumbered) : t.IsNumbered := by
  induction h with
  | done hparameters hnext => exact ⟨by rw [hparameters, hnext]; exact hs.given, by rw [hparameters]; exact hs.apart⟩
  | again _ _ _ ih => exact ih hs
  | first _ _ _ _ _ _ ih => exact ih (isNumbered_cons hs _ _ _ _)

/-- Two nodes stand for the same parameter iff their identifiers agree. -/
theorem same_iff (h : Meets l loads s es ps t) (hs : s.IsNumbered) {e e' : Document} {p p' : Parameter}
    (hp : (e, p) ∈ es.zip ps) (hp' : (e', p') ∈ es.zip ps) :
    (p.number = p'.number ↔ e.value? "Guid" = e'.value? "Guid") ∧ (p.number = p'.number → p = p') := by
  obtain ⟨guid, hguid, hlookup⟩ := h.lookup_of_mem e p hp
  obtain ⟨guid', hguid', hlookup'⟩ := h.lookup_of_mem e' p' hp'
  have hsame (hnumber : p.number = p'.number) : guid = guid' :=
    (h.isNumbered hs).apart guid guid' p p' hlookup hlookup' hnumber
  have heq (hg : guid = guid') : p = p' := by
    subst hg
    exact Option.some.inj (hlookup.symm.trans hlookup')
  rw [hguid, hguid', Option.some.injEq]
  exact ⟨⟨hsame, fun hg => congrArg Parameter.number (heq hg)⟩, fun hnumber => heq (hsame hnumber)⟩

/-- A parameter that was not known before is described by the first node with its identifier. -/
theorem described (h : Meets l loads s es ps t) : ∀ e p, (e, p) ∈ es.zip ps →
    (∃ guid, e.value? "Guid" = some guid ∧ s.parameters.lookup guid = some p) ∨
      ∃ first, es.find? (fun f => f.value? "Guid" = e.value? "Guid") = some first ∧
        Describes l loads first p s.names t.names := by
  induction h with
  | done => simp
  | @again s t e₀ es p₀ ps guid₀ hguid₀ hknown h ih =>
    intro e p hmem
    obtain heq | hmem := List.mem_cons.mp hmem
    · cases heq
      exact .inl ⟨guid₀, hguid₀, hknown⟩
    obtain ⟨guid, hguid, hlookup⟩ := h.lookup_of_mem e p hmem
    by_cases hsame : guid₀ = guid
    · subst hsame
      obtain rfl : p₀ = p := Option.some.inj ((h.lookup_of_known hknown).symm.trans hlookup)
      exact .inl ⟨guid₀, hguid, hknown⟩
    · obtain hp | ⟨first, hfirst, hdescribes⟩ := ih e p hmem
      · exact .inl hp
      · refine .inr ⟨first, ?_, hdescribes⟩
        rw [List.find?_cons_of_neg, hfirst]
        simpa [hguid₀, hguid] using hsame
  | @first s t e₀ es ps guid₀ text type names names' hguid₀ hnew htext hnames htype h ih =>
    have hreaches := Signature.decodeType_reaches _ htype
    have hdescribes₀ : Describes l loads e₀ ⟨s.next, type, e₀.value? "Name"⟩ s.names t.names :=
      ⟨rfl, text, names, names', htext, hnames, htype, h.reaches⟩
    intro e p hmem
    obtain heq | hmem := List.mem_cons.mp hmem
    · cases heq
      exact .inr ⟨e₀, List.find?_cons_of_pos (by simp), hdescribes₀⟩
    -- a later node with the same identifier is described by this one, any other as it was without this one
    obtain ⟨guid, hguid, hlookup⟩ := h.lookup_of_mem e p hmem
    by_cases hsame : guid₀ = guid
    · subst hsame
      obtain rfl := Option.some.inj ((h.lookup_of_known List.lookup_cons_self).symm.trans hlookup)
      exact .inr ⟨e₀, List.find?_cons_of_pos (by simp [hguid₀, hguid]), hdescribes₀⟩
    · obtain ⟨guid', hguid', hp⟩ | ⟨first, hfirst, hname, text', names₁, names₂, htext', hreaches', hrest⟩ := ih e p hmem
      · obtain rfl : guid = guid' := Option.some.inj (hguid.symm.trans hguid')
        rw [List.lookup_cons, beq_eq_false_iff_ne.mpr (Ne.symm hsame)] at hp
        exact .inl ⟨guid, hguid, hp⟩
      · refine .inr ⟨first, ?_, hname, text', names₁, names₂, htext', hnames.trans (hreaches.trans hreaches'), hrest⟩
        rw [List.find?_cons_of_neg, hfirst]
        simpa [hguid₀, hguid] using hsame

end Meets

end Document

end ExprTree
