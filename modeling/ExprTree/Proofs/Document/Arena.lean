import ExprTree.Proofs.Document.Guid
import ExprTree.Proofs.Document.Interning

/-!
# Every parameter has one place

Parameters are asked for one after another, some of them again and some in
vain. What the arena and the slots hold is what the calls gave: one entry for
each parameter that was ever given one, in the order in which that happened
first, with an identifier that no other entry has.
-/

namespace ExprTree

namespace Interning

/-- What was asked for, and the answer. -/
structure Call where
  parameter : Parameter
  answer : Except Signature.NamingFault ParameterEntry

/-- Asks for parameters in their order: the calls, and what is known after them. -/
def run (s : Interning) : List Parameter → List Call × Interning
  | [] => ([], s)
  | p :: ps =>
    let (r, s') := s.intern p
    let (cs, s'') := s'.run ps
    (⟨p, r⟩ :: cs, s'')

variable {s : Interning} {c d : Call} {cs : List Call} {p : Parameter} {e f : ParameterEntry}

/-! ## The order of first success -/

/-- The numbers of the parameters that were given an entry, in the order in which they first were. -/
def given (cs : List Call) : List Nat :=
  ((cs.filter (·.answer.isOk)).map (·.parameter.number)).eraseDups

theorem mem_given {a : Nat} : a ∈ given cs ↔ ∃ c ∈ cs, c.parameter.number = a ∧ ∃ e, c.answer = .ok e := by
  have hok (r : Except Signature.NamingFault ParameterEntry) : r.isOk = true ↔ ∃ e, r = .ok e := by
    cases r <;> simp [Except.isOk, Except.toBool]
  simp only [given, List.mem_eraseDups, List.mem_map, List.mem_filter, hok]
  constructor
  · rintro ⟨c, ⟨hc, he⟩, ha⟩
    exact ⟨c, hc, ha, he⟩
  · rintro ⟨c, hc, ha, he⟩
    exact ⟨c, ⟨hc, he⟩, ha⟩

theorem given_failed (cs : List Call) (p : Parameter) (fault : Signature.NamingFault) :
    given (cs ++ [⟨p, .error fault⟩]) = given cs := by
  simp [given, Except.isOk, Except.toBool]

theorem given_answered (cs : List Call) (p : Parameter) (e : ParameterEntry) :
    given (cs ++ [⟨p, .ok e⟩]) = given cs ++ if p.number ∈ given cs then [] else [p.number] := by
  have hone : (([⟨p, .ok e⟩] : List Call).filter (·.answer.isOk)).map (·.parameter.number) = [p.number] := rfl
  unfold given
  rw [List.filter_append, List.map_append, hone, List.eraseDups_append, List.removeAll]
  generalize (cs.filter (·.answer.isOk)).map (·.parameter.number) = numbers
  by_cases h : p.number ∈ numbers
  · rw [if_pos (List.mem_eraseDups.mpr h), List.filter_cons_of_neg (by simpa using h)]
    rfl
  · rw [if_neg (mt List.mem_eraseDups.mp h), List.filter_cons_of_pos (by simpa using h)]
    rfl

theorem getElem?_concat_eq_some {l : List Nat} {a b i : Nat} (hfresh : b ∉ l) :
    (l ++ [b])[i]? = some a ↔ if a = b then i = l.length else l[i]? = some a := by
  obtain hi | rfl | hi := Nat.lt_trichotomy i l.length
  · rw [List.getElem?_append_left hi]
    split
    · next hab =>
      subst hab
      exact ⟨fun ha => absurd (List.mem_of_getElem? ha) hfresh, fun ha => absurd ha (Nat.ne_of_lt hi)⟩
    · exact Iff.rfl
  · rw [List.getElem?_concat_length]
    simp [eq_comm]
  · rw [List.getElem?_eq_none (by simp; omega), List.getElem?_eq_none (Nat.le_of_lt hi)]
    simp
    omega

/-! ## What one call keeps -/

/-- Was this the call that the entry was made for? -/
structure Call.Made (c : Call) (e : ParameterEntry) : Prop where
  answer : c.answer = .ok e
  type : Signature.encodeType c.parameter.type = .ok e.type
  name : e.name = c.parameter.name

/-- Does the interning hold just what the calls gave? -/
structure Records (cs : List Call) (s : Interning) : Prop where
  /-- Each slot is the place of a parameter in the order of first success. -/
  slots : ∀ a i, s.slots.lookup a = some i ↔ (given cs)[i]? = some a
  length : s.arena.length = (given cs).length
  /-- What a call was answered with is what is in the parameter's place now. -/
  answers : ∀ c ∈ cs, ∀ e, c.answer = .ok e → ∃ i, s.slots.lookup c.parameter.number = some i ∧ s.arena[i]? = some e
  made : ∀ e ∈ s.arena, ∃ c ∈ cs, c.Made e
  separate : (s.arena.map (·.guid)).Nodup
  handedOut : ∀ e ∈ s.arena, ∃ k ≤ s.minted, e.guid = Guid.nth k

namespace Records

theorem start (minted : Nat) : Records [] (Interning.start minted) := by
  constructor <;> simp [Interning.start, given]

variable (h : Records cs s)

include h

theorem isSound : s.IsSound where
  inside a i ha := by
    have hi := (h.slots a i).mp ha
    rw [h.length]
    exact (List.getElem?_eq_some_iff.mp hi).1
  separate a b i ha hb := by
    have hi := (h.slots a i).mp ha
    rw [(h.slots b i).mp hb] at hi
    exact (Option.some.inj hi).symm

theorem mem_given_iff {a : Nat} : a ∈ given cs ↔ ∃ i, s.slots.lookup a = some i := by
  simp only [List.mem_iff_getElem?, h.slots]

theorem made_append (c : Call) : ∀ e ∈ s.arena, ∃ d ∈ cs ++ [c], d.Made e := by
  intro e he
  obtain ⟨d, hd, hmade⟩ := h.made e he
  exact ⟨d, List.mem_append_left _ hd, hmade⟩

theorem handedOut_succ : ∀ e ∈ s.arena, ∃ k ≤ s.minted + 1, e.guid = Guid.nth k := by
  intro e he
  obtain ⟨k, hk, hguid⟩ := h.handedOut e he
  exact ⟨k, Nat.le_succ_of_le hk, hguid⟩

theorem known {i : Nat} (hslot : s.slots.lookup p.number = some i) (he : s.arena[i]? = some e) :
    Records (cs ++ [⟨p, .ok e⟩]) s := by
  have hgiven : given (cs ++ [⟨p, .ok e⟩]) = given cs := by
    rw [given_answered, if_pos (h.mem_given_iff.mpr ⟨i, hslot⟩), List.append_nil]
  refine ⟨hgiven ▸ h.slots, hgiven ▸ h.length, ?_, h.made_append _, h.separate, h.handedOut⟩
  refine List.forall_mem_append.mpr ⟨h.answers, List.forall_mem_singleton.mpr ?_⟩
  rintro _ ⟨⟩
  exact ⟨i, hslot, he⟩

/-- A call in vain takes an identifier and leaves everything else. -/
theorem failed (p : Parameter) (fault : Signature.NamingFault) :
    Records (cs ++ [⟨p, .error fault⟩]) { s with minted := s.minted + 1 } := by
  have hgiven := given_failed cs p fault
  refine ⟨hgiven ▸ h.slots, hgiven ▸ h.length, ?_, h.made_append _, h.separate, h.handedOut_succ⟩
  refine List.forall_mem_append.mpr ⟨h.answers, List.forall_mem_singleton.mpr ?_⟩
  rintro _ ⟨⟩

theorem extended (hnew : s.slots.lookup p.number = none) (hmade : Call.Made ⟨p, .ok e⟩ e)
    (hguid : e.guid = Guid.nth (s.minted + 1)) : Records (cs ++ [⟨p, .ok e⟩]) (s.extended p.number e) := by
  have hfresh : p.number ∉ given cs := by
    rw [h.mem_given_iff, hnew]
    simp
  have hgiven := given_answered cs p e
  rw [if_neg hfresh] at hgiven
  constructor
  case slots =>
    intro a i
    rw [lookup_extended, hgiven, getElem?_concat_eq_some hfresh, h.length]
    split
    · rw [Option.some.injEq, eq_comm]
    · exact h.slots a i
  case length =>
    rw [hgiven]
    simp [Interning.extended, h.length]
  case answers =>
    refine List.forall_mem_append.mpr ⟨fun c hc f hf => ?_, List.forall_mem_singleton.mpr ?_⟩
    · obtain ⟨i, hslot, hplace⟩ := h.answers c hc f hf
      have hi := h.isSound.inside _ i hslot
      exact ⟨i, (leadsTo_extended hnew e).slots _ i hslot, (List.getElem?_append_left hi).trans hplace⟩
    · rintro _ ⟨⟩
      refine ⟨s.arena.length, ?_, List.getElem?_concat_length⟩
      rw [lookup_extended, if_pos rfl]
  case made =>
    refine List.forall_mem_append.mpr ⟨h.made_append _, List.forall_mem_singleton.mpr ?_⟩
    exact ⟨_, List.mem_concat_self, hmade⟩
  case separate =>
    rw [Interning.extended, List.map_append, List.nodup_append]
    refine ⟨h.separate, by simp, List.forall_mem_map.mpr fun f hf => List.forall_mem_singleton.mpr fun heq => ?_⟩
    -- every identifier in the arena was handed out before this one
    obtain ⟨k, hk, hfguid⟩ := h.handedOut f hf
    have := Guid.nth_injective (hfguid.symm.trans (heq.trans hguid))
    omega
  case handedOut =>
    exact List.forall_mem_append.mpr ⟨h.handedOut_succ, List.forall_mem_singleton.mpr ⟨_, Nat.le_refl _, hguid⟩⟩

theorem intern (p : Parameter) : Records (cs ++ [⟨p, (s.intern p).1⟩]) (s.intern p).2 := by
  obtain ⟨i, e, hslot, he, hintern⟩ | ⟨hnew, ⟨fault, -, hintern⟩ | ⟨type, htype, hintern⟩⟩ := intern_cases h.isSound p
  all_goals rw [hintern]
  · exact h.known hslot he
  · exact h.failed p fault
  · exact h.extended hnew ⟨rfl, htype, rfl⟩ rfl

theorem run (ps : List Parameter) : Records (cs ++ (s.run ps).1) (s.run ps).2 := by
  -- over what is still to be asked for, while the calls that were made grow
  induction ps generalizing cs s with
  | nil => simpa [Interning.run] using h
  | cons p ps ih =>
    have hrest := ih (h.intern p)
    rwa [List.append_assoc] at hrest

end Records

/-! ## What the calls gave -/

namespace Records

variable (h : Records cs s)

include h

theorem existsUnique_slot {i : Nat} (hi : i < s.arena.length) : ∃! a, s.slots.lookup a = some i := by
  obtain ⟨a, ha⟩ : ∃ a, (given cs)[i]? = some a := ⟨_, List.getElem?_eq_getElem (h.length ▸ hi)⟩
  have hslot := (h.slots a i).mpr ha
  exact ⟨a, hslot, fun b hb => h.isSound.separate b a i hb hslot⟩

theorem place_eq {i j : Nat} (hi : s.arena[i]? = some e) (hj : s.arena[j]? = some f) (hguid : e.guid = f.guid) :
    i = j := by
  have hlength : i < (s.arena.map (·.guid)).length := by
    rw [List.length_map]
    exact (List.getElem?_eq_some_iff.mp hi).1
  have hsame : (s.arena.map (·.guid))[i]? = (s.arena.map (·.guid))[j]? := by
    rw [List.getElem?_map, List.getElem?_map, hi, hj, Option.map_some, Option.map_some, hguid]
  exact (List.getElem?_inj hlength h.separate).mp hsame

/-- Identifiers tell parameters apart, however alike they look. -/
theorem number_eq (hc : c ∈ cs) (hd : d ∈ cs) (he : c.answer = .ok e) (hf : d.answer = .ok f)
    (hguid : e.guid = f.guid) : c.parameter.number = d.parameter.number := by
  obtain ⟨i, hi, hei⟩ := h.answers c hc e he
  obtain ⟨j, hj, hfj⟩ := h.answers d hd f hf
  obtain rfl := h.place_eq hei hfj hguid
  exact h.isSound.separate _ _ i hi hj

/-- Who asks again gets the same answer, and nothing changes. -/
theorem intern_again (hc : c ∈ cs) (he : c.answer = .ok e) (hp : p.number = c.parameter.number) :
    s.intern p = (.ok e, s) := by
  obtain ⟨i, hi, hei⟩ := h.answers c hc e he
  obtain ⟨j, f, hj, hfj, hintern⟩ | ⟨hnew, -⟩ := intern_cases h.isSound p
  · rw [hp, hi] at hj
    cases hj
    obtain rfl := Option.some.inj (hfj.symm.trans hei)
    exact hintern
  · rw [hp, hi] at hnew
    cases hnew

end Records

namespace IsSound

variable (hs : s.IsSound)

include hs

theorem intern_failed {fault : Signature.NamingFault} (hfails : (s.intern p).1 = .error fault) :
    Signature.encodeType p.type = .error fault ∧ (s.intern p).2 = { s with minted := s.minted + 1 } := by
  obtain ⟨i, e, -, -, hintern⟩ | ⟨-, ⟨fault', htype, hintern⟩ | ⟨type, -, hintern⟩⟩ := intern_cases hs p
  all_goals
    rw [hintern] at hfails ⊢
    cases hfails
  exact ⟨htype, rfl⟩

theorem arena_intern (p : Parameter) : s.arena <+: (s.intern p).2.arena := by
  obtain ⟨i, e, -, -, hintern⟩ | ⟨-, ⟨fault, -, hintern⟩ | ⟨type, -, hintern⟩⟩ := intern_cases hs p
  · exact hintern ▸ List.prefix_rfl
  · exact hintern ▸ List.prefix_rfl
  · exact hintern ▸ List.prefix_append _ _

/-- Entries and slots stay as they are, whatever is asked for next. -/
theorem keeps_run (ps : List Parameter) : s.arena <+: (s.run ps).2.arena ∧ s.LeadsTo (s.run ps).2 := by
  induction ps generalizing s with
  | nil => exact ⟨List.prefix_rfl, .refl s⟩
  | cons p ps ih =>
    obtain ⟨harena, hleads⟩ := ih (hs.intern p)
    exact ⟨(hs.arena_intern p).trans harena, (hs.leadsTo_intern p).trans hleads⟩

end IsSound

/-- Whichever parameters are asked for, some again and some in vain: each place in the arena belongs to one parameter,
in the order of first success; entries and slots stay as they are; who asks again is answered with the entry of the
first time; no two parameters share an identifier; and a call is in vain only when the parameter's type has no name,
and leaves the arena and the slots alone. -/
theorem intern_places {minted : Nat} {ps : List Parameter} (hrun : (start minted).run ps = (cs, s)) :
    Records cs s ∧
    (∀ a, (∃ i, s.slots.lookup a = some i) ↔ ∃ c ∈ cs, c.parameter.number = a ∧ ∃ e, c.answer = .ok e) ∧
    (∀ i < s.arena.length, ∃! a, s.slots.lookup a = some i) ∧
    (∀ c ∈ cs, ∀ d ∈ cs, ∀ e f, c.answer = .ok e → d.answer = .ok f →
      (c.parameter.number = d.parameter.number → e = f) ∧
      (c.parameter.number ≠ d.parameter.number → e.guid ≠ f.guid)) ∧
    (∀ c ∈ cs, ∀ e, c.answer = .ok e → ∀ p, p.number = c.parameter.number → s.intern p = (.ok e, s)) ∧
    (∀ qs, s.arena <+: (s.run qs).2.arena ∧
      ∀ a i, s.slots.lookup a = some i → (s.run qs).2.slots.lookup a = some i) ∧
    ∀ p fault, (s.intern p).1 = .error fault →
      Signature.encodeType p.type = .error fault ∧ (s.intern p).2.arena = s.arena ∧ (s.intern p).2.slots = s.slots := by
  have h : Records cs s := by
    have hall := (Records.start minted).run ps
    rwa [hrun] at hall
  refine ⟨h, fun a => ?_, fun i => h.existsUnique_slot, fun c hc d hd e f he hf => ⟨fun hsame => ?_, ?_⟩,
    fun c hc e he p => h.intern_again hc he, fun qs => ?_, fun p fault hfails => ?_⟩
  · rw [← h.mem_given_iff, mem_given]
  · -- both were answered as one more call would be
    have hagain := h.intern_again hc he hsame.symm
    rw [h.intern_again hd hf rfl] at hagain
    cases hagain
    rfl
  · exact mt (h.number_eq hc hd he hf)
  · obtain ⟨harena, hleads⟩ := h.isSound.keeps_run qs
    exact ⟨harena, hleads.slots⟩
  · obtain ⟨htype, hafter⟩ := h.isSound.intern_failed hfails
    rw [hafter]
    exact ⟨htype, rfl, rfl⟩

def original : Parameter := ⟨0, .int, some "x"⟩

/-- Another parameter, with the same type and name. -/
def lookalike : Parameter := ⟨1, .int, some "x"⟩

/-- A parameter whose type has no name. -/
def unnameable : Parameter := ⟨2, .variable "T", some "x"⟩

/-- The lookalike has a place of its own, and the call in vain before it took no place, but an identifier. -/
theorem intern_places_lookalike :
    ∃ cs s, (start 0).run [original, unnameable, lookalike, original] = (cs, s) ∧
      given cs = [0, 1] ∧ s.arena.map (·.guid) = [Guid.nth 1, Guid.nth 3] ∧ Records cs s ∧
      (∀ i < s.arena.length, ∃! a, s.slots.lookup a = some i) ∧
      (∃ e, s.intern original = (.ok e, s)) ∧
      ∃ fault, (s.intern unnameable).1 = .error fault ∧ (s.intern unnameable).2.arena = s.arena := by
  have hrun : (start 0).run [original, unnameable, lookalike, original] = (_, _) := rfl
  obtain ⟨hrecords, -, hplaces, -, hagain, -, hvain⟩ := intern_places hrun
  refine ⟨_, _, hrun, by decide +kernel, by decide +kernel, hrecords, hplaces, ?_, ?_⟩
  · exact ⟨_, hagain _ List.mem_cons_self _ rfl original rfl⟩
  · exact ⟨_, rfl, (hvain unnameable _ rfl).2.1⟩

end Interning

end ExprTree
