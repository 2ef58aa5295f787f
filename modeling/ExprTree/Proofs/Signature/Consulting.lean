import ExprTree.Proofs.Signature.Sources

/-!
# Computations that look names up

A log lists the look-ups of a run with their answers. A computation consults the
log if looking up these names leads from the names at its start to those at its
end, and if it does the same wherever the log's names have these answers. So the
log leaves nothing out that the outcome hangs on.
-/

namespace ExprTree

/-- A look-up that may not load, and what it found. -/
structure Lookup where
  name : String
  hint : Option String
  found : Option Ty

/-- Looking up the names of the log in turn gives its answers. -/
def Names.Answers (l : Library) : Names → List Lookup → Names → Prop
  | names, [], names' => names' = names
  | names, q :: log, names' =>
    (l.resolveName q.name q.hint false names).1 = q.found ∧
      Answers l (l.resolveName q.name q.hint false names).2 log names'

namespace Names.Answers

variable {l : Library} {names names' : Names} {log log' : List Lookup}

theorem append : Answers l names (log ++ log') names' ↔ ∃ mid, Answers l names log mid ∧ Answers l mid log' names' := by
  induction log generalizing names with
  | nil => simp [Answers]
  | cons q log ih => simp [Answers, ih, and_assoc]

theorem loaded (h : Answers l names log names') : names'.loaded = names.loaded := by
  induction log generalizing names with
  | nil => rw [show names' = names from h]
  | cons q log ih => exact (ih h.2).trans (Library.resolveName_loaded _ _ _)

/-- Every name that was found is one of a loaded module. -/
theorem foundIn (h : Answers l names log names') (hnames : names.IsSourced l) :
    ∀ q ∈ log, ∀ t, q.found = some t → l.FoundIn names.loaded q.name t := by
  induction log generalizing names with
  | nil => simp
  | cons q log ih =>
    intro q' hq' t ht
    obtain rfl | hq' := List.mem_cons.mp hq'
    · exact Library.foundIn_of_resolveName hnames (h.1.trans ht)
    · have := ih h.2 (hnames.lookUp _ _ _) q' hq' t ht
      rwa [Library.resolveName_loaded] at this

end Names.Answers

/-- The names in a state. -/
structure NamesIn (σ : Type) where
  get : σ → Names
  set : Names → σ → σ
  get_set : ∀ names s, get (set names s) = names
  set_get : ∀ s, set (get s) s = s
  set_set : ∀ names names' s, set names (set names' s) = set names s

def NamesIn.itself : NamesIn Names := ⟨id, fun names _ => names, fun _ _ => rfl, fun _ => rfl, fun _ _ _ => rfl⟩

section

variable {ε σ α β : Type} (l : Library) (view : NamesIn σ)

/-- The run of the computation from this state looks up what the log says, and hangs on nothing else that the names
have to say. -/
structure Consults (x : ExceptT ε (StateM σ) α) (s : σ) (log : List Lookup) : Prop where
  answers : (view.get s).Answers l log (view.get (x.run s).2)
  determined : ∀ names names', names.Answers l log names' →
    x.run (view.set names s) = ((x.run s).1, view.set names' (x.run s).2)

/-- From every state, some log of names that are allowed is consulted. -/
def ConsultsOnly (Allowed : String → Option String → Prop) (x : ExceptT ε (StateM σ) α) : Prop :=
  ∀ s, ∃ log, Consults l view x s log ∧ ∀ q ∈ log, Allowed q.name q.hint

variable {l view} {Allowed Allowed' : String → Option String → Prop} {x : ExceptT ε (StateM σ) α}
  {f : α → ExceptT ε (StateM σ) β}

theorem Consults.constant {s : σ} {r : Except ε α} (h : ∀ names, x.run (view.set names s) = (r, view.set names s)) :
    Consults l view x s [] := by
  have hs := h (view.get s)
  rw [view.set_get] at hs
  refine ⟨by rw [hs]; rfl, ?_⟩
  rintro names names' rfl
  rw [h, hs]

theorem Consults.bind {s t : σ} {a : α} {log log' : List Lookup} (hx : Consults l view x s log)
    (hrun : x.run s = (.ok a, t)) (hf : Consults l view (f a) t log') : Consults l view (x >>= f) s (log ++ log') := by
  have hmid := hx.answers
  rw [hrun] at hmid
  refine ⟨?_, ?_⟩
  · rw [Action.run_bind_ok hrun]
    exact Names.Answers.append.mpr ⟨_, hmid, hf.answers⟩
  · intro names names' hlog
    obtain ⟨mid, hlog, hlog'⟩ := Names.Answers.append.mp hlog
    have hsame := hx.determined names mid hlog
    rw [hrun] at hsame
    rw [Action.run_bind_ok hsame, Action.run_bind_ok hrun]
    exact hf.determined mid names' hlog'

theorem Consults.bind_error {s t : σ} {e : ε} {log : List Lookup} (hx : Consults l view x s log)
    (hrun : x.run s = (.error e, t)) : Consults l view (x >>= f) s log := by
  have hmid := hx.answers
  rw [hrun] at hmid
  refine ⟨by rwa [Action.run_bind_error hrun], fun names names' hlog => ?_⟩
  have hsame := hx.determined names names' hlog
  rw [hrun] at hsame
  rw [Action.run_bind_error hsame, Action.run_bind_error hrun]

namespace ConsultsOnly

theorem pure (a : α) : ConsultsOnly l view Allowed (Pure.pure a : ExceptT ε (StateM σ) α) :=
  fun _ => ⟨[], .constant fun _ => rfl, by simp⟩

theorem throw (e : ε) : ConsultsOnly l view Allowed (MonadExcept.throw e : ExceptT ε (StateM σ) α) :=
  fun _ => ⟨[], .constant fun _ => rfl, by simp⟩

theorem bind (hx : ConsultsOnly l view Allowed x) (hf : ∀ a, ConsultsOnly l view Allowed (f a)) :
    ConsultsOnly l view Allowed (x >>= f) := by
  intro s
  obtain ⟨log, hlog, hallowed⟩ := hx s
  rcases hrun : x.run s with ⟨e | a, t⟩
  · exact ⟨log, hlog.bind_error hrun, hallowed⟩
  · obtain ⟨log', hlog', hallowed'⟩ := hf a t
    refine ⟨log ++ log', hlog.bind hrun hlog', fun q hq => ?_⟩
    exact (List.mem_append.mp hq).elim (hallowed q) (hallowed' q)

theorem mono (hx : ConsultsOnly l view Allowed x) (h : ∀ name hint, Allowed name hint → Allowed' name hint) :
    ConsultsOnly l view Allowed' x := by
  intro s
  obtain ⟨log, hlog, hallowed⟩ := hx s
  exact ⟨log, hlog, fun q hq => h _ _ (hallowed q hq)⟩

end ConsultsOnly

end

/-! ## Resolution -/

namespace Signature

mutual

/-- The names of a type and of the arguments in it, each with the package it is expected in. -/
def TypeSig.names : TypeSig → List (String × Option String)
  | .named name arguments hint => (name, hint) :: namesOfAll arguments
  | .parameter _ => []

def TypeSig.namesOfAll : List TypeSig → List (String × Option String)
  | [] => []
  | s :: ss => s.names ++ namesOfAll ss

end

def MemberSig.names (s : MemberSig) : List (String × Option String) :=
  s.declaring.names ++ TypeSig.namesOfAll s.parameters

variable {l : Library}

theorem resolveName_consults (name : String) (hint : Option String) :
    ConsultsOnly l NamesIn.itself (fun n h => (n, h) = (name, hint)) (resolveName l false name hint) := by
  intro names
  refine ⟨[⟨name, hint, (l.resolveName name hint false names).1⟩], ⟨⟨rfl, ?_⟩, ?_⟩, by simp⟩
  · rw [resolveName_run]
    rfl
  · rintro names₁ names₂ ⟨hfound, hend⟩
    obtain rfl : names₂ = (l.resolveName name hint false names₁).2 := hend
    change (resolveName l false name hint).run names₁ = _
    rw [resolveName_run, resolveName_run, hfound]
    rfl

mutual

theorem TypeSig.resolve_consults : ∀ s : TypeSig,
    ConsultsOnly l NamesIn.itself (fun name hint => (name, hint) ∈ s.names) (s.resolve l false)
  | .parameter position => .pure _
  | .named name arguments hint => by
    unfold TypeSig.resolve
    refine .bind ((resolveName_consults name hint).mono fun n h heq => heq ▸ List.mem_cons_self) fun origin => ?_
    refine .bind ((TypeSig.resolveAll_consults arguments).mono fun n h hmem => ?_) fun as => .pure _
    exact List.mem_cons_of_mem _ hmem

theorem TypeSig.resolveAll_consults : ∀ ss : List TypeSig,
    ConsultsOnly l NamesIn.itself (fun name hint => (name, hint) ∈ TypeSig.namesOfAll ss) (TypeSig.resolveAll l false ss)
  | [] => .pure _
  | s :: ss => by
    unfold TypeSig.resolveAll
    refine .bind ((TypeSig.resolve_consults s).mono fun n h hmem => List.mem_append_left _ hmem) fun first => ?_
    exact .bind ((TypeSig.resolveAll_consults ss).mono fun n h hmem => List.mem_append_right _ hmem) fun rest => .pure _

end

theorem MemberSig.resolve_consults (s : MemberSig) :
    ConsultsOnly l NamesIn.itself (fun name hint => (name, hint) ∈ s.names) (s.resolve l false) := by
  unfold MemberSig.resolve
  refine .bind ((TypeSig.resolve_consults _).mono fun n h hmem => List.mem_append_left _ hmem) fun declaring => ?_
  refine .bind ((TypeSig.resolveAll_consults _).mono fun n h hmem => List.mem_append_right _ hmem) fun types => ?_
  split
  · exact .throw _
  · split
    · exact .pure _
    · exact .throw _
    · exact .throw _

/-- The name stands in the text, read as a type or as a method. -/
def IsNamedIn (text name : String) (hint : Option String) : Prop :=
  (∃ s, TypeSig.parse text = .ok s ∧ (name, hint) ∈ s.names) ∨
    ∃ s, MemberSig.parse text = .ok s ∧ (name, hint) ∈ s.names

theorem decodeType_consults (text : String) :
    ConsultsOnly l NamesIn.itself (IsNamedIn text) (decodeType l false text) := by
  unfold decodeType
  split
  · next s hparse => exact (TypeSig.resolve_consults s).mono fun name hint hmem => .inl ⟨s, hparse, hmem⟩
  · exact .throw _

theorem decodeMember_consults (text : String) :
    ConsultsOnly l NamesIn.itself (IsNamedIn text) (decodeMember l false text) := by
  unfold decodeMember
  split
  · next s hparse => exact (MemberSig.resolve_consults s).mono fun name hint hmem => .inr ⟨s, hparse, hmem⟩
  · exact .throw _

end Signature

end ExprTree
