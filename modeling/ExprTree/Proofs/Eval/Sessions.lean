import ExprTree.Proofs.Eval.Simulation

/-!
# Sessions

In a session a lambda is made a function, and functions are called one after
the other, whether or not the calls before succeeded. Sessions of lambdas that
mirror each other have the same results, and a host that notes what is called
and written notes the same.
-/

namespace ExprTree

open Run

variable {R : Nat → Nat → Prop} {host : Host}

/-! ## Closed heaps -/

namespace Heap

variable {h : Heap}

/-- Do the functions in the heap remember scopes that are in it? -/
def IsClosed (h : Heap) : Prop :=
  ∀ a ps body frame, h.get? a = some (.function ps body frame) → ∀ b ∈ frame, b < h.cells.size

theorem alike_refl {c : Cell}
    (hc : ∀ ps body frame, c = .function ps body frame → ∀ b ∈ frame, b < h.cells.size) : Cell.Alike h h c c := by
  cases c with
  | list items => exact .list items
  | dict entries => exact .dict entries
  | object c attributes => exact .object c attributes
  | scope bs => exact .scope (List.forall₂_refl _)
  | function ps body frame =>
    refine .function ⟨fun _ _ _ h₁ h₂ => h₁.trans h₂.symm, fun _ _ _ h₁ h₂ => h₁.symm.trans h₂⟩ (List.forall₂_refl _)
      (.refl body) fun a ha => ⟨hc _ _ _ rfl a ha, hc _ _ _ rfl a ha, ?_⟩
    rintro x _ rfl
    exact List.forall₂_refl _

/-- The heaps that are alike to themselves are the closed ones. -/
theorem isClosed_iff : h.IsClosed ↔ h.Alike h := by
  constructor
  · intro hclosed a
    cases ha : h.get? a with
    | none => exact .none
    | some c =>
      refine .some (alike_refl ?_)
      rintro ps body frame rfl
      exact hclosed a ps body frame ha
  · intro hh a ps body frame ha b hb
    obtain ⟨hnone, -⟩ | ⟨c, c', hc, hc', hsame⟩ := hh.cell a
    · simp [ha] at hnone
    · obtain rfl : _ = c := Option.some.inj (ha.symm.trans hc)
      cases hsame with | function _ _ _ hf =>
      exact (hf b hb).1

end Heap

/-! ## Calling functions -/

namespace Host

theorem applyAt_agrees (hhost : host.IsBlind) : ∀ depth, Apply.Agrees (host.applyAt depth) (host.applyAt depth)
  | 0, _, _ => .host _
  | depth + 1, f, vs => by
    cases f with
    | ref a =>
      unfold applyAt
      refine fun h h' hh _ => .get ?_
      obtain ⟨hc, hc'⟩ | ⟨c, c', hc, hc', hsame⟩ := hh.cell a
      · rw [hc, hc']
        exact .throw hh rfl
      · rw [hc, hc']
        cases hsame with
        | @function R _ _ _ _ frame hR hps hb hf =>
          -- the correspondence is the one the cells came with, not that of the caller
          dsimp only
          rw [← hps.length_eq]
          refine (AgreeWhile.ite ?_ ?_ : AgreeIn R frame _ _) h h' hh hf
          · exact .throw _
          · exact AgreeIn.opened hR hps vs fun frame => hb.eval hhost (applyAt_agrees hhost depth) hR frame
        | _ => exact .throw hh rfl
    | _ => exact .host _

theorem apply_agrees (hhost : host.IsBlind) : Apply.Agrees host.apply host.apply :=
  applyAt_agrees hhost callDepth

end Host

/-! ## Checking -/

namespace Node

/-- Do two checks pass together? -/
def PassAlike (x y : Except CompileFault Unit) : Prop :=
  x = .ok () ↔ y = .ok ()

theorem PassAlike.ok : PassAlike (.ok ()) (.ok ()) :=
  .rfl

theorem PassAlike.error {e e' : CompileFault} : PassAlike (.error e) (.error e') :=
  ⟨nofun, nofun⟩

theorem PassAlike.andThen {x x' y y' : Except CompileFault Unit} (hx : PassAlike x x') (hy : PassAlike y y') :
    PassAlike (x >>= fun _ => y) (x' >>= fun _ => y') :=
  andThen_eq_ok.trans ((and_congr hx hy).trans andThen_eq_ok.symm)

variable {scope scope' : Scope}

theorem checkParameter_alike (hR : Relator.BiUnique R) (hscope : List.Forall₂ R scope scope') {p q : Parameter}
    (hpq : R p.number q.number) : PassAlike (checkParameter scope p) (checkParameter scope' q) := by
  have hcontains : scope.contains p.number = scope'.contains q.number := by
    induction hscope with
    | nil => rfl
    | @cons a b as bs hab _ ih =>
      have hbeq : (p.number == a) = (q.number == b) := by
        rw [Bool.eq_iff_iff, beq_iff_eq, beq_iff_eq]
        exact ⟨fun h => hR.2 hpq (h ▸ hab), fun h => hR.1 hpq (h ▸ hab)⟩
      rw [List.contains_cons, List.contains_cons, hbeq, ih]
  unfold checkParameter
  rw [hcontains]
  split
  · exact .ok
  · exact .error

mutual

/-- Nodes that mirror each other pass the check in corresponding scopes together. -/
theorem Mirrors.check (hR : Relator.BiUnique R) : ∀ {n n' : Node}, Mirrors R n n' → ∀ {scope scope' : Scope},
    List.Forall₂ R scope scope' → PassAlike (Node.check scope n) (Node.check scope' n')
  | _, _, .constant, _, _, _ => .ok
  | _, _, .parameter hp, _, _, hscope => checkParameter_alike hR hscope hp
  | _, _, .lambda hps hb, _, _, hscope => by
    refine Mirrors.check hR hb (List.rel_append ?_ hscope)
    rw [List.forall₂_map_left_iff, List.forall₂_map_right_iff]
    exact hps
  | _, _, .binary (k := k) hl hr _ _, _, _, hscope => by
    have hleft := Mirrors.check hR hl hscope
    have hright := Mirrors.check hR hr hscope
    have htarget := Mirrors.checkTarget hR hl hscope
    unfold Node.check
    cases k with
    | binary k =>
      cases k with
      | assign => exact hright.andThen htarget
      | compound o => exact hright.andThen (hleft.andThen htarget)
      | _ => exact hright.andThen hleft
    | _ => exact hright.andThen (hleft.andThen .error)
  | _, _, .converted hl hr hp hb, _, _, hscope =>
    (Mirrors.check hR hr hscope).andThen ((Mirrors.check hR hl hscope).andThen (Mirrors.check hR hb (.cons hp hscope)))
  | _, _, .unary (k := k) ho _ _, _, _, hscope => by
    have hoperand := Mirrors.check hR ho hscope
    have htarget := Mirrors.checkTarget hR ho hscope
    unfold Node.check
    cases k with
    | unary k =>
      cases k with
      | step s => exact hoperand.andThen htarget
      | _ => exact hoperand.andThen .ok
    | _ => exact hoperand.andThen .error
  | _, _, .member he, _, _, hscope => Mirrors.check hR he hscope
  | _, _, .call _ ha, _, _, hscope => MirrorsAll.check hR ha hscope
  | _, _, .callOn _ he ha, _, _, hscope => (Mirrors.check hR he hscope).andThen (MirrorsAll.check hR ha hscope)
  | _, _, .conditional ht h₁ h₂, _, _, hscope =>
    (Mirrors.check hR ht hscope).andThen ((Mirrors.check hR h₁ hscope).andThen (Mirrors.check hR h₂ hscope))
  | _, _, .bare, _, _, _ => .error

theorem MirrorsAll.check (hR : Relator.BiUnique R) : ∀ {as bs : List Node}, MirrorsAll R as bs →
    ∀ {scope scope' : Scope}, List.Forall₂ R scope scope' → PassAlike (checkAll scope as) (checkAll scope' bs)
  | _, _, .nil, _, _, _ => .ok
  | _, _, .cons h hs, _, _, hscope => (Mirrors.check hR h hscope).andThen (MirrorsAll.check hR hs hscope)

theorem Mirrors.checkTarget (hR : Relator.BiUnique R) : ∀ {n n' : Node}, Mirrors R n n' → ∀ {scope scope' : Scope},
    List.Forall₂ R scope scope' → PassAlike (Node.checkTarget scope n) (Node.checkTarget scope' n')
  | _, _, .parameter hp, _, _, hscope => checkParameter_alike hR hscope hp
  | _, _, .member he, _, _, hscope => Mirrors.check hR he hscope
  | _, _, .constant, _, _, _ | _, _, .lambda .., _, _, _ | _, _, .binary .., _, _, _ | _, _, .converted .., _, _, _
  | _, _, .unary .., _, _, _ | _, _, .call .., _, _, _ | _, _, .callOn .., _, _, _ | _, _, .conditional .., _, _, _
  | _, _, .bare, _, _, _ => .error

end

/-- Nodes that mirror each other can be made functions together. -/
theorem Mirrors.checkLambda (hR : Relator.BiUnique R) {n n' : Node} (h : Mirrors R n n') :
    PassAlike n.checkLambda n'.checkLambda := by
  cases h with
  | lambda hps hb => exact Mirrors.check hR (.lambda hps hb) .nil
  | _ => exact .error

end Node

/-! ## Sessions -/

namespace Run

/-- What a computation ends with. A fault ends nothing but the computation. -/
def attempt (x : Run Value) : Run (Except FaultKind Value) :=
  ExceptT.mk ((fun r => .ok (r.mapError Fault.kind)) <$> x.run)

/-- Attempts some calls of functions, one after the other. -/
def attemptAll (apply : Apply) : List (Value × List Value) → Run (List (Except FaultKind Value))
  | [] => return []
  | (f, vs) :: calls => do
    let r ← attempt (apply f vs)
    return r :: (← attemptAll apply calls)

theorem run_attempt (x : Run Value) (h : Heap) :
    (attempt x).run h = (.ok ((x.run h).1.mapError Fault.kind), (x.run h).2) :=
  rfl

theorem AgreeWhile.attempt {P : Heap → Heap → Prop} {x y : Run Value} (hx : AgreeWhile P x y) :
    AgreeWhile P (attempt x) (attempt y) := by
  intro h h' hh hP
  have hend := hx h h' hh hP
  unfold AgreeAt at *
  rw [run_attempt, run_attempt]
  generalize x.run h = r, y.run h' = r' at hend
  cases hend with
  | ok hk _ => exact .ok hk trivial
  | error hk he =>
    rw [Except.mapError, Except.mapError, he]
    exact .ok hk trivial

theorem attemptAll_agree {apply apply' : Apply} (happly : apply.Agrees apply') (calls : List (Value × List Value)) :
    Agree (attemptAll apply calls) (attemptAll apply' calls) := by
  induction calls with
  | nil => exact .pure []
  | cons call calls ih => exact (happly call.1 call.2).attempt.bind fun r => ih.bind fun rs => .pure (r :: rs)

theorem attemptAll_ends (apply : Apply) (calls : List (Value × List Value)) (h : Heap) :
    ∃ rs k, (attemptAll apply calls).run h = (.ok rs, k) := by
  induction calls generalizing h with
  | nil => exact ⟨[], h, rfl⟩
  | cons call calls ih =>
    obtain ⟨rs, k, hrest⟩ := ih ((apply call.1 call.2).run h).2
    exact ⟨_, k, (Action.run_bind_ok (run_attempt _ h) _).trans (Action.run_bind_ok hrest _)⟩

/-- Adds a value to the list at an address, if there is one. -/
def note (log : Nat) (v : Value) : Run Unit := do
  match (← get).list? (.ref log) with
  | some vs => modify (·.set log (.list (vs ++ [v])))
  | none => return ()

end Run

namespace Host

/-- Makes an expression a value and calls functions after it: what each gives, or how it fails. -/
def session (host : Host) (n : Node) (calls : List (Value × List Value)) : Run (List (Except FaultKind Value)) := do
  let r ← attempt (host.eval n)
  return r :: (← attemptAll host.apply calls)

/-- From every closed heap, do sessions of two expressions give the same results and leave heaps of which this holds? -/
def SameSessions (host : Host) (n n' : Node) (Left : Heap → Heap → Prop) : Prop :=
  ∀ h : Heap, h.IsClosed → ∀ calls, ∃ rs k k', (host.session n calls).run h = (.ok rs, k) ∧
    (host.session n' calls).run h = (.ok rs, k') ∧ Left k k'

/-- The host that notes every call of a method and every attribute that is written in the list at an address. -/
def noting (host : Host) (log : Nat) : Host :=
  { host with
    invoke := fun apply m vs => do
      note log (.tuple [.str "call", .str m.declaring.dotted, .str m.name, .tuple vs])
      host.invoke apply m vs
    writeField := fun v name w => do
      note log (.tuple [.str "set", v, .str name, w])
      host.writeField v name w
    writeProperty := fun c name v w => do
      note log (.tuple [.str "set", v, .str name, w])
      host.writeProperty c name v w }

end Host

theorem Run.note_uniform {L : Likeness} (log : Nat) (v : Value) : L.Uniform (note log v) := by
  unfold note
  refine fun h h' hh _ => .get ?_
  rw [(L.looks hh).list?]
  split
  · next vs hvs =>
    exact Likeness.RelatedWhile.setCell log (.list _) trivial h h' hh (unbound_of_list? (L.looks hh) hvs)
  · exact .ok (.refl hh)

theorem Run.note_blind (log : Nat) (v : Value) : Blind (note log v) :=
  (note_uniform log v).agree

theorem Host.IsBlind.noting (hhost : host.IsBlind) (log : Nat) : (host.noting log).IsBlind where
  invoke happly m vs := (note_blind log _).bind fun _ => hhost.invoke happly m vs
  readField := hhost.readField
  writeField v name w := (note_blind log _).bind fun _ => hhost.writeField v name w
  readProperty := hhost.readProperty
  writeProperty c name v w := (note_blind log _).bind fun _ => hhost.writeProperty c name v w

namespace Host

/-- A session always ends, since faults only end what it attempts. -/
theorem session_ends (host : Host) (n : Node) (calls : List (Value × List Value)) (h : Heap) :
    ∃ rs k, (host.session n calls).run h = (.ok rs, k) := by
  obtain ⟨rs, k, hrest⟩ := attemptAll_ends host.apply calls ((host.eval n).run h).2
  exact ⟨_, k, (Action.run_bind_ok (run_attempt _ h) _).trans (Action.run_bind_ok hrest _)⟩

variable {n n' : Node}

theorem session_agree (hhost : host.IsBlind) (hR : Relator.BiUnique R) (hn : n.Mirrors R n')
    (calls : List (Value × List Value)) : Agree (host.session n calls) (host.session n' calls) := by
  -- outside of all lambdas there is no scope to be linked
  have heval : Agree (host.eval n) (host.eval n') := fun h h' hh _ =>
    hn.eval hhost (host.apply_agrees hhost) hR [] h h' hh fun a ha => by simp at ha
  exact heval.attempt.bind fun r => (attemptAll_agree (host.apply_agrees hhost) calls).bind fun rs => .pure (r :: rs)

/-- Sessions of expressions that mirror each other have the same results and leave heaps that are alike. -/
theorem sameSessions (hhost : host.IsBlind) (hR : Relator.BiUnique R) (hn : n.Mirrors R n') :
    host.SameSessions n n' Heap.Alike := by
  intro h hclosed calls
  have hend := session_agree hhost hR hn calls h h (Heap.isClosed_iff.mp hclosed) trivial
  obtain ⟨rs, k, hrun⟩ := session_ends host n calls h
  unfold AgreeAt at hend
  rw [hrun] at hend
  generalize (host.session n' calls).run h = r' at hend ⊢
  cases hend with | ok hk _ =>
  exact ⟨rs, k, _, hrun, rfl, hk.alike⟩

theorem SameSessions.imp {P Q : Heap → Heap → Prop} (h : host.SameSessions n n' P) (hPQ : ∀ k k', P k k' → Q k k') :
    host.SameSessions n n' Q := by
  intro k hk calls
  obtain ⟨rs, m, m', hm, hm', hP⟩ := h k hk calls
  exact ⟨rs, m, m', hm, hm', hPQ m m' hP⟩

end Host

end ExprTree
