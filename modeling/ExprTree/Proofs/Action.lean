import Mathlib.Logic.Basic

/-!
# Computations that may fail

How a sequence ends, of results alone and of computations that change a state
as well. Of the latter: what a computation yields when it succeeds and says when
it fails, whether it succeeds at all, what stays true of the state, when one computation follows another
from related states until it stops for a reason of its own, and at which of the
things it comes across it stops. All of these hold of a sequence when they hold
of its steps.
-/

namespace ExprTree

variable {ε σ α β : Type}

/-! ## Results -/

@[simp] theorem pure_eq_ok (a : α) : (pure a : Except ε α) = .ok a := rfl

@[simp] theorem throw_eq_error (e : ε) : (throw e : Except ε α) = .error e := rfl

@[simp] theorem ok_bind (a : α) (f : α → Except ε β) : (Except.ok a >>= f) = f a := rfl

@[simp] theorem error_bind (e : ε) (f : α → Except ε β) : (Except.error e >>= f) = .error e := rfl

theorem bind_eq_ok {x : Except ε α} {f : α → Except ε β} {b : β} :
    (x >>= f) = .ok b ↔ ∃ a, x = .ok a ∧ f a = .ok b := by
  cases x with
  | error e => simp
  | ok a => simp

theorem bind_eq_error {x : Except ε α} {f : α → Except ε β} {e : ε} :
    (x >>= f) = .error e ↔ x = .error e ∨ ∃ a, x = .ok a ∧ f a = .error e := by
  cases x with
  | error e' => simp
  | ok a => simp

/-- Sequences that go on alike after their first step are the same. -/
theorem bind_congr_ok {x : Except ε α} {f g : α → Except ε β} (h : ∀ a, x = .ok a → f a = g a) :
    (x >>= f) = (x >>= g) := by
  cases x with
  | error e => rfl
  | ok a => exact h a rfl

/-- Two checks in a row pass if both do. -/
theorem andThen_eq_ok {x y : Except ε Unit} : (do x; y) = .ok () ↔ x = .ok () ∧ y = .ok () := by
  rw [bind_eq_ok]
  exact ⟨fun ⟨_, hx, hy⟩ => ⟨hx, hy⟩, fun ⟨hx, hy⟩ => ⟨(), hx, hy⟩⟩

/-- Does a success yield what `P` says, and a failure say what `Q` says? -/
inductive Gives (P : α → Prop) (Q : ε → Prop) : Except ε α → Prop where
  | ok {a : α} (h : P a) : Gives P Q (.ok a)
  | error {e : ε} (h : Q e) : Gives P Q (.error e)

namespace Gives

variable {P P' : α → Prop} {Q Q' : ε → Prop} {R : β → Prop} {x y : Except ε α} {f : α → Except ε β}

theorem imp (hx : Gives P Q x) (hP : ∀ a, P a → P' a) (hQ : ∀ e, Q e → Q' e) : Gives P' Q' x := by
  cases hx with
  | ok h => exact .ok (hP _ h)
  | error h => exact .error (hQ _ h)

/-- What a success yields is known. -/
theorem known (hx : Gives P Q x) : Gives (fun a => x = .ok a) Q x := by
  cases hx with
  | ok h => exact .ok rfl
  | error h => exact .error h

theorem bind (hx : Gives P Q x) (hf : ∀ a, P a → Gives R Q (f a)) : Gives R Q (x >>= f) := by
  cases hx with
  | ok h => exact hf _ h
  | error h => exact .error h

theorem map {f : α → β} (hx : Gives P Q x) (hf : ∀ a, P a → R (f a)) : Gives R Q (x.map f) := by
  cases hx with
  | ok h => exact .ok (hf _ h)
  | error h => exact .error h

theorem mapError {ε' : Type} {R : ε' → Prop} {g : ε → ε'} (hx : Gives P Q x) (hg : ∀ e, Q e → R (g e)) :
    Gives P R (x.mapError g) := by
  cases hx with
  | ok h => exact .ok h
  | error h => exact .error (hg _ h)

theorem ite {p : Prop} [Decidable p] (hx : p → Gives P Q x) (hy : ¬p → Gives P Q y) :
    Gives P Q (if p then x else y) := by
  split
  · next h => exact hx h
  · next h => exact hy h

end Gives

namespace Action

/-! ## Runs -/

@[simp] theorem run_pure (a : α) (s : σ) : (pure a : ExceptT ε (StateM σ) α).run s = (.ok a, s) := rfl

@[simp] theorem run_throw (e : ε) (s : σ) : (throw e : ExceptT ε (StateM σ) α).run s = (.error e, s) := rfl

@[simp] theorem run_get (s : σ) : (get : ExceptT ε (StateM σ) σ).run s = (.ok s, s) := rfl

@[simp] theorem run_set (s t : σ) : (set t : ExceptT ε (StateM σ) PUnit).run s = (.ok ⟨⟩, t) := rfl

theorem run_bind (x : ExceptT ε (StateM σ) α) (f : α → ExceptT ε (StateM σ) β) (s : σ) :
    (x >>= f).run s =
      match x.run s with
      | (.ok a, t) => (f a).run t
      | (.error e, t) => (.error e, t) := by
  change (match x.run s with | (r, t) => ExceptT.bindCont f r t) = _
  obtain ⟨r, t⟩ := x.run s
  cases r <;> rfl

theorem run_bind_ok {x : ExceptT ε (StateM σ) α} {s t : σ} {a : α} (h : x.run s = (.ok a, t))
    (f : α → ExceptT ε (StateM σ) β) : (x >>= f).run s = (f a).run t := by
  rw [run_bind, h]

theorem run_bind_error {x : ExceptT ε (StateM σ) α} {s t : σ} {e : ε} (h : x.run s = (.error e, t))
    (f : α → ExceptT ε (StateM σ) β) : (x >>= f).run s = (.error e, t) := by
  rw [run_bind, h]

/-- Sequences that go on alike after their first step do the same. -/
theorem run_bind_congr {x : ExceptT ε (StateM σ) α} {f g : α → ExceptT ε (StateM σ) β} {s : σ}
    (h : ∀ a t, x.run s = (.ok a, t) → (f a).run t = (g a).run t) : (x >>= f).run s = (x >>= g).run s := by
  rw [run_bind, run_bind]
  split
  · next a t hx => exact h a t hx
  · rfl

/-- A sequence succeeds when its steps do. -/
theorem run_bind_eq_ok {x : ExceptT ε (StateM σ) α} {f : α → ExceptT ε (StateM σ) β} {s u : σ} {b : β}
    (h : (x >>= f).run s = (.ok b, u)) : ∃ a t, x.run s = (.ok a, t) ∧ (f a).run t = (.ok b, u) := by
  rw [run_bind] at h
  split at h
  · next a t hx => exact ⟨a, t, hx, h⟩
  · cases h

/-- A computation that is evaluated to a success has a result. -/
theorem exists_of_toOption {x : ExceptT ε (StateM σ) α} {s : σ} {f : α → β} {b : β}
    (h : (x.run s).1.toOption.map f = some b) : ∃ a t, x.run s = (.ok a, t) ∧ f a = b := by
  rcases hx : x.run s with ⟨e | a, t⟩
  · simp [hx, Except.toOption] at h
  · exact ⟨a, t, rfl, by simpa [hx, Except.toOption] using h⟩

/-! ## What a success yields -/

def Yields (x : ExceptT ε (StateM σ) α) (P : α → Prop) : Prop :=
  ∀ s a t, x.run s = (.ok a, t) → P a

namespace Yields

variable {x : ExceptT ε (StateM σ) α} {f : α → ExceptT ε (StateM σ) β} {P Q : α → Prop} {R : β → Prop}

theorem pure {a : α} (h : P a) : Yields (Pure.pure a : ExceptT ε (StateM σ) α) P := by
  rintro s b t ⟨⟩
  exact h

theorem throw {e : ε} : Yields (throw e : ExceptT ε (StateM σ) α) P := by
  rintro s a t ⟨⟩

theorem any : Yields x fun _ => True := fun _ _ _ _ => trivial

theorem bind (hx : Yields x P) (hf : ∀ a, P a → Yields (f a) R) : Yields (x >>= f) R := by
  intro s b u h
  obtain ⟨a, t, hxa, hfa⟩ := run_bind_eq_ok h
  exact hf a (hx s a t hxa) t b u hfa

/-- Only the last step matters. -/
theorem after (hf : ∀ a, Yields (f a) R) : Yields (x >>= f) R :=
  bind any fun a _ => hf a

end Yields

/-! ## What succeeds whatever the state -/

def Succeeds (x : ExceptT ε (StateM σ) α) (P : α → Prop) : Prop :=
  ∀ s, ∃ a t, x.run s = (.ok a, t) ∧ P a

namespace Succeeds

variable {x : ExceptT ε (StateM σ) α} {f : α → ExceptT ε (StateM σ) β} {P : α → Prop} {R : β → Prop}

theorem pure {a : α} (h : P a) : Succeeds (Pure.pure a : ExceptT ε (StateM σ) α) P :=
  fun s => ⟨a, s, rfl, h⟩

theorem bind (hx : Succeeds x P) (hf : ∀ a, P a → Succeeds (f a) R) : Succeeds (x >>= f) R := by
  intro s
  obtain ⟨a, t, hrun, ha⟩ := hx s
  obtain ⟨b, u, hrun', hb⟩ := hf a ha t
  exact ⟨b, u, (run_bind_ok hrun f).trans hrun', hb⟩

end Succeeds

/-! ## What stays true of the state -/

/-- From good states, whatever happens the state stays good; what a success yields is as described. -/
def Stays (Good : σ → Prop) (x : ExceptT ε (StateM σ) α) (P : α → Prop) : Prop :=
  ∀ s r t, Good s → x.run s = (r, t) → Good t ∧ ∀ a, r = .ok a → P a

namespace Stays

variable {Good : σ → Prop} {x : ExceptT ε (StateM σ) α} {f : α → ExceptT ε (StateM σ) β} {P Q : α → Prop} {R : β → Prop}

theorem pure {a : α} (h : P a) : Stays Good (Pure.pure a : ExceptT ε (StateM σ) α) P := by
  rintro s r t hs ⟨⟩
  exact ⟨hs, by rintro b ⟨⟩; exact h⟩

theorem throw (e : ε) : Stays Good (MonadExcept.throw e : ExceptT ε (StateM σ) α) P := by
  rintro s r t hs ⟨⟩
  exact ⟨hs, nofun⟩

theorem imp (hx : Stays Good x P) (h : ∀ a, P a → Q a) : Stays Good x Q := by
  intro s r t hs hrun
  obtain ⟨ht, hr⟩ := hx s r t hs hrun
  exact ⟨ht, fun a ha => h a (hr a ha)⟩

theorem bind (hx : Stays Good x P) (hf : ∀ a, P a → Stays Good (f a) R) : Stays Good (x >>= f) R := by
  intro s r u hs hrun
  rcases hxs : x.run s with ⟨e | a, t⟩
  · obtain ⟨ht, -⟩ := hx s _ t hs hxs
    rw [run_bind_error hxs] at hrun
    cases hrun
    exact ⟨ht, nofun⟩
  · obtain ⟨ht, ha⟩ := hx s _ t hs hxs
    rw [run_bind_ok hxs] at hrun
    exact hf a (ha a rfl) t r u ht hrun

theorem yielding (hx : Stays Good x P) (hQ : Yields x Q) : Stays Good x fun a => P a ∧ Q a := by
  intro s r t hs hrun
  obtain ⟨ht, hP⟩ := hx s r t hs hrun
  refine ⟨ht, ?_⟩
  rintro a rfl
  exact ⟨hP a rfl, hQ s a t hrun⟩

end Stays

/-! ## What holds from one state -/

/-- From this state, is what a success yields and leaves as `P` says, and what a failure says as `Q` says? -/
def From (s : σ) (x : ExceptT ε (StateM σ) α) (P : α → σ → Prop) (Q : ε → Prop) : Prop :=
  ∀ r t, x.run s = (r, t) → Gives (P · t) Q r

namespace From

variable {s : σ} {x : ExceptT ε (StateM σ) α} {f : α → ExceptT ε (StateM σ) β} {P P' : α → σ → Prop} {Q Q' : ε → Prop}
  {R : β → σ → Prop}

theorem pure {a : α} (h : P a s) : From s (Pure.pure a : ExceptT ε (StateM σ) α) P Q := by
  rintro r t ⟨⟩
  exact .ok h

theorem throw {e : ε} (h : Q e) : From s (MonadExcept.throw e : ExceptT ε (StateM σ) α) P Q := by
  rintro r t ⟨⟩
  exact .error h

theorem get {f : σ → ExceptT ε (StateM σ) β} (hf : From s (f s) R Q) : From s (MonadState.get >>= f) R Q :=
  hf

theorem imp (hx : From s x P Q) (hP : ∀ a t, P a t → P' a t) (hQ : ∀ e, Q e → Q' e) : From s x P' Q' :=
  fun r t hrun => (hx r t hrun).imp (fun a => hP a t) hQ

/-- What comes next runs from where the first step ended. -/
theorem bind (hx : From s x P Q) (hf : ∀ a t, x.run s = (.ok a, t) → P a t → From t (f a) R Q) :
    From s (x >>= f) R Q := by
  intro r u hrun
  rcases hxs : x.run s with ⟨e | a, t⟩
  · rw [run_bind_error hxs] at hrun
    cases hrun
    cases hx _ _ hxs with | error h => exact .error h
  · rw [run_bind_ok hxs] at hrun
    cases hx _ _ hxs with | ok h => exact hf a t hxs h r u hrun

end From

/-! ## What a failure says -/

def Stops (x : ExceptT ε (StateM σ) α) (P : ε → Prop) : Prop :=
  ∀ s e t, x.run s = (.error e, t) → P e

namespace Stops

variable {x : ExceptT ε (StateM σ) α} {f : α → ExceptT ε (StateM σ) β} {P : ε → Prop}

theorem pure (a : α) : Stops (Pure.pure a : ExceptT ε (StateM σ) α) P := by
  rintro s e t ⟨⟩

theorem throw {e : ε} (h : P e) : Stops (MonadExcept.throw e : ExceptT ε (StateM σ) α) P := by
  rintro s _ t ⟨⟩
  exact h

theorem bind (hx : Stops x P) (hf : ∀ a, Stops (f a) P) : Stops (x >>= f) P := by
  intro s e u h
  rcases hxs : x.run s with ⟨e' | a, t⟩
  · rw [run_bind_error hxs] at h
    cases h
    exact hx s _ _ hxs
  · rw [run_bind_ok hxs] at h
    exact hf a t e u h

end Stops

/-! ## Outcomes that hang on a view of the state

A state has a view, and is good when all else in it is as it should be. A
settled computation ends the same from all good states and leaves the view;
so it does not stop with an error that is not quiet. One that follows another
ends as the other does from good states with the same view, unless it stops
with an error of its own. -/

section

variable {ν : Type} (Good : σ → Prop) (view : σ → ν) (Quiet Stop : ε → Prop)

def Ends (x : ExceptT ε (StateM σ) α) (r : Except ε α) : Prop :=
  ∀ s, Good s → (x.run s).1 = r ∧ Good (x.run s).2 ∧ view (x.run s).2 = view s

def Settled (x : ExceptT ε (StateM σ) α) : Prop :=
  ∃ r : Except ε α, (∀ e, r = .error e → Quiet e) ∧ Ends Good view x r

def Follows (x y : ExceptT ε (StateM σ) α) : Prop :=
  ∀ s t, Good s → Good t → view s = view t →
    Good (x.run s).2 ∧
      (((x.run s).1 = (y.run t).1 ∧ (∀ e, (x.run s).1 = .error e → Quiet e) ∧
          Good (y.run t).2 ∧ view (x.run s).2 = view (y.run t).2) ∨
        ∃ e, (x.run s).1 = .error e ∧ Stop e)

end

section

variable {ν : Type} {Good : σ → Prop} {view : σ → ν} {Quiet Stop : ε → Prop}
  {x y : ExceptT ε (StateM σ) α} {f g : α → ExceptT ε (StateM σ) β}

namespace Settled

theorem pure (a : α) : Settled Good view Quiet (Pure.pure a : ExceptT ε (StateM σ) α) :=
  ⟨.ok a, by simp, fun _ hs => ⟨rfl, hs, rfl⟩⟩

theorem throw {e : ε} (he : Quiet e) :
    Settled Good view Quiet (MonadExcept.throw e : ExceptT ε (StateM σ) α) :=
  ⟨.error e, by rintro _ ⟨⟩; exact he, fun _ hs => ⟨rfl, hs, rfl⟩⟩

theorem bind (hx : Settled Good view Quiet x) (hf : ∀ a, Settled Good view Quiet (f a)) :
    Settled Good view Quiet (x >>= f) := by
  obtain ⟨r, hquiet, hr⟩ := hx
  cases r with
  | error e =>
    refine ⟨.error e, fun e' he' => hquiet e' (by cases he'; rfl), fun s hs => ?_⟩
    obtain ⟨hrun, hgood, hview⟩ := hr s hs
    rcases hxs : x.run s with ⟨r, t⟩
    rw [hxs] at hrun hgood hview
    obtain rfl : r = .error e := hrun
    rw [run_bind_error hxs]
    exact ⟨rfl, hgood, hview⟩
  | ok a =>
    obtain ⟨r', hquiet', hr'⟩ := hf a
    refine ⟨r', hquiet', fun s hs => ?_⟩
    obtain ⟨hrun, hgood, hview⟩ := hr s hs
    rcases hxs : x.run s with ⟨r, t⟩
    rw [hxs] at hrun hgood hview
    obtain rfl : r = .ok a := hrun
    rw [run_bind_ok hxs]
    obtain ⟨hrun', hgood', hview'⟩ := hr' t hgood
    exact ⟨hrun', hgood', hview'.trans hview⟩

theorem ite {p : Prop} [Decidable p] (hx : Settled Good view Quiet x) (hy : Settled Good view Quiet y) :
    Settled Good view Quiet (if p then x else y) := by
  split
  · exact hx
  · exact hy

/-- A settled computation follows itself. -/
theorem follows (hx : Settled Good view Quiet x) : Follows Good view Quiet Stop x x := by
  obtain ⟨r, hquiet, hr⟩ := hx
  intro s t hs ht hview
  obtain ⟨hrun, hgood, hsame⟩ := hr s hs
  obtain ⟨hrun', hgood', hsame'⟩ := hr t ht
  refine ⟨hgood, .inl ⟨hrun.trans hrun'.symm, fun e he => hquiet e (hrun.symm.trans he), hgood', ?_⟩⟩
  rw [hsame, hsame', hview]

end Settled

namespace Follows

theorem pure (a : α) :
    Follows Good view Quiet Stop (Pure.pure a : ExceptT ε (StateM σ) α) (Pure.pure a) :=
  (Settled.pure a).follows

theorem throw {e : ε} (he : Quiet e) :
    Follows Good view Quiet Stop (MonadExcept.throw e : ExceptT ε (StateM σ) α) (MonadExcept.throw e) :=
  (Settled.throw he).follows

/-- It may stop where the other one goes on. -/
theorem stop {e : ε} (he : Stop e) (y : ExceptT ε (StateM σ) α) :
    Follows Good view Quiet Stop (MonadExcept.throw e) y :=
  fun _ _ hs _ _ => ⟨hs, .inr ⟨e, rfl, he⟩⟩

theorem imp {Stop' : ε → Prop} (h : ∀ e, Stop e → Stop' e) (hx : Follows Good view Quiet Stop x y) :
    Follows Good view Quiet Stop' x y := by
  intro s t hs ht hview
  obtain ⟨hgood, hsame | ⟨e, he, hstop⟩⟩ := hx s t hs ht hview
  · exact ⟨hgood, .inl hsame⟩
  · exact ⟨hgood, .inr ⟨e, he, h e hstop⟩⟩

/-- What comes after a settled step is needed for its one outcome only. -/
theorem bind_ends {r : Except ε α} (hx : Ends Good view x r) (hquiet : ∀ e, r = .error e → Quiet e)
    (hf : ∀ a, r = .ok a → Follows Good view Quiet Stop (f a) (g a)) :
    Follows Good view Quiet Stop (x >>= f) (x >>= g) := by
  intro s t hs ht hview
  obtain ⟨hrun, hgood, hsame⟩ := hx s hs
  obtain ⟨hrun', hgood', hsame'⟩ := hx t ht
  rcases hxs : x.run s with ⟨rs, s'⟩
  rcases hxt : x.run t with ⟨rt, t'⟩
  simp only [hxs, hxt] at hrun hrun' hgood hgood' hsame hsame'
  obtain rfl : rs = r := hrun
  obtain rfl : rt = rs := hrun'
  cases rt with
  | error e =>
    rw [run_bind_error hxs, run_bind_error hxt]
    exact ⟨hgood, .inl ⟨rfl, fun e' he' => hquiet e' (by cases he'; rfl), hgood', by rw [hsame, hsame', hview]⟩⟩
  | ok a =>
    rw [run_bind_ok hxs, run_bind_ok hxt]
    exact hf a rfl s' t' hgood hgood' (by rw [hsame, hsame', hview])

theorem bind (hx : Follows Good view Quiet Stop x y) (hf : ∀ a, Follows Good view Quiet Stop (f a) (g a)) :
    Follows Good view Quiet Stop (x >>= f) (y >>= g) := by
  intro s t hs ht hview
  obtain ⟨hgood, ⟨hrun, hquiet, hgood', hview'⟩ | ⟨e, he, hstop⟩⟩ := hx s t hs ht hview
  · rcases hxs : x.run s with ⟨r, s'⟩
    rcases hyt : y.run t with ⟨r', t'⟩
    simp only [hxs, hyt] at hrun hquiet hgood hgood' hview'
    obtain rfl : r = r' := hrun
    cases r with
    | error e =>
      rw [run_bind_error hxs, run_bind_error hyt]
      exact ⟨hgood, .inl ⟨rfl, fun e' he' => hquiet e' (by cases he'; rfl), hgood', hview'⟩⟩
    | ok a =>
      rw [run_bind_ok hxs, run_bind_ok hyt]
      exact hf a s' t' hgood hgood' hview'
  · rcases hxs : x.run s with ⟨r, s'⟩
    rw [hxs] at he hgood
    obtain rfl : r = .error e := he
    rw [run_bind_error hxs]
    exact ⟨hgood, .inr ⟨e, rfl, hstop⟩⟩

end Follows

end

/-! ## Stopping at the first thing that is refused

Two computations come across the same things, one of which asks whether each
is allowed. If the other one succeeds, this one ends alike, or stops at the
first thing that is refused. -/

section

variable {μ : Type} (Alike : σ → σ → Prop) (refuses : μ → Bool) (stop : μ → ε)

/-- From states that are alike, does `x` do what `y` does up to the first refused thing of those
that `y` comes across? -/
def Gated (x y : ExceptT ε (StateM σ) α) (same : α → α → Prop) (Meets : α → List μ → Prop) : Prop :=
  ∀ s t b t', Alike s t → y.run t = (.ok b, t') → ∃ ms, Meets b ms ∧
    (ms.find? refuses = none → ∃ a s', x.run s = (.ok a, s') ∧ Alike s' t' ∧ same a b) ∧
    ∀ m, ms.find? refuses = some m → ∃ s', x.run s = (.error (stop m), s')

end

namespace Gated

variable {μ : Type} {Alike : σ → σ → Prop} {refuses : μ → Bool} {stop : μ → ε}
  {x y : ExceptT ε (StateM σ) α} {f g : α → ExceptT ε (StateM σ) β} {same : α → α → Prop} {same' : β → β → Prop}
  {Meets Meets' : α → List μ → Prop} {Meets₂ : β → List μ → Prop}

theorem pure {a b : α} (hab : same a b) (h : Meets b []) :
    Gated Alike refuses stop (Pure.pure a : ExceptT ε (StateM σ) α) (Pure.pure b) same Meets := by
  rintro s t _ _ hst ⟨⟩
  exact ⟨[], h, fun _ => ⟨a, s, rfl, hst, hab⟩, by simp⟩

/-- What the other one does not survive does not matter. -/
theorem throw (e : ε) : Gated Alike refuses stop x (MonadExcept.throw e : ExceptT ε (StateM σ) α) same Meets := by
  rintro s t b t' hst ⟨⟩

theorem imp (hx : Gated Alike refuses stop x y same Meets) (h : ∀ a ms, Meets a ms → Meets' a ms) :
    Gated Alike refuses stop x y same Meets' := by
  intro s t b t' hst hy
  obtain ⟨ms, hms, hends⟩ := hx s t b t' hst hy
  exact ⟨ms, h b ms hms, hends⟩

/-- What comes first is met first. -/
theorem bind (hAlike : ∀ s, Alike s s) (hsame : ∀ a, same a a) (hx : Gated Alike refuses stop x y same Meets)
    (hf : ∀ a b ms, same a b → Meets b ms →
      Gated Alike refuses stop (f a) (g b) same' fun c ms' => Meets₂ c (ms ++ ms')) :
    Gated Alike refuses stop (x >>= f) (y >>= g) same' Meets₂ := by
  intro s t c t' hst hrun
  obtain ⟨b, t₁, hy, hg⟩ := run_bind_eq_ok hrun
  obtain ⟨ms, hms, hgo, hstop⟩ := hx s t b t₁ hst hy
  cases hfirst : ms.find? refuses with
  | none =>
    obtain ⟨a, s₁, hxa, hst₁, hab⟩ := hgo hfirst
    obtain ⟨ms', hms', hends⟩ := hf a b ms hab hms s₁ t₁ c t' hst₁ hg
    refine ⟨ms ++ ms', hms', ?_⟩
    rw [List.find?_append, hfirst, Option.none_or, run_bind_ok hxa]
    exact hends
  | some m =>
    -- what the second step meets has to be listed as well, though it is not reached
    obtain ⟨ms', hms', -⟩ := hf b b ms (hsame b) hms t₁ t₁ c t' (hAlike t₁) hg
    obtain ⟨s', hxs⟩ := hstop m hfirst
    refine ⟨ms ++ ms', hms', ?_⟩
    rw [List.find?_append, hfirst, Option.some_or, run_bind_error hxs]
    exact ⟨nofun, fun m' hm' => ⟨s', by cases hm'; rfl⟩⟩

end Gated

end Action

end ExprTree
