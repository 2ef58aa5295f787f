import ExprTree.Host.Sample
import ExprTree.Proofs.Query.Calls
import ExprTree.Proofs.Scalar.Running

/-!
# What predicates are called on

Operators with a predicate call it on the items in order: on all of them, or on
those up to the first answer that decides. What they give is told by the
answers. This is for items that stay while they are gone through; only the
operator that skips items goes through a copy. With a pure predicate, the
operators agree with each other.
-/

namespace ExprTree.Query

open Action Run

variable {p : Value → Run Bool} {h k : Heap} {s : Source} {v g : Value} {vs : List Value} {bs : List Bool}
  {fault : Option Fault} {stops : Bool → Bool}

/-! ## Answers -/

/-- The items whose answer is yes. -/
def chosen (vs : List Value) (bs : List Bool) : List Value :=
  ((vs.zip bs).filter (·.2)).map (·.1)

@[simp] theorem chosen_nil (vs : List Value) : chosen vs [] = [] := by
  simp [chosen]

@[simp] theorem chosen_cons_true (v : Value) (vs : List Value) (bs : List Bool) :
    chosen (v :: vs) (true :: bs) = v :: chosen vs bs := rfl

@[simp] theorem chosen_cons_false (v : Value) (vs : List Value) (bs : List Bool) :
    chosen (v :: vs) (false :: bs) = chosen vs bs := rfl

/-- An item that may be missing. -/
def found : Option Value → Run Value
  | some v => return v
  | none => throw .noMatch

/-! ## Loops of predicates -/

/-- A step that goes on in one of two ways, as the predicate says. -/
theorem ite_eq_stepping {β : Type} {update : β → Value → Bool → β} {b : β} {x y : ForInStep β}
    (hx : (if stops true then .done (update b v true) else .yield (update b v true)) = x)
    (hy : (if stops false then .done (update b v false) else .yield (update b v false)) = y) :
    (do if ← p v then return x else return y) = stepping p stops update b v := by
  subst hx hy
  unfold stepping
  congr
  funext c
  cases c <;> rfl

/-- Puts an item in front when the answer is yes. -/
def keep (kept : List Value) (v : Value) (b : Bool) : List Value :=
  if b then v :: kept else kept

theorem gathered_keep (kept vs : List Value) (bs : List Bool) :
    gathered keep kept vs bs = (chosen vs bs).reverse ++ kept := by
  induction vs generalizing kept bs with
  | nil => rfl
  | cons v vs ih =>
    cases bs with
    | nil => rfl
    | cons b bs =>
      rw [gathered_next, ih]
      cases b <;> simp [keep]

theorem filter_visits (hs : Held p never s h 0 vs) (hvs : Visits p never h vs bs fault k) :
    (filter p s).run h = (after fault (pure (chosen vs bs))).run k := by
  unfold filter
  refine (run_bind_after (each_visits keep [] (fun _ _ => ite_eq_stepping rfl rfl) hs hvs) _).trans ?_
  rw [gathered_keep]
  simp

theorem takeWhile_visits (hs : Held p not s h 0 vs) (hvs : Visits p not h vs bs fault k) :
    (takeWhile p s).run h = (after fault (pure (chosen vs bs))).run k := by
  unfold takeWhile
  refine (run_bind_after (each_visits keep [] (fun _ _ => ite_eq_stepping rfl rfl) hs hvs) _).trans ?_
  rw [gathered_keep]
  simp

theorem last_visits (hs : Held p never s h 0 vs) (hvs : Visits p never h vs bs fault k) :
    (last p s).run h = (after fault (found (chosen vs bs).getLast?)).run k := by
  unfold last
  refine (run_bind_after (filter_visits hs hvs) _).trans ?_
  rw [pure_bind]
  cases (chosen vs bs).getLast? <;> rfl

/-- Adds one when the answer is yes. -/
def tally (n : Nat) (_ : Value) (b : Bool) : Nat :=
  if b then n + 1 else n

theorem gathered_count (n : Nat) (hlength : bs.length ≤ vs.length) :
    gathered tally n vs bs = n + bs.count true := by
  induction bs generalizing n vs with
  | nil => simp
  | cons b bs ih =>
    cases vs with
    | nil => cases hlength
    | cons v vs =>
      rw [gathered_next, ih _ (Nat.le_of_succ_le_succ hlength)]
      cases b
      · simp [tally]
      · rw [tally, if_pos rfl, List.count_cons_self]
        omega

theorem count_visits (hs : Held p never s h 0 vs) (hvs : Visits p never h vs bs fault k) :
    (count p s).run h = (after fault (pure (bs.count true))).run k := by
  unfold count
  refine (each_visits tally 0 (fun _ _ => ite_eq_stepping rfl rfl) hs hvs).trans ?_
  rw [gathered_count 0 hvs.length_le, Nat.zero_add]

/-- The item when the answer is yes. -/
def pick (_ : Option Value) (v : Value) (b : Bool) : Option Value :=
  if b then some v else none

theorem Visits.gathered_pick (hvs : Visits p id h vs bs fault k) :
    gathered pick none vs bs = (chosen vs bs).head? := by
  induction hvs with
  | nil => rfl
  | fail => rfl
  | stop vs _ hb =>
    obtain rfl := hb
    simp [gathered_next, pick]
  | next _ hb _ ih =>
    obtain rfl := hb
    exact ih

theorem first_visits (hs : Held p id s h 0 vs) (hvs : Visits p id h vs bs fault k) :
    (first p s).run h = (after fault (found (chosen vs bs).head?)).run k := by
  unfold first
  refine (run_bind_after (each_visits pick none (fun _ _ => ite_eq_stepping rfl rfl) hs hvs) _).trans ?_
  rw [hvs.gathered_pick, pure_bind]
  cases (chosen vs bs).head? <;> rfl

theorem Visits.gathered_any (hvs : Visits p id h vs bs fault k) :
    gathered (fun _ _ b => b) false vs bs = bs.any id := by
  induction hvs with
  | nil => rfl
  | fail => rfl
  | stop vs _ hb =>
    obtain rfl := hb
    simp [gathered_next]
  | next _ hb _ ih =>
    obtain rfl := hb
    exact ih

theorem any_visits (hs : Held p id s h 0 vs) (hvs : Visits p id h vs bs fault k) :
    (any p s).run h = (after fault (pure (bs.any id))).run k := by
  unfold any
  refine (each_visits (fun _ _ b => b) false (fun _ _ => ite_eq_stepping rfl rfl) hs hvs).trans ?_
  rw [hvs.gathered_any]

theorem Visits.gathered_all (hvs : Visits p not h vs bs fault k) :
    gathered (fun _ _ b => b) true vs bs = bs.all id := by
  induction hvs with
  | nil => rfl
  | fail => rfl
  | @stop _ _ _ b vs _ hb =>
    obtain rfl : b = false := by simpa using hb
    simp [gathered_next]
  | @next _ _ _ _ _ b _ _ _ hb _ ih =>
    obtain rfl : b = true := by simpa using hb
    exact ih

theorem all_visits (hs : Held p not s h 0 vs) (hvs : Visits p not h vs bs fault k) :
    (all p s).run h = (after fault (pure (bs.all id))).run k := by
  unfold all
  refine (each_visits (fun _ _ b => b) true (fun _ _ => ite_eq_stepping rfl rfl) hs hvs).trans ?_
  rw [hvs.gathered_all]

/-- What is skipped are the items that would be taken; no item has to stay. -/
theorem dropWhile_visits (hvs : Visits p not h vs bs fault k) :
    (dropWhile p vs).run h = (after fault (pure (vs.drop (chosen vs bs).length))).run k := by
  induction hvs with
  | nil => rfl
  | fail vs hv =>
    unfold dropWhile
    exact run_bind_error hv _
  | @stop _ _ _ b vs hv hb =>
    obtain rfl : b = false := by simpa using hb
    unfold dropWhile
    rw [run_bind_ok hv]
    simp
  | @next _ _ _ _ _ b _ _ hv hb _ ih =>
    obtain rfl : b = true := by simpa using hb
    unfold dropWhile
    rw [run_bind_ok hv, if_pos rfl, ih]
    rfl

/-! ## Pure predicates -/

variable {val : Value → Bool}

theorem chosen_map (val : Value → Bool) (vs : List Value) : chosen vs (vs.map val) = vs.filter val := by
  induction vs with
  | nil => rfl
  | cons v vs ih => cases hv : val v <;> simp [hv, ih]

theorem head?_chosen_upTo (val : Value → Bool) (vs : List Value) :
    (chosen vs (upTo id (vs.map val))).head? = (vs.filter val).head? := by
  induction vs with
  | nil => rfl
  | cons v vs ih => cases hv : val v <;> simp [upTo, hv, ih]

theorem count_map_true (val : Value → Bool) (vs : List Value) : (vs.map val).count true = (vs.filter val).length := by
  induction vs with
  | nil => rfl
  | cons v vs ih => cases hv : val v <;> simp [hv, ih]

theorem any_upTo (val : Value → Bool) (vs : List Value) :
    (upTo id (vs.map val)).any id = !(vs.filter val).isEmpty := by
  induction vs with
  | nil => rfl
  | cons v vs ih => cases hv : val v <;> simp [upTo, hv, ih]

theorem all_upTo (val : Value → Bool) (vs : List Value) :
    (upTo not (vs.map val)).all id = decide ((vs.filter val).length = vs.length) := by
  induction vs with
  | nil => rfl
  | cons v vs ih =>
    cases hv : val v with
    | true => simp [upTo, hv, ih]
    | false =>
      have hlt : (vs.filter val).length < vs.length + 1 := Nat.lt_succ_of_le (List.length_filter_le val vs)
      simp [upTo, hv, hlt.ne]

theorem chosen_upTo_not (val : Value → Bool) (vs : List Value) :
    chosen vs (upTo not (vs.map val)) = vs.takeWhile val := by
  induction vs with
  | nil => rfl
  | cons v vs ih => cases hv : val v <;> simp [upTo, hv, ih]

theorem IsPure.test {apply : Apply} (hg : IsPure (call apply g) (fun v => .bool (val v)) h vs) :
    IsPure (test apply g) val h vs := by
  intro k hk v hv
  obtain ⟨m, hrun, hm⟩ := hg k hk v hv
  exact ⟨m, run_bind_ok hrun _, hm⟩

theorem run_found (o : Option Value) (h : Heap) : ((found o).run h).1 = o.elim (.error .noMatch) .ok := by
  cases o <;> rfl

/-! ## Amounts -/

theorem run_less {n : Value} {m : Int} (hn : n.number? = some (.int m) ∨ ∃ t, n.number? = some (.fixed t m))
    (b : Int) (h : Heap) : (Run.ordered .lessThan n (.int b)).run h = (.ok (decide (m < b)), h) := by
  unfold Run.ordered
  rw [run_bind_ok (run_get h), run_bind_ok (by rw [order_int hn, run_ofResult])]
  simp [compare_lt_iff_lt]

/-- An integer is an amount, and none when it is less than zero. -/
theorem run_amount {n : Value} {i : Int} (hn : (index n).run h = (.ok i, h)) :
    (amount n).run h = (.ok i.toNat, h) := by
  have hless : (Run.ordered .lessThan n (.int 0)).run h = (.ok (decide (i < 0)), h) := by
    refine run_less ?_ 0 h
    unfold index at hn
    split at hn
    · cases hn
      exact .inl rfl
    · cases hn
      exact .inl rfl
    · cases hn
      exact .inr ⟨_, rfl⟩
    · cases hn
  unfold amount
  rw [run_bind_ok hless]
  by_cases hi : i < 0
  · simp [hi, Int.toNat_of_nonpos hi.le]
  · simp only [hi, decide_false]
    exact run_bind_ok hn _

/-! ## Operators -/

variable (apply : Apply)

theorem optionalTest_singleton (hg : g ≠ .none) : optionalTest apply [g] = test apply g := by
  cases g <;> first | rfl | exact absurd rfl hg

/-- Operators that need all answers. -/
theorem run_thorough (hv : Offers v h s vs) (hg : g ≠ .none) (hs : Held (test apply g) never s h 0 vs)
    (hvs : Visits (test apply g) never h vs bs fault k) :
    (run apply "where" [v, g]).run h = (after fault (newList (chosen vs bs))).run k ∧
      (run apply "last" [v, g]).run h = (after fault (found (chosen vs bs).getLast?)).run k ∧
      (run apply "count" [v, g]).run h = (after fault (pure (.int (bs.count true)))).run k := by
  refine ⟨?_, ?_, ?_⟩
  · refine (run_bind_ok hv.source _).trans ((run_bind_after (filter_visits hs hvs) _).trans ?_)
    rw [pure_bind]
  · refine (run_bind_ok hv.source _).trans ?_
    rw [optionalTest_singleton apply hg]
    exact last_visits hs hvs
  · refine (run_bind_ok hv.source _).trans ?_
    rw [optionalTest_singleton apply hg]
    refine (run_bind_after (count_visits hs hvs) _).trans ?_
    rw [pure_bind]

/-- Operators that are decided by a yes. -/
theorem run_seeking (hv : Offers v h s vs) (hg : g ≠ .none) (hs : Held (test apply g) id s h 0 vs)
    (hvs : Visits (test apply g) id h vs bs fault k) :
    (run apply "first" [v, g]).run h = (after fault (found (chosen vs bs).head?)).run k ∧
      (run apply "any" [v, g]).run h = (after fault (pure (.bool (bs.any id)))).run k := by
  refine ⟨?_, ?_⟩
  · refine (run_bind_ok hv.source _).trans ?_
    rw [optionalTest_singleton apply hg]
    exact first_visits hs hvs
  · refine (run_bind_ok hv.source _).trans ?_
    rw [optionalTest_singleton apply hg]
    refine (run_bind_after (any_visits hs hvs) _).trans ?_
    rw [pure_bind]

/-- Operators that are decided by a no. -/
theorem run_lasting (hv : Offers v h s vs) (hs : Held (test apply g) not s h 0 vs)
    (hvs : Visits (test apply g) not h vs bs fault k) :
    (run apply "all" [v, g]).run h = (after fault (pure (.bool (bs.all id)))).run k ∧
      (run apply "take_while" [v, g]).run h = (after fault (newList (chosen vs bs))).run k := by
  refine ⟨?_, ?_⟩
  · refine (run_bind_ok hv.source _).trans ((run_bind_after (all_visits hs hvs) _).trans ?_)
    rw [pure_bind]
  · refine (run_bind_ok hv.source _).trans ((run_bind_after (takeWhile_visits hs hvs) _).trans ?_)
    rw [pure_bind]

theorem run_skipping (hv : Offers v h s vs) (hvs : Visits (test apply g) not h vs bs fault k) :
    (run apply "skip_while" [v, g]).run h = (after fault (newList (vs.drop (chosen vs bs).length))).run k := by
  refine (run_bind_ok hv.run_items _).trans ((run_bind_after (dropWhile_visits hvs) _).trans ?_)
  rw [pure_bind]

theorem run_parts {n : Value} {i : Int} (hv : Offers v h s vs) (hn : index n = pure i) :
    (run apply "take" [v, n]).run h = (newList (vs.take i.toNat)).run h ∧
      (run apply "skip" [v, n]).run h = (newList (vs.drop i.toNat)).run h := by
  have hamount : (amount n).run h = (.ok i.toNat, h) := run_amount (by rw [hn, run_pure])
  exact ⟨(run_bind_ok hv.run_items _).trans (run_bind_ok hamount _),
    (run_bind_ok hv.run_items _).trans (run_bind_ok hamount _)⟩

theorem run_filtering (hv : Offers v h s vs) (hp : IsPure (test apply g) val h vs) :
    Lists (run apply "where" [v, g]) h (vs.filter val) := by
  obtain ⟨k, hall, hk⟩ := hp.visits never
  have hfilter := filter_visits (hp.held hv never) hall
  refine lists_newList ((run_bind_ok hv.source _).trans ((run_bind_after hfilter _).trans ?_)) hk
  rw [pure_bind, after_none, upTo_never, chosen_map]

theorem run_agreeing (hv : Offers v h s vs) (hg : g ≠ .none) (hp : IsPure (test apply g) val h vs) :
    Lists (run apply "where" [v, g]) h (vs.filter val) ∧
      ((run apply "first" [v, g]).run h).1 = (vs.filter val).head?.elim (.error .noMatch) .ok ∧
      ((run apply "last" [v, g]).run h).1 = (vs.filter val).getLast?.elim (.error .noMatch) .ok ∧
      ((run apply "count" [v, g]).run h).1 = .ok (.int (vs.filter val).length) ∧
      ((run apply "any" [v, g]).run h).1 = .ok (.bool !(vs.filter val).isEmpty) ∧
      ((run apply "all" [v, g]).run h).1 = .ok (.bool ((vs.filter val).length = vs.length)) := by
  obtain ⟨k, hall, -⟩ := hp.visits never
  obtain ⟨-, hlast, hcount⟩ := run_thorough apply hv hg (hp.held hv never) hall
  obtain ⟨m, hyes, -⟩ := hp.visits id
  obtain ⟨hfirst, hany⟩ := run_seeking apply hv hg (hp.held hv id) hyes
  obtain ⟨m', hno, -⟩ := hp.visits not
  obtain ⟨hevery, -⟩ := run_lasting apply hv (hp.held hv not) hno
  rw [after_none, upTo_never, chosen_map] at hlast
  rw [after_none, upTo_never, count_map_true] at hcount
  refine ⟨run_filtering apply hv hp, ?_, ?_, ?_, ?_, ?_⟩
  · rw [hfirst, after_none, run_found, head?_chosen_upTo]
  · rw [hlast, run_found]
  · rw [hcount, run_pure]
  · rw [hany, after_none, run_pure, any_upTo]
  · rw [hevery, after_none, run_pure, all_upTo]

theorem run_splitting (hv : Offers v h s vs) (hp : IsPure (test apply g) val h vs) :
    ∃ ts ds, Lists (run apply "take_while" [v, g]) h ts ∧ Lists (run apply "skip_while" [v, g]) h ds ∧
      ts ++ ds = vs := by
  obtain ⟨k, hno, hk⟩ := hp.visits not
  obtain ⟨-, htake⟩ := run_lasting apply hv (hp.held hv not) hno
  have hskip := run_skipping apply hv hno
  rw [after_none, chosen_upTo_not] at htake hskip
  refine ⟨_, _, lists_newList htake hk, lists_newList hskip hk, ?_⟩
  exact List.prefix_iff_eq_append.mp (List.takeWhile_prefix val)

/-- Operators with a predicate call it on the items in order: three of them on all items until a call fails, and five up
to the first answer that decides, which is a yes for two and a no for the others. The items that are left have to
stay meanwhile, unless they are skipped. What a pure predicate is asked for is the same everywhere, and what is taken
together with what is skipped is always the source. -/
theorem predicates_visit (hv : Offers v h s vs) (hg : g ≠ .none) :
    (Held (test apply g) never s h 0 vs → ∃ bs fault k, Visits (test apply g) never h vs bs fault k ∧
      (run apply "where" [v, g]).run h = (after fault (newList (chosen vs bs))).run k ∧
      (run apply "last" [v, g]).run h = (after fault (found (chosen vs bs).getLast?)).run k ∧
      (run apply "count" [v, g]).run h = (after fault (pure (.int (bs.count true)))).run k) ∧
    (Held (test apply g) id s h 0 vs → ∃ bs fault k, Visits (test apply g) id h vs bs fault k ∧
      (run apply "first" [v, g]).run h = (after fault (found (chosen vs bs).head?)).run k ∧
      (run apply "any" [v, g]).run h = (after fault (pure (.bool (bs.any id)))).run k) ∧
    (Held (test apply g) not s h 0 vs → ∃ bs fault k, Visits (test apply g) not h vs bs fault k ∧
      (run apply "all" [v, g]).run h = (after fault (pure (.bool (bs.all id)))).run k ∧
      (run apply "take_while" [v, g]).run h = (after fault (newList (chosen vs bs))).run k) ∧
    (∃ bs fault k, Visits (test apply g) not h vs bs fault k ∧
      (run apply "skip_while" [v, g]).run h = (after fault (newList (vs.drop (chosen vs bs).length))).run k) ∧
    (∀ val, IsPure (test apply g) val h vs →
      Lists (run apply "where" [v, g]) h (vs.filter val) ∧
      ((run apply "first" [v, g]).run h).1 = (vs.filter val).head?.elim (.error .noMatch) .ok ∧
      ((run apply "last" [v, g]).run h).1 = (vs.filter val).getLast?.elim (.error .noMatch) .ok ∧
      ((run apply "count" [v, g]).run h).1 = .ok (.int (vs.filter val).length) ∧
      ((run apply "any" [v, g]).run h).1 = .ok (.bool !(vs.filter val).isEmpty) ∧
      ((run apply "all" [v, g]).run h).1 = .ok (.bool ((vs.filter val).length = vs.length)) ∧
      ∃ ts ds, Lists (run apply "take_while" [v, g]) h ts ∧ Lists (run apply "skip_while" [v, g]) h ds ∧
        ts ++ ds = vs) ∧
    ∀ n i, index n = pure i →
      ∃ ts ds, Lists (run apply "take" [v, n]) h ts ∧ Lists (run apply "skip" [v, n]) h ds ∧ ts ++ ds = vs := by
  refine ⟨fun hs => ?_, fun hs => ?_, fun hs => ?_, ?_, fun val hp => ?_, fun n i hn => ?_⟩
  · obtain ⟨bs, fault, k, hvs⟩ := exists_visits (test apply g) never h vs
    exact ⟨bs, fault, k, hvs, run_thorough apply hv hg hs hvs⟩
  · obtain ⟨bs, fault, k, hvs⟩ := exists_visits (test apply g) id h vs
    exact ⟨bs, fault, k, hvs, run_seeking apply hv hg hs hvs⟩
  · obtain ⟨bs, fault, k, hvs⟩ := exists_visits (test apply g) not h vs
    exact ⟨bs, fault, k, hvs, run_lasting apply hv hs hvs⟩
  · obtain ⟨bs, fault, k, hvs⟩ := exists_visits (test apply g) not h vs
    exact ⟨bs, fault, k, hvs, run_skipping apply hv hvs⟩
  · obtain ⟨hwhere, hfirst, hlast, hcount, hany, hall⟩ := run_agreeing apply hv hg hp
    exact ⟨hwhere, hfirst, hlast, hcount, hany, hall, run_splitting apply hv hp⟩
  · obtain ⟨htake, hskip⟩ := run_parts apply hv hn
    exact ⟨_, _, lists_newList htake (.refl h), lists_newList hskip (.refl h), List.take_append_drop i.toNat vs⟩

def number : Parameter := ⟨1, .int, some "x"⟩

def numbers : List Value := [.int 3, .int 4, .int 8, .int 1]

/-- A list of numbers, and a function that tells the small ones. -/
def smallOnes : Heap :=
  ⟨#[.list numbers,
     .function [number] (.binary (.binary (.ordering .lessThan)) (.parameter number) (.constant (.int 5) .int) .bool)
       []]⟩

def isSmall : Value → Bool
  | .int n => n < 5
  | _ => false

theorem isPure_smallOnes : IsPure (test Sample.host.apply (.ref 1)) isSmall smallOnes numbers := by
  refine (isPure_apply rfl fun k v hv => ?_).test
  obtain ⟨n, rfl⟩ : ∃ n, v = .int n := by
    simp only [numbers, List.mem_cons, List.not_mem_nil, or_false] at hv
    obtain rfl | rfl | rfl | rfl := hv <;> exact ⟨_, rfl⟩
  rw [Node.eval]
  refine (run_bind_ok (run_readParameter_bound k number (.int n) []) _).trans ?_
  refine (run_bind_ok (run_pure _ _) _).trans ?_
  exact run_bind_ok (run_less (.inl rfl) 5 _) _

theorem predicates_visit_small :
    Offers (.ref 0) smallOnes (.list 0) numbers ∧ Value.ref 1 ≠ .none ∧
      Held (test Sample.host.apply (.ref 1)) not (.list 0) smallOnes 0 numbers ∧
      IsPure (test Sample.host.apply (.ref 1)) isSmall smallOnes numbers ∧
      (∃ k, Visits (test Sample.host.apply (.ref 1)) not smallOnes numbers [true, true, false] none k ∧
        (run Sample.host.apply "all" [.ref 0, .ref 1]).run smallOnes = (.ok (.bool false), k)) ∧
      Lists (run Sample.host.apply "where" [.ref 0, .ref 1]) smallOnes [.int 3, .int 4, .int 1] ∧
      ((run Sample.host.apply "last" [.ref 0, .ref 1]).run smallOnes).1 = .ok (.int 1) := by
  have hv : Offers (.ref 0) smallOnes (.list 0) numbers := ⟨rfl, rfl⟩
  have hg : Value.ref 1 ≠ .none := by simp
  have hs := isPure_smallOnes.held hv not
  obtain ⟨-, -, hno, -, hpure, -⟩ := predicates_visit Sample.host.apply hv hg
  obtain ⟨bs, fault, k, hvs, hall, -⟩ := hno hs
  obtain ⟨hwhere, -, hlast, -⟩ := hpure isSmall isPure_smallOnes
  have hcalls : Visits (test Sample.host.apply (.ref 1)) not smallOnes numbers [true, true, false] none _ :=
    .next rfl rfl (.next rfl rfl (.stop _ rfl rfl))
  obtain ⟨rfl, rfl, rfl⟩ := hvs.unique hcalls
  exact ⟨hv, hg, hs, isPure_smallOnes, ⟨_, hvs, hall⟩, hwhere, hlast⟩

/-! ## A list that is emptied while it is filtered -/

def remaining : Parameter := ⟨0, .generic .list [.int], some "xs"⟩

/-- Takes the last item off the list, and tells whether it is three. -/
def takesThree : Node :=
  .binary (.binary .equal)
    (.callOn (.parameter remaining) ⟨⟨.builtin "list", "pop", [("index", .object)], .object, false, []⟩, []⟩
      [.constant (.int (-1)) .int])
    (.constant (.int 3) .int) .bool

/-- A list, and a function that takes items off it. -/
def emptying : Heap :=
  ⟨#[.list [.int 1, .int 2, .int 3], .scope [(0, .ref 0)], .function [number] takesThree [1]]⟩

/-- The function is not called on the third item, as the list has been emptied down to one when its turn comes. -/
theorem where_misses_emptied :
    Offers (.ref 0) emptying (.list 0) [.int 1, .int 2, .int 3] ∧
      ¬∃ bs fault k, Visits (test Sample.host.apply (.ref 2)) never emptying [.int 1, .int 2, .int 3] bs fault k ∧
        (run Sample.host.apply "where" [.ref 0, .ref 2]).run emptying =
          (after fault (newList (chosen [.int 1, .int 2, .int 3] bs))).run k := by
  refine ⟨⟨rfl, rfl⟩, ?_⟩
  intro h
  obtain ⟨bs, fault, k, hvs, hrun⟩ := h
  have hcalls : Visits (test Sample.host.apply (.ref 2)) never emptying [.int 1, .int 2, .int 3] [true, false, false]
      none _ :=
    .next rfl rfl (.next rfl rfl (.next rfl rfl (.nil _)))
  obtain ⟨rfl, rfl, rfl⟩ := hvs.unique hcalls
  have hleft := congrArg (fun r => r.2.list? (.ref 0)) hrun
  have hone : some [Value.int 1] = some [] := hleft
  cases hone

end ExprTree.Query
