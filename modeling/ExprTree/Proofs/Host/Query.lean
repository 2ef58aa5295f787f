import ExprTree.Proofs.Eval.Uniform
import ExprTree.Query

/-!
# Query operators are uniform

An operator is related to itself if the functions it is given are related, since
it reads lists and dictionaries, and calls functions, and does nothing else with
the heap but put its results there. What else it fails with lies in values.
-/

namespace ExprTree.Query

open Run

variable {L : Likeness} {p q : Value → Run Bool} {f g : Value → Run Value}

/-! ## Sources -/

theorem Source.items_congr {h h' : Heap} (hh : h.LooksLike h') (s : Source) : s.items h = s.items h' := by
  cases s with
  | fixed vs => rfl
  | list a => rw [Source.items, Source.items, hh.list?]

theorem source_uniform (v : Value) : L.Uniform (source v) := by
  unfold source
  refine .get fun h h' hh => ?_
  rw [hh.list?, hh.dict?]
  split
  · exact .pure _
  · exact .pure _
  · exact .pure _
  · exact .pure _
  · split
    · exact .pure _
    · exact .host _
  · split
    · exact .pure _
    · exact .pure _
    · exact .host _
  · exact .host _

/-- What is done with the items that a source has now. -/
theorem onNow_related {α : Type} {k k' : List Value → Run α} (s : Source) (hk : ∀ vs, L.Related (k vs) (k' vs)) :
    L.Related (get >>= fun h => k (s.items h)) (get >>= fun h => k' (s.items h)) := by
  refine .get fun h h' hh => ?_
  rw [Source.items_congr hh]
  exact hk _

theorem items_uniform (v : Value) : L.Uniform (items v) :=
  (source_uniform v).bind fun s => onNow_related s .pure

theorem walk_related {α : Type} {step step' : α → Value → Run (ForInStep α)} (s : Source)
    (hstep : ∀ a v, L.Related (step a v) (step' a v)) :
    ∀ fuel i a, L.Related (walk s step fuel i a) (walk s step' fuel i a)
  | 0, _, _ => .host _
  | fuel + 1, i, a => by
    unfold walk
    refine .get fun h h' hh => ?_
    rw [Source.items_congr hh]
    split
    · exact .pure a
    · next v _ =>
      refine (hstep a v).bind fun r => ?_
      cases r with
      | done a => exact .pure a
      | yield a => exact walk_related s hstep fuel (i + 1) a

theorem eachFrom_related {α : Type} {step step' : α → Value → Run (ForInStep α)} (i : Nat) (s : Source) (start : α)
    (hstep : ∀ a v, L.Related (step a v) (step' a v)) :
    L.Related (eachFrom i s start step) (eachFrom i s start step') :=
  onNow_related s fun vs => walk_related s hstep (growth + (vs.length + 1)) i start

theorem each_related {α : Type} {step step' : α → Value → Run (ForInStep α)} (s : Source) (start : α)
    (hstep : ∀ a v, L.Related (step a v) (step' a v)) : L.Related (each s start step) (each s start step') :=
  eachFrom_related 0 s start hstep

/-! ## Filtering and projection -/

theorem filter_related (hp : ∀ v, L.Related (p v) (q v)) (s : Source) :
    L.Related (filter p s) (filter q s) :=
  (each_related s [] fun _ v => (hp v).bind fun _ => .ite (.pure _) (.pure _)).bind fun _ => .pure _

theorem map_related (hf : ∀ v, L.Related (f v) (g v)) (s : Source) : L.Related (map f s) (map g s) :=
  (each_related s [] fun _ v => (hf v).bind fun _ => .pure _).bind fun _ => .pure _

theorem flatMap_related (hf : ∀ v, L.Related (f v) (g v)) (s : Source) :
    L.Related (flatMap f s) (flatMap g s) :=
  each_related s [] fun _ v => (hf v).bind fun w => (items_uniform w).bind fun _ => .pure _

theorem takeWhile_related (hp : ∀ v, L.Related (p v) (q v)) (s : Source) :
    L.Related (takeWhile p s) (takeWhile q s) :=
  (each_related s [] fun _ v => (hp v).bind fun _ => .ite (.pure _) (.pure _)).bind fun _ => .pure _

theorem dropWhile_related (hp : ∀ v, L.Related (p v) (q v)) (vs : List Value) :
    L.Related (dropWhile p vs) (dropWhile q vs) := by
  induction vs with
  | nil => exact .pure []
  | cons v vs ih => exact (hp v).bind fun _ => .ite ih (.pure (v :: vs))

/-! ## Elements -/

theorem first_related (hp : ∀ v, L.Related (p v) (q v)) (s : Source) : L.Related (first p s) (first q s) := by
  refine (each_related s none fun _ v => (hp v).bind fun _ => .ite (.pure _) (.pure _)).bind fun found => ?_
  cases found with
  | none => exact .throw rfl
  | some v => exact .pure v

theorem last_related (hp : ∀ v, L.Related (p v) (q v)) (s : Source) : L.Related (last p s) (last q s) := by
  refine (filter_related hp s).bind fun ws => ?_
  cases ws.getLast? with
  | none => exact .throw rfl
  | some v => exact .pure v

theorem any_related (hp : ∀ v, L.Related (p v) (q v)) (s : Source) : L.Related (any p s) (any q s) :=
  each_related s false fun _ v => (hp v).bind fun _ => .ite (.pure _) (.pure _)

theorem all_related (hp : ∀ v, L.Related (p v) (q v)) (s : Source) : L.Related (all p s) (all q s) :=
  each_related s true fun _ v => (hp v).bind fun _ => .ite (.pure _) (.pure _)

theorem count_related (hp : ∀ v, L.Related (p v) (q v)) (s : Source) : L.Related (count p s) (count q s) :=
  each_related s 0 fun _ v => (hp v).bind fun _ => .ite (.pure _) (.pure _)

theorem contains_congr {h h' : Heap} (hh : h.LooksLike h') (w : Value) (vs : List Value) :
    contains h w vs = contains h' w vs := by
  induction vs with
  | nil => rfl
  | cons v vs ih => rw [contains, contains, hh.equal, ih]

theorem contains_plain (h : Heap) (w : Value) (vs : List Value) : Plain (contains h w vs) := by
  induction vs with
  | nil => exact .ok _
  | cons v vs ih => exact .bind (h.equal_plain v w) fun _ => .ite (.ok _) ih

/-! ## Keys -/

theorem requireKey_uniform (v : Value) : L.Uniform (requireKey v) := by
  unfold requireKey
  refine .get fun h h' hh => ?_
  rw [hh.isKey]
  exact .ite (.host _) (.pure _)

theorem distinctFrom_uniform : ∀ seen vs, L.Uniform (distinctFrom seen vs)
  | _, [] => .pure []
  | seen, v :: vs => (requireKey_uniform v).bind fun _ => .ite (distinctFrom_uniform seen vs)
      ((distinctFrom_uniform (v :: seen) vs).bind fun _ => .pure _)

theorem groupBy_related (hf : ∀ v, L.Related (f v) (g v)) (s : Source) : L.Related (groupBy f s) (groupBy g s) :=
  each_related s [] fun _ v => (hf v).bind fun key => (requireKey_uniform key).bind fun _ => .pure _

theorem indexBy_related (hf : ∀ v, L.Related (f v) (g v)) (s : Source) :
    L.Related (indexBy f s) (indexBy g s) := by
  refine each_related s [] fun _ v => (hf v).bind fun key => (requireKey_uniform key).bind fun _ => .ite ?_ (.pure _)
  refine .get fun h h' hh => ?_
  rw [hh.describe]
  split
  · exact .throw rfl
  · exact .host _

/-! ## Sorting and aggregation -/

section

variable {less : Value → Value → Except Fault Bool} (hless : ∀ v w, Plain (less v w))

include hless

theorem placeOf_plain (sorted : Array Keyed) (key : Value) (fuel low high : Nat) :
    Plain (placeOf less sorted key fuel low high) := by
  induction fuel generalizing low high with
  | zero => exact .ok _
  | succ fuel ih =>
    refine .ite ?_ (.ok _)
    dsimp only
    split
    · exact .bind (hless _ _) fun _ => .ite (ih _ _) (ih _ _)
    · exact .ok _

theorem insertSorted_plain (sorted : List Keyed) (e : Keyed) : Plain (insertSorted less sorted e) :=
  .bind (placeOf_plain hless _ _ _ _ _) fun _ => .ok _

theorem leadingRun_plain (descending : Bool) (run : List Keyed) (e : Keyed) (es : List Keyed) :
    Plain (leadingRun less descending run e es) := by
  induction es generalizing run e with
  | nil => exact .ok _
  | cons x xs ih => exact .bind (hless _ _) fun _ => .ite (ih _ _) (.ok _)

theorem sort_plain (es : List Keyed) : Plain (sort less es) := by
  match es with
  | [] => exact .ok _
  | [e] => exact .ok _
  | e :: x :: xs =>
    refine .bind (hless _ _) fun descending => .bind (leadingRun_plain hless _ _ _ _) fun r => ?_
    exact .foldlM _ _ fun sorted e => insertSorted_plain hless sorted e

end

theorem orderBy_related (hf : ∀ v, L.Related (f v) (g v)) (vs : List Value) :
    L.Related (orderBy f vs) (orderBy g vs) := by
  refine Likeness.RelatedWhile.bind ((map_related hf (.fixed vs)).bind fun _ => .pure _) fun es => .get fun h h' hh => ?_
  rw [hh.less]
  exact .bind (.ofResult (sort_plain h'.less_plain es)) fun _ => .pure _

theorem orderByDescending_related (hf : ∀ v, L.Related (f v) (g v)) (vs : List Value) :
    L.Related (orderByDescending f vs) (orderByDescending g vs) := by
  refine Likeness.RelatedWhile.bind ((map_related hf (.fixed vs)).bind fun _ => .pure _) fun es => .get fun h h' hh => ?_
  rw [hh.less]
  exact .bind (.ofResult (sort_plain h'.less_plain es.reverse)) fun _ => .pure _

theorem sum_plain (vs : List Value) : Plain (sum vs) :=
  .foldlM vs _ fun v w => Arithmetic.onNumbers_plain (Number.combine_plain _ _ _) v w

theorem best_related {before before' : Value → Value → Run Bool}
    (hbefore : ∀ v w, L.Related (before v w) (before' v w)) (vs : List Value) :
    L.Related (best before vs) (best before' vs) := by
  cases vs with
  | nil => exact .host _
  | cons v vs => exact .foldlM vs v fun top w => (hbefore w top).bind fun _ => .ite (.pure w) (.pure top)

/-! ## Arguments -/

theorem index_uniform (v : Value) : L.Uniform (index v) := by
  unfold index
  split
  · exact .pure _
  · exact .pure _
  · exact .pure _
  · exact .host _

theorem amount_uniform (v : Value) : L.Uniform (amount v) :=
  (ordered_uniform _ _ _).bind fun _ => .ite (.pure _) ((index_uniform v).bind fun _ => .pure _)

theorem elementAt_uniform (vs : List Value) (i : Int) : L.Uniform (elementAt vs i) := by
  unfold elementAt
  dsimp only
  split
  · exact .pure _
  · exact .host _

theorem nonNegative_uniform (v : Value) : L.Uniform (nonNegative v) :=
  (ordered_uniform _ _ _).bind fun _ => .ite (.throw rfl) (.pure _)

theorem range_uniform (start count : Value) : L.Uniform (range start count) :=
  (nonNegative_uniform count).bind fun _ => (operate_uniform _ _ _ _).bind fun _ =>
    (index_uniform start).bind fun _ => (index_uniform _).bind fun _ => .pure _

/-! ## Tables of operators -/

/-- Do two tables hold operators that are related, in the same places and under the same names? -/
abbrev TablesRelated (L : Likeness) : List (String × Operator) → List (String × Operator) → Prop :=
  List.Forall₂ fun e e' => e.1 = e'.1 ∧ ∀ args, L.Related (e.2 args) (e'.2 args)

theorem TablesRelated.cons {name : String} {operator operator' : Operator} {table table' : List (String × Operator)}
    (hfirst : ∀ args, L.Related (operator args) (operator' args)) (hrest : TablesRelated L table table') :
    TablesRelated L ((name, operator) :: table) ((name, operator') :: table') :=
  List.Forall₂.cons ⟨rfl, hfirst⟩ hrest

theorem TablesRelated.ite {p : Prop} [Decidable p] {x y x' y' : List (String × Operator)} (ht : TablesRelated L x y)
    (hf : TablesRelated L x' y') : TablesRelated L (if p then x else x') (if p then y else y') := by
  split
  · exact ht
  · exact hf

theorem runIn_related {table table' : List (String × Operator)} (htable : TablesRelated L table table') (name : String)
    (args : List Value) : L.Related (runIn table name args) (runIn table' name args) := by
  unfold runIn
  induction htable with
  | nil => exact .host _
  | @cons e e' _ _ he _ ih =>
    rw [List.lookup_cons, List.lookup_cons, ← he.1]
    cases name == e.1 with
    | true => exact he.2 args
    | false => exact ih

section

variable {more : Nat} {run run' : Value → List Value → Run Value}

theorem oneAnd_related (hrun : ∀ v rest, L.Related (run v rest) (run' v rest)) (args : List Value) :
    L.Related (oneAnd more run args) (oneAnd more run' args) := by
  cases args with
  | nil => exact .host _
  | cons v rest => exact .ite (.host _) (hrun v rest)

theorem twoAnd_related {run run' : Value → Value → List Value → Run Value}
    (hrun : ∀ v w rest, L.Related (run v w rest) (run' v w rest)) :
    ∀ args, L.Related (twoAnd more run args) (twoAnd more run' args)
  | [] | [_] => .host _
  | v :: w :: rest => .ite (.host _) (hrun v w rest)

theorem one_related {run run' : Value → Run Value} (hrun : ∀ v, L.Related (run v) (run' v)) :
    ∀ args, L.Related (one run args) (one run' args) :=
  oneAnd_related fun v _ => hrun v

theorem two_related {run run' : Value → Value → Run Value} (hrun : ∀ v w, L.Related (run v w) (run' v w)) :
    ∀ args, L.Related (two run args) (two run' args) :=
  twoAnd_related fun v w _ => hrun v w

end

theorem onSource_related {α : Type} {k k' : Source → Run α} (v : Value) (hk : ∀ s, L.Related (k s) (k' s)) :
    L.Related (source v >>= k) (source v >>= k') :=
  (source_uniform v).bind hk

theorem onItems_related {α : Type} {k k' : List Value → Run α} (v : Value) (hk : ∀ vs, L.Related (k vs) (k' vs)) :
    L.Related (items v >>= k) (items v >>= k') :=
  (items_uniform v).bind hk

theorem listed_related {f g : Source → Run (List Value)} (v : Value) (hf : ∀ s, L.Related (f s) (g s)) :
    L.Related (do Run.newList (← f (← source v))) (do Run.newList (← g (← source v))) :=
  onSource_related v fun s => (hf s).bind fun ws => .newList ws

theorem listedItems_related {f g : List Value → Run (List Value)} (v : Value) (hf : ∀ vs, L.Related (f vs) (g vs)) :
    L.Related (do Run.newList (← f (← items v))) (do Run.newList (← g (← items v))) :=
  onItems_related v fun vs => (hf vs).bind fun ws => .newList ws

variable {apply apply' : Apply} (happly : L.Applies apply apply')

include happly

theorem test_related (k v : Value) : L.Related (test apply k v) (test apply' k v) :=
  (happly k [v]).bind fun w => isTrue_uniform w

theorem optionalTest_related (args : List Value) (v : Value) :
    L.Related (optionalTest apply args v) (optionalTest apply' args v) := by
  unfold optionalTest
  cases optional args with
  | none => exact .pure true
  | some k => exact test_related happly k v

theorem selected_related (s : Source) (args : List Value) :
    L.Related (selected apply s args) (selected apply' s args) := by
  unfold selected
  cases optional args with
  | none => exact onNow_related s .pure
  | some k => exact map_related (fun v => happly k [v]) s

theorem zipWith_related (k : Value) (s t : Source) : L.Related (zipWith apply k s t) (zipWith apply' k s t) := by
  refine (each_related s [] fun made v => ?_).bind fun _ => .pure _
  refine .get fun h h' hh => ?_
  rw [Source.items_congr hh]
  cases (t.items h')[made.length]? with
  | none => exact .pure _
  | some w => exact (happly k [v, w]).bind fun _ => .pure _

theorem zip_related (s t : Source) (args : List Value) : L.Related (zip apply s t args) (zip apply' s t args) := by
  unfold zip
  cases optional args with
  | none =>
    refine .get fun h h' hh => ?_
    rw [Source.items_congr hh, Source.items_congr hh]
    exact .pure _
  | some k => exact zipWith_related happly k s t

theorem finished_related (v : Value) (args : List Value) :
    L.Related (finished apply v args) (finished apply' v args) := by
  unfold finished
  cases optional args with
  | none => exact .pure v
  | some k => exact happly k [v]

theorem foldFrom_related (i : Nat) (k start : Value) (s : Source) :
    L.Related (foldFrom i (fun v w => apply k [v, w]) start s) (foldFrom i (fun v w => apply' k [v, w]) start s) :=
  eachFrom_related i s start fun v w => (happly k [v, w]).bind fun _ => .pure _

theorem aggregate_related (s : Source) (seed : Value) (step : Option Value) (rest : List Value) :
    L.Related (aggregate apply s seed step rest) (aggregate apply' s seed step rest) := by
  cases step with
  | some k => exact (foldFrom_related happly 0 k seed s).bind fun v => finished_related happly v rest
  | none =>
    refine .get fun h h' hh => ?_
    rw [Source.items_congr hh]
    cases (s.items h').head? with
    | none => exact .throw rfl
    | some v => exact (foldFrom_related happly 1 seed v s).bind fun v => finished_related happly v rest

theorem projections_related : TablesRelated L (projections apply) (projections apply') := by
  have htest := test_related happly
  have hcall (g v : Value) : L.Related (call apply g v) (call apply' g v) := happly g [v]
  refine .cons (two_related fun v g => listed_related v (filter_related (htest g))) <|
    .cons (two_related fun v g => listed_related v (map_related (hcall g))) <|
    .cons (two_related fun v g => listed_related v (flatMap_related (hcall g))) <|
    .cons (two_related fun v n => ?_) <| .cons (two_related fun v n => ?_) <|
    .cons (two_related fun v g => listed_related v (takeWhile_related (htest g))) <|
    .cons (two_related fun v g => listedItems_related v (dropWhile_related (htest g))) .nil
  · exact onItems_related v fun vs => (amount_uniform n).bind fun k => .newList (vs.take k)
  · exact onItems_related v fun vs => (amount_uniform n).bind fun k => .newList (vs.drop k)

theorem arrangements_related : TablesRelated L (arrangements apply) (arrangements apply') := by
  have hcall (g v : Value) : L.Related (call apply g v) (call apply' g v) := happly g [v]
  refine .cons (one_related fun v => listedItems_related v (distinctFrom_uniform [])) <|
    .cons (one_related fun v => onItems_related v fun vs => .newList _) <|
    .cons (two_related fun v w => ?concat) <|
    .cons (two_related fun v g => listedItems_related v (orderBy_related (hcall g))) <|
    .cons (two_related fun v g => listedItems_related v (orderByDescending_related (hcall g))) <|
    .cons (two_related fun v g => ?groupBy) <| .cons (two_related fun v g => ?toDict) <|
    .cons (one_related fun v => onItems_related v .newList) <| .cons (twoAnd_related fun v w rest => ?zip) .nil
  case concat => exact onItems_related v fun vs => (items_uniform w).bind fun ws => .newList (vs ++ ws)
  case groupBy =>
    refine onSource_related v fun s => (groupBy_related (hcall g) s).bind fun groups => ?_
    exact .bind (.mapM groups fun c => (Likeness.RelatedWhile.newList c.2).bind fun v => .pure (c.1, v)) .newDict
  case toDict => exact onSource_related v fun s => (indexBy_related (hcall g) s).bind .newDict
  case zip =>
    exact onSource_related v fun s => (source_uniform w).bind fun t => (zip_related happly s t rest).bind .newList

theorem elements_related : TablesRelated L (elements apply) (elements apply') := by
  have htest := test_related happly
  have hoptional := optionalTest_related happly
  refine .cons (oneAnd_related fun v rest => onSource_related v (first_related (hoptional rest))) <|
    .cons (oneAnd_related fun v rest => onSource_related v (last_related (hoptional rest))) <|
    .cons (two_related fun v i => ?elementAt) <| .cons (oneAnd_related fun v rest => ?any) <|
    .cons (two_related fun v g => ?all) <| .cons (two_related fun v w => ?contains) <|
    .cons (two_related fun v w => ?sequenceEqual) .nil
  case elementAt => exact onItems_related v fun vs => (index_uniform i).bind fun k => elementAt_uniform vs k
  case any => exact onSource_related v fun s => (any_related (hoptional rest) s).bind fun _ => .pure _
  case all => exact onSource_related v fun s => (all_related (htest g) s).bind fun _ => .pure _
  case contains =>
    refine onItems_related v fun vs => .get fun h h' hh => ?_
    rw [contains_congr hh]
    exact .bind (.ofResult (contains_plain h' w vs)) fun _ => .pure _
  case sequenceEqual =>
    refine onItems_related v fun vs => (items_uniform w).bind fun ws => .ite (.pure _) (.get fun h h' hh => ?_)
    rw [hh.equal]
    exact .bind (.ofResult (Value.equalAll_plain h'.equal_plain vs ws)) fun _ => .pure _

theorem aggregations_related : TablesRelated L (aggregations apply) (aggregations apply') := by
  have hselected {k k' : List Value → Run Value} (v : Value) (rest : List Value) (hk : ∀ vs, L.Related (k vs) (k' vs)) :
      L.Related (do k (← selected apply (← source v) rest)) (do k' (← selected apply' (← source v) rest)) :=
    onSource_related v fun s => (selected_related happly s rest).bind hk
  refine .cons (oneAnd_related fun v rest => ?count) <|
    .cons (oneAnd_related fun v rest => hselected v rest fun vs => .ofResult (sum_plain vs)) <|
    .cons (one_related fun v => ?average) <|
    .cons (oneAnd_related fun v rest => hselected v rest (best_related (ordered_uniform _))) <|
    .cons (oneAnd_related fun v rest => hselected v rest (best_related (ordered_uniform _))) <|
    .cons (twoAnd_related fun v g rest => onSource_related v fun s => aggregate_related happly s g _ _) .nil
  case average =>
    refine onItems_related v fun vs => .ite (.throw rfl) (.ofResult ?_)
    exact .bind (sum_plain vs) fun w => Arithmetic.onNumbers_plain Number.div_plain w _
  case count =>
    exact onSource_related v fun s => (count_related (optionalTest_related happly rest) s).bind fun _ => .pure _

omit happly in
theorem generators_related : TablesRelated L generators generators := by
  refine .cons (two_related fun start n => (range_uniform start n).bind .newList) <|
    .cons (two_related fun v n => ?_) <| .cons (fun args => .ite (.newList []) (.host _)) .nil
  exact (nonNegative_uniform n).bind fun _ => (index_uniform n).bind fun k => .newList _

/-- An operator is related to itself when the ways to call functions are related. -/
theorem run_related : ∀ name args, L.Related (run apply name args) (run apply' name args) := by
  refine runIn_related ?_
  unfold operators
  exact List.rel_append (List.rel_append (List.rel_append (List.rel_append (projections_related happly)
    (arrangements_related happly)) (elements_related happly)) (aggregations_related happly)) generators_related

end ExprTree.Query
