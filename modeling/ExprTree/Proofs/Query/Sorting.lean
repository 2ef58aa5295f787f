import ExprTree.Host.Sample
import ExprTree.Proofs.Query.Calls
import ExprTree.Proofs.Scalar.Running

/-!
# Sorting is stable

Sorting starts with a run at the front that is sorted already, or is when it is
turned around, and puts each further item behind all that it is not less than.
On keys that are totally preordered, every step sorts the items so far and
leaves those with equal keys in the order they came in. Sorting backwards turns
the items around before and after, which leaves these as they were, too.
-/

namespace ExprTree.Query

open Action Run

variable {less : Value → Value → Except Fault Bool} {ws : List Value} {es fs out : List Keyed} {e : Keyed}
  {key v w : Value}

/-! ## Preorders -/

/-- Is a value at most another one, which is then not less than it? -/
def atMost (less : Value → Value → Except Fault Bool) (v w : Value) : Bool :=
  match less w v with
  | .ok b => !b
  | .error _ => false

/-- Do comparisons of these keys tell a total preorder? -/
structure Preordered (less : Value → Value → Except Fault Bool) (ws : List Value) : Prop where
  answers : ∀ v ∈ ws, ∀ w ∈ ws, ∃ b, less v w = .ok b
  total : ∀ v ∈ ws, ∀ w ∈ ws, atMost less v w = true ∨ atMost less w v = true
  trans : ∀ u ∈ ws, ∀ v ∈ ws, ∀ w ∈ ws,
    atMost less u v = true → atMost less v w = true → atMost less u w = true

namespace Preordered

theorem less_eq (hws : Preordered less ws) (hv : v ∈ ws) (hw : w ∈ ws) : less v w = .ok !atMost less w v := by
  obtain ⟨b, hb⟩ := hws.answers v hv w hw
  simp [atMost, hb]

theorem refl (hws : Preordered less ws) (hv : v ∈ ws) : atMost less v v = true :=
  (hws.total v hv v hv).elim id id

theorem of_not_atMost (hws : Preordered less ws) (hv : v ∈ ws) (hw : w ∈ ws) (h : atMost less v w = false) :
    atMost less w v = true :=
  (hws.total v hv w hw).resolve_left (by simp [h])

end Preordered

/-! ## Stable sorting -/

/-- Does a key equal that of an item, as far as the order tells? -/
def tied (le : Value → Value → Bool) (w : Value) (e : Keyed) : Bool :=
  le w e.1 && le e.1 w

/-- Are these the items in the order of their keys, those with equal keys in the order they came in? -/
structure SortsStably (le : Value → Value → Bool) (ws : List Value) (es out : List Keyed) : Prop where
  perm : out.Perm es
  sorted : out.Pairwise fun d e => le d.1 e.1 = true
  ties : ∀ w ∈ ws, out.filter (tied le w) = es.filter (tied le w)

/-- Where items are put in: behind those before `low` and in front of those from `high` on. -/
structure Surrounds (le : Value → Value → Bool) (sorted : List Keyed) (key : Value) (low high : Nat) : Prop where
  low_le : low ≤ high
  high_le : high ≤ sorted.length
  before : ∀ e ∈ sorted.take low, le e.1 key = true
  behind : ∀ e ∈ sorted.drop high, le e.1 key = false

theorem Surrounds.start (le : Value → Value → Bool) (sorted : List Keyed) (key : Value) :
    Surrounds le sorted key 0 sorted.length where
  low_le := Nat.zero_le _
  high_le := Nat.le_refl _
  before := by simp
  behind := by simp

section

variable (hws : Preordered less ws) (hes : ∀ e ∈ es, e.1 ∈ ws) (hkey : key ∈ ws)
  (hsorted : es.Pairwise fun d e => atMost less d.1 e.1 = true) {low middle high : Nat}
include hws hes hkey hsorted

/-- The lower half is left when the key is less than the item in the middle. -/
theorem Surrounds.lower (h : Surrounds (atMost less) es key low high) (hmiddle : es[middle]? = some e)
    (hlow : low ≤ middle) (hless : atMost less e.1 key = false) : Surrounds (atMost less) es key low middle := by
  obtain ⟨hlt, rfl⟩ := List.getElem?_eq_some_iff.mp hmiddle
  refine ⟨hlow, hlt.le, h.before, fun d hd => ?_⟩
  rw [List.drop_eq_getElem_cons hlt] at hd
  have hdrop := hsorted.sublist (List.drop_sublist middle es)
  rw [List.drop_eq_getElem_cons hlt, List.pairwise_cons] at hdrop
  obtain rfl | hd := List.mem_cons.mp hd
  · exact hless
  · by_contra hd'
    have hle := hws.trans _ (hes _ (List.getElem_mem hlt)) _ (hes d (List.mem_of_mem_drop hd)) _ hkey (hdrop.1 d hd)
      (by simpa using hd')
    rw [hless] at hle
    cases hle

/-- The upper half is left when the key is not less than the item in the middle. -/
theorem Surrounds.upper (h : Surrounds (atMost less) es key low high) (hmiddle : es[middle]? = some e)
    (hhigh : middle < high) (hless : atMost less e.1 key = true) :
    Surrounds (atMost less) es key (middle + 1) high := by
  obtain ⟨hlt, rfl⟩ := List.getElem?_eq_some_iff.mp hmiddle
  refine ⟨hhigh, h.high_le, fun d hd => ?_, h.behind⟩
  rw [List.take_succ_eq_append_getElem hlt] at hd
  have htake := hsorted.sublist (List.take_sublist (middle + 1) es)
  rw [List.take_succ_eq_append_getElem hlt, List.pairwise_append] at htake
  obtain hd | hd := List.mem_append.mp hd
  · exact hws.trans _ (hes d (List.mem_of_mem_take hd)) _ (hes _ (List.getElem_mem hlt)) _ hkey
      (htake.2.2 d hd _ List.mem_cons_self) hless
  · obtain rfl := List.mem_singleton.mp hd
    exact hless

theorem placeOf_surrounds (fuel : Nat) (h : Surrounds (atMost less) es key low high) (hfuel : high - low ≤ fuel) :
    ∃ i, placeOf less es.toArray key fuel low high = .ok i ∧ Surrounds (atMost less) es key i i := by
  -- The fuel bounds the distance of the ends, which either half shortens.
  induction fuel generalizing low high with
  | zero =>
    obtain rfl : low = high := Nat.le_antisymm h.low_le (by omega)
    exact ⟨low, rfl, h⟩
  | succ fuel ih =>
    unfold placeOf
    by_cases hlt : low < high
    · have hle := h.high_le
      have hmiddle : low + (high - low) / 2 < es.length := by omega
      have hitem : es.toArray[low + (high - low) / 2]? = some es[low + (high - low) / 2] := by simp [hmiddle]
      have hitem' := List.getElem?_eq_getElem hmiddle
      rw [if_pos hlt]
      dsimp only
      rw [hitem]
      dsimp only
      rw [hws.less_eq hkey (hes _ (List.getElem_mem hmiddle)), ok_bind]
      cases hless : atMost less es[low + (high - low) / 2].1 key with
      | true => exact ih (h.upper hws hes hkey hsorted hitem' (by omega) hless) (by omega)
      | false => exact ih (h.lower hws hes hkey hsorted hitem' (by omega) hless) (by omega)
    · obtain rfl : low = high := Nat.le_antisymm h.low_le (by omega)
      rw [if_neg hlt]
      exact ⟨low, rfl, h⟩

end

/-- What is in place stays sorted as items are put in, each behind those of equal keys. -/
theorem SortsStably.insert (hws : Preordered less ws) (hes : ∀ d ∈ es ++ [e], d.1 ∈ ws)
    (h : SortsStably (atMost less) ws es out) {i : Nat} (hi : Surrounds (atMost less) out e.1 i i) :
    SortsStably (atMost less) ws (es ++ [e]) (out.take i ++ e :: out.drop i) := by
  have he : e.1 ∈ ws := hes e (by simp)
  have hout : ∀ d ∈ out, d.1 ∈ ws := fun d hd => hes d (List.mem_append_left _ (h.perm.mem_iff.mp hd))
  refine ⟨?_, ?_, ?_⟩
  · refine List.perm_middle.trans (.trans ?_ (List.perm_append_singleton e es).symm)
    rw [List.take_append_drop]
    exact h.perm.cons e
  · have hsplit := h.sorted
    rw [← List.take_append_drop i out, List.pairwise_append] at hsplit
    obtain ⟨htake, hdrop, hacross⟩ := hsplit
    refine List.pairwise_append.mpr ⟨htake, List.pairwise_cons.mpr ⟨fun d hd => ?_, hdrop⟩, fun d hd c hc => ?_⟩
    · exact hws.of_not_atMost (hout d (List.mem_of_mem_drop hd)) he (hi.behind d hd)
    · obtain rfl | hc := List.mem_cons.mp hc
      · exact hi.before d hd
      · exact hacross d hd c hc
  · intro w hw
    rw [List.filter_append, List.filter_append, ← h.ties w hw]
    by_cases hew : tied (atMost less) w e = true
    · -- What stands behind is greater than the item, so no key there equals one that the item's equals.
      have hbehind : (out.drop i).filter (tied (atMost less) w) = [] := by
        refine List.filter_eq_nil_iff.mpr fun d hd hdw => ?_
        have hle := hws.trans d.1 (hout d (List.mem_of_mem_drop hd)) w hw e.1 he (Bool.and_eq_true_iff.mp hdw).2
          (Bool.and_eq_true_iff.mp hew).1
        rw [hi.behind d hd] at hle
        cases hle
      conv_rhs => rw [← List.take_append_drop i out, List.filter_append, hbehind, List.append_nil]
      rw [List.filter_cons_of_pos hew, hbehind, List.filter_cons_of_pos hew, List.filter_nil]
    · rw [List.filter_cons_of_neg hew, List.filter_cons_of_neg hew, ← List.filter_append, List.take_append_drop,
        List.filter_nil, List.append_nil]

theorem insertSorted_stable (hws : Preordered less ws) (hes : ∀ d ∈ es ++ [e], d.1 ∈ ws)
    (h : SortsStably (atMost less) ws es out) :
    ∃ out', insertSorted less out e = .ok out' ∧ SortsStably (atMost less) ws (es ++ [e]) out' := by
  have hout : ∀ d ∈ out, d.1 ∈ ws := fun d hd => hes d (List.mem_append_left _ (h.perm.mem_iff.mp hd))
  obtain ⟨i, hplace, hi⟩ := placeOf_surrounds hws hout (hes e (by simp)) h.sorted out.length
    (.start _ out e.1) (Nat.sub_le _ _)
  refine ⟨_, ?_, h.insert hws hes hi⟩
  rw [insertSorted, hplace, ok_bind, pure_eq_ok]

theorem foldlM_insertSorted_stable (hws : Preordered less ws) (hes : ∀ d ∈ es ++ fs, d.1 ∈ ws)
    (h : SortsStably (atMost less) ws es out) :
    ∃ out', fs.foldlM (insertSorted less) out = .ok out' ∧ SortsStably (atMost less) ws (es ++ fs) out' := by
  induction fs generalizing es out with
  | nil => exact ⟨out, rfl, by rwa [List.append_nil]⟩
  | cons f fs ih =>
    rw [List.append_cons] at hes ⊢
    obtain ⟨out', hinsert, hout'⟩ := insertSorted_stable hws (fun d hd => hes d (List.mem_append_left _ hd)) h
    rw [List.foldlM_cons, hinsert, ok_bind]
    exact ih hes hout'

/-! ## The run at the front -/

/-- The items of a run, the last first: each is less than all before it, or none is less than one before it. -/
def IsRun (less : Value → Value → Except Fault Bool) (descending : Bool) (run : List Keyed) : Prop :=
  run.Pairwise fun d e => atMost less e.1 d.1 = !descending

section

variable (hws : Preordered less ws)
include hws

theorem IsRun.cons {descending : Bool} {run : List Keyed} {x : Keyed} (hrun : IsRun less descending (e :: run))
    (hes : ∀ d ∈ x :: e :: run, d.1 ∈ ws) (hx : atMost less e.1 x.1 = !descending) :
    IsRun less descending (x :: e :: run) := by
  obtain ⟨hxmem, hemem, hrunmem⟩ : x.1 ∈ ws ∧ e.1 ∈ ws ∧ ∀ d ∈ run, d.1 ∈ ws := by simpa using hes
  refine List.pairwise_cons.mpr ⟨fun d hd => ?_, hrun⟩
  obtain rfl | hd := List.mem_cons.mp hd
  · exact hx
  · have hde := (List.pairwise_cons.mp hrun).1 d hd
    have hdmem := hrunmem d hd
    cases descending with
    | false => exact hws.trans _ hdmem _ hemem _ hxmem hde hx
    | true =>
      have hxe := hws.of_not_atMost hemem hxmem hx
      by_contra hdx
      rw [hws.trans _ hdmem _ hxmem _ hemem (by simpa using hdx) hxe] at hde
      cases hde

theorem leadingRun_isRun {descending : Bool} {run : List Keyed} (xs : List Keyed)
    (hrun : IsRun less descending (e :: run)) (hes : ∀ d ∈ run.reverse ++ e :: xs, d.1 ∈ ws) :
    ∃ run' rest, leadingRun less descending run e xs = .ok (run', rest) ∧ IsRun less descending run' ∧
      run'.reverse ++ rest = run.reverse ++ e :: xs := by
  induction xs generalizing run e with
  | nil => exact ⟨e :: run, [], rfl, hrun, by simp⟩
  | cons x xs ih =>
    unfold leadingRun
    rw [hws.less_eq (hes x (by simp)) (hes e (by simp)), ok_bind]
    by_cases hx : (!atMost less e.1 x.1) = descending
    · have hcons : IsRun less descending (x :: e :: run) := by
        refine hrun.cons hws (fun d hd => hes d ?_) (by simp [← hx])
        simp only [List.mem_cons, List.mem_append, List.mem_reverse] at hd ⊢
        tauto
      obtain ⟨run', rest, hok, hrun', heq⟩ := ih hcons (by simpa using hes)
      rw [if_pos hx]
      exact ⟨run', rest, hok, hrun', by simpa using heq⟩
    · rw [if_neg hx]
      exact ⟨e :: run, x :: xs, rfl, hrun, by simp⟩

/-- In a descending run no two keys are equal, so turning it around moves no item past one with an equal key. -/
theorem IsRun.filter_tied {run : List Keyed} (hrun : IsRun less true run) (hes : ∀ d ∈ run, d.1 ∈ ws) (hw : w ∈ ws) :
    run.filter (tied (atMost less) w) = run.reverse.filter (tied (atMost less) w) := by
  rw [List.filter_reverse]
  have hpair : (run.filter (tied (atMost less) w)).Pairwise fun d e => atMost less e.1 d.1 = false :=
    hrun.sublist List.filter_sublist
  have hnot : ∀ d ∈ run.filter (tied (atMost less) w), ∀ e ∈ run.filter (tied (atMost less) w),
      ¬atMost less e.1 d.1 = false := by
    intro d hd e he
    obtain ⟨hd, htied⟩ := List.mem_filter.mp hd
    obtain ⟨he, htied'⟩ := List.mem_filter.mp he
    have hle := hws.trans _ (hes e he) _ hw _ (hes d hd) (Bool.and_eq_true_iff.mp htied').2
      (Bool.and_eq_true_iff.mp htied).1
    simp [hle]
  obtain hnil | ⟨d, hone⟩ := nil_or_singleton_of_pairwise hpair hnot
  · rw [hnil, List.reverse_nil]
  · rw [hone, List.reverse_singleton]

theorem IsRun.sortsStably {descending : Bool} {run : List Keyed} (hrun : IsRun less descending run)
    (hes : ∀ d ∈ run, d.1 ∈ ws) :
    SortsStably (atMost less) ws run.reverse (if descending then run else run.reverse) := by
  cases descending with
  | false => exact ⟨.refl _, List.pairwise_reverse.mpr hrun, fun _ _ => rfl⟩
  | true =>
    refine ⟨(List.reverse_perm run).symm, ?_, fun w hw => hrun.filter_tied hws hes hw⟩
    exact hrun.imp_of_mem fun {d e} hd he hde => hws.of_not_atMost (hes e he) (hes d hd) hde

theorem sort_stable (hes : ∀ d ∈ es, d.1 ∈ ws) :
    ∃ out, sort less es = .ok out ∧ SortsStably (atMost less) ws es out := by
  cases es with
  | nil => exact ⟨[], rfl, .refl _, .nil, fun _ _ => rfl⟩
  | cons e es =>
    cases es with
    | nil => exact ⟨[e], rfl, .refl _, List.pairwise_singleton _ _, fun _ _ => rfl⟩
    | cons x xs =>
      have hfirst : IsRun less (!atMost less e.1 x.1) [e] := List.pairwise_singleton _ _
      obtain ⟨run, rest, hok, hrun, heq⟩ := leadingRun_isRun hws (x :: xs) hfirst hes
      rw [List.reverse_nil, List.nil_append] at heq
      have hmem : ∀ d ∈ run.reverse ++ rest, d.1 ∈ ws := by rwa [heq]
      have hstart := hrun.sortsStably hws fun d hd => hmem d (by simp [hd])
      obtain ⟨out, hfold, hout⟩ := foldlM_insertSorted_stable hws hmem hstart
      refine ⟨out, ?_, by rwa [heq] at hout⟩
      rw [sort, hws.less_eq (hes x (by simp)) (hes e (by simp)), ok_bind, hok, ok_bind]
      exact hfold

end

/-- What was sorted backwards and turned around is sorted the other way, with items of equal keys in the same order. -/
theorem SortsStably.reverse {le : Value → Value → Bool} (h : SortsStably le ws es.reverse out) :
    SortsStably (fun v w => le w v) ws es out.reverse where
  perm := (List.reverse_perm out).trans (h.perm.trans (List.reverse_perm es))
  sorted := List.pairwise_reverse.mpr h.sorted
  ties w hw := by
    have hflip : tied (fun v w => le w v) w = tied le w := funext fun e => Bool.and_comm _ _
    rw [hflip, List.filter_reverse, h.ties w hw, ← List.filter_reverse, List.reverse_reverse]

/-! ## Operators -/

variable {f : Value → Run Value} {vs : List Value} {h k : Heap} {s : Source} {g : Value}

theorem keyed_visits (hvs : Visits f never h vs ws none k) : (keyed f vs).run h = (.ok (ws.zip vs), k) := by
  unfold keyed
  rw [run_bind_ok (map_visits (held_fixed f never h vs) hvs)]
  rfl

/-- Both ways of sorting by keys that are totally preordered are stable: they rearrange the items, the keys do not go
down in one and not up in the other, and in both the items with equal keys are in the order of the source. -/
theorem orderings_stable {apply : Apply} (hv : Offers v h s vs) (hcalls : Visits (call apply g) never h vs ws none k)
    (hws : Preordered k.less ws) :
    ∃ up down : List Keyed,
      (run apply "order_by" [v, g]).run h = (newList (up.map (·.2))).run k ∧
      (run apply "order_by_descending" [v, g]).run h = (newList (down.map (·.2))).run k ∧
      (up.map (·.2)).Perm vs ∧ (down.map (·.2)).Perm vs ∧
      SortsStably (atMost k.less) ws (ws.zip vs) up ∧
      SortsStably (fun v w => atMost k.less w v) ws (ws.zip vs) down := by
  have hmem : ∀ d ∈ ws.zip vs, d.1 ∈ ws := fun d hd => (List.of_mem_zip hd).1
  obtain ⟨up, hup, hstable⟩ := sort_stable hws hmem
  obtain ⟨down, hdown, hbackwards⟩ := sort_stable hws fun d hd => hmem d (List.mem_reverse.mp hd)
  have hitems : (ws.zip vs).map (·.2) = vs := List.map_snd_zip hcalls.length_eq.ge
  refine ⟨up, down.reverse, ?_, ?_, ?_, ?_, hstable, hbackwards.reverse⟩
  · refine (run_bind_ok hv.run_items _).trans (run_bind_ok ?_ _)
    unfold orderBy
    rw [run_bind_ok (keyed_visits hcalls), run_bind_ok (run_get k), run_bind_ok (by rw [hup, run_ofResult])]
    rfl
  · refine (run_bind_ok hv.run_items _).trans (run_bind_ok ?_ _)
    unfold orderByDescending
    rw [run_bind_ok (keyed_visits hcalls), run_bind_ok (run_get k), run_bind_ok (by rw [hdown, run_ofResult])]
    rfl
  · rw [← hitems]
    exact hstable.perm.map _
  · rw [← hitems]
    exact hbackwards.reverse.perm.map _

theorem less_int (h : Heap) (m n : Int) : h.less (.int m) (.int n) = .ok (decide (m < n)) := by
  unfold Heap.less
  rw [order_int (.inl rfl) n h, ok_bind]
  simp [compare_lt_iff_lt]

theorem preordered_int (h : Heap) (hws : ∀ w ∈ ws, ∃ n, w = .int n) : Preordered h.less ws := by
  have hle (m n : Int) : atMost h.less (.int m) (.int n) = true ↔ m ≤ n := by
    simp [atMost, less_int]
  refine ⟨fun v hv w hw => ?_, fun v hv w hw => ?_, fun u hu v hv w hw => ?_⟩
  · obtain ⟨m, rfl⟩ := hws v hv
    obtain ⟨n, rfl⟩ := hws w hw
    exact ⟨_, less_int h m n⟩
  · obtain ⟨m, rfl⟩ := hws v hv
    obtain ⟨n, rfl⟩ := hws w hw
    rw [hle, hle]
    exact le_total m n
  · obtain ⟨l, rfl⟩ := hws u hu
    obtain ⟨m, rfl⟩ := hws v hv
    obtain ⟨n, rfl⟩ := hws w hw
    rw [hle, hle, hle]
    exact le_trans

theorem newList_inj {us : List Value} (heq : (newList us).run h = (newList vs).run h) : us = vs := by
  have hadd : (h.add (.list us)).2 = (h.add (.list vs)).2 := congrArg (fun r => r.2) heq
  have hlist := list?_newList h us
  rw [hadd] at hlist
  exact Option.some.inj (hlist.symm.trans (list?_newList h vs))

def item : Parameter := ⟨1, .int, some "x"⟩

/-- A list of odd and even numbers, a function that tells which they are, and a scope for each of its calls. -/
def parities (seen : List Value) : Heap :=
  ⟨(.list [.int 3, .int 4, .int 5, .int 8] ::
    .function [item]
      (.binary (.binary (.operation (.arithmetic .modulo))) (.parameter item) (.constant (.int 2) .int) .int) [] ::
    seen.map fun v => .scope [(1, v)]).toArray⟩

/-- Odd numbers come behind even ones or in front of them, but three before five in both orders. -/
theorem orderings_stable_parities :
    let vs : List Value := [.int 3, .int 4, .int 5, .int 8]
    let ws : List Value := [.int 1, .int 0, .int 1, .int 0]
    Offers (.ref 0) (parities []) (.list 0) vs ∧
      Visits (call Sample.host.apply (.ref 1)) never (parities []) vs ws none (parities vs) ∧
      Preordered (parities vs).less ws ∧
      ∃ up down : List Keyed, up.map (·.2) = [.int 4, .int 8, .int 3, .int 5] ∧
        down.map (·.2) = [.int 3, .int 5, .int 4, .int 8] ∧
        SortsStably (atMost (parities vs).less) ws (ws.zip vs) up ∧
        SortsStably (fun v w => atMost (parities vs).less w v) ws (ws.zip vs) down := by
  intro vs ws
  have hv : Offers (.ref 0) (parities []) (.list 0) vs := ⟨rfl, rfl⟩
  have hcalls : Visits (call Sample.host.apply (.ref 1)) never (parities []) vs ws none (parities vs) :=
    .next (k := parities [.int 3]) rfl rfl (.next (k := parities [.int 3, .int 4]) rfl rfl
      (.next (k := parities [.int 3, .int 4, .int 5]) rfl rfl (.next (k := parities vs) rfl rfl (.nil _))))
  have hws : Preordered (parities vs).less ws := preordered_int _ (by simp [ws])
  obtain ⟨up, down, hup, hdown, -, -, hstable, hbackwards⟩ := orderings_stable hv hcalls hws
  exact ⟨hv, hcalls, hws, up, down, newList_inj (hup.symm.trans rfl), newList_inj (hdown.symm.trans rfl), hstable,
    hbackwards⟩

end ExprTree.Query
