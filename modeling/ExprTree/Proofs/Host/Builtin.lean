import ExprTree.Host.Builtin
import ExprTree.Proofs.Host.Query

/-!
# Built-in methods are uniform

Methods of texts, dictionaries and integers only read the heap. A method of a
list also changes it in place, where the list is in both heaps.
-/

namespace ExprTree.Builtin

open Run Query

variable {L : Likeness}

/-! ## Texts -/

theorem text_uniform (v : Value) : L.Uniform (text v) := by
  unfold text
  split
  · exact .pure _
  · exact .host _

theorem strippable_uniform (args : List Value) : L.Uniform (strippable args) := by
  unfold strippable
  split
  · next v _ => exact (text_uniform v).bind fun _ => .pure _
  · exact .pure _

theorem texts_uniform (vs : List Value) : L.Uniform (texts vs) := by
  induction vs with
  | nil => exact .pure []
  | cons v vs ih => exact (text_uniform v).bind fun _ => ih.bind fun _ => .pure _

theorem narrowBytes_uniform (size : Nat) (errors : String) :
    ∀ cs, L.Uniform (narrowBytes size errors cs)
  | [] => .pure []
  | _ :: cs =>
    have hrest := narrowBytes_uniform size errors cs
    .ite (hrest.bind fun _ => .pure _) (.ite hrest (.ite (hrest.bind fun _ => .pure _) (.host _)))

theorem encode_uniform (s encoding errors : String) : L.Uniform (encode s encoding errors) :=
  have hbytes (size : Nat) := (narrowBytes_uniform size errors s.toList).bind fun bs => .pure (Value.bytes bs)
  .ite (.pure _) (.ite (hbytes _) (.ite (hbytes _) (.host _)))

theorem separator_uniform (sep : Option Value) : L.Uniform (sep.mapM text) := by
  cases sep with
  | none => exact .pure none
  | some v => exact (text_uniform v).bind fun _ => .pure _

theorem ofText_uniform (name s : String) (args : List Value) : L.Uniform (ofText name s args) := by
  unfold ofText
  split
  case h_1 | h_2 | h_3 | h_4 | h_5 | h_6 => exact .pure _
  case h_7 | h_8 | h_9 | h_10 => exact (strippable_uniform _).bind fun _ => .pure _
  case h_11 old new rest =>
    refine (text_uniform old).bind fun _ => (text_uniform new).bind fun _ => ?_
    split
    · exact .pure _
    · next n => exact (index_uniform n).bind fun _ => .pure _
    · exact .host _
  case h_12 before => exact (text_uniform before).bind fun _ => .pure _
  case h_13 width => exact (index_uniform width).bind fun _ => .pure _
  case h_14 =>
    refine .ite (.host _) ((separator_uniform _).bind fun sep => ?_)
    match args.drop 1 with
    | [n] => exact (index_uniform n).bind fun _ => .ite (.host _) (.newList _)
    | [] | _ :: _ :: _ => exact Likeness.RelatedWhile.bind (.pure (-1)) fun _ => .ite (.host _) (.newList _)
  case h_15 source => exact (items_uniform source).bind fun vs => (texts_uniform vs).bind fun _ => .pure _
  case h_16 => exact encode_uniform s _ _
  case h_17 e => exact (text_uniform e).bind fun e => encode_uniform s e _
  case h_18 e errors => exact (text_uniform e).bind fun e => (text_uniform errors).bind fun _ => encode_uniform s e _
  case h_19 => exact .host _

/-! ## Lists -/

theorem indexOf_congr {h h' : Heap} (hh : h.LooksLike h') (w : Value) (i : Nat) (vs : List Value) :
    indexOf h w i vs = indexOf h' w i vs := by
  induction vs generalizing i with
  | nil => rfl
  | cons v vs ih => rw [indexOf, indexOf, hh.equal, ih]

theorem countEqual_congr {h h' : Heap} (hh : h.LooksLike h') (w : Value) (vs : List Value) :
    countEqual h w vs = countEqual h' w vs := by
  induction vs with
  | nil => rfl
  | cons v vs ih => rw [countEqual, countEqual, hh.equal, ih]

theorem indexOf_plain (h : Heap) (w : Value) (i : Nat) (vs : List Value) : Plain (indexOf h w i vs) := by
  induction vs generalizing i with
  | nil => exact .ok _
  | cons v vs ih => exact .bind (h.equal_plain v w) fun _ => .ite (.ok _) (ih _)

theorem countEqual_plain (h : Heap) (w : Value) (vs : List Value) : Plain (countEqual h w vs) := by
  induction vs with
  | nil => exact .ok _
  | cons v vs ih => exact .bind (h.equal_plain v w) fun _ => .bind ih fun _ => .ok _

theorem position_uniform (vs : List Value) (v : Value) (start stop : Nat) :
    L.Uniform (position vs v start stop) := by
  unfold position
  refine .get fun h h' hh => ?_
  rw [indexOf_congr hh]
  refine .bind (.ofResult (indexOf_plain h' v start _)) fun i => ?_
  cases i with
  | none => exact .host _
  | some i => exact .pure _

theorem change_related (a : Nat) (vs : List Value) : L.RelatedWhile (Unbound a) (change a vs) (change a vs) :=
  (Likeness.RelatedWhile.setCell a (.list _) trivial).bind fun _ => .pure _

theorem pop_related (a : Nat) (vs : List Value) (i : Int) : L.RelatedWhile (Unbound a) (pop a vs i) (pop a vs i) := by
  unfold pop
  dsimp only
  split
  · exact (Likeness.RelatedWhile.setCell a (.list _) trivial).bind fun _ => .pure _
  · exact .host _

theorem ofList_related (name : String) (a : Nat) (vs args : List Value) :
    L.RelatedWhile (Unbound a) (ofList name a vs args) (ofList name a vs args) := by
  unfold ofList
  split
  case h_1 | h_2 | h_3 => exact change_related a _
  case h_4 v =>
    refine .get fun h h' hh => ?_
    rw [countEqual_congr hh]
    exact .bind (.ofResult (countEqual_plain h' v vs)) fun _ => .pure _
  case h_5 => exact .ite (.host _) (pop_related a vs (-1))
  case h_6 i => exact (index_uniform i).within.bind fun i => pop_related a vs i
  case h_7 v => exact (position_uniform vs v _ _).within
  case h_8 v start => exact ((index_uniform start).bind fun _ => position_uniform vs v _ _).within
  case h_9 v start stop =>
    exact ((index_uniform start).bind fun _ => (index_uniform stop).bind fun _ => position_uniform vs v _ _).within
  case h_10 =>
    refine .get fun h h' hh => ?_
    rw [hh.less]
    exact .bind (.ofResult (sort_plain h'.less_plain _)) fun _ => change_related a _
  case h_11 source => exact (items_uniform source).within.bind fun _ => change_related a _
  case h_12 i v => exact (index_uniform i).within.bind fun _ => change_related a _
  case h_13 => exact .host _

/-! ## All classes -/

theorem ofDict_uniform (name : String) (a : Nat) (es : List (Value × Value)) (args : List Value) :
    L.Uniform (ofDict name a es args) := by
  unfold ofDict
  split
  · next k rest =>
    refine (requireKey_uniform k).bind fun _ => ?_
    split
    · exact .pure _
    · exact .pure _
    · exact .host _
  · exact .pure _
  · exact .host _

theorem ofInt_uniform (name : String) (n : Int) (args : List Value) : L.Uniform (ofInt name n args) := by
  unfold ofInt
  split
  · exact .pure _
  · exact .pure _
  · exact .host _

theorem invoke_uniform (c : ClassName) (name : String) (values : List Value) : L.Uniform (invoke c name values) := by
  cases values with
  | nil => exact .host _
  | cons target args =>
    unfold invoke
    refine fun h h' hh _ => .get ?_
    rw [(L.looks hh).list?, (L.looks hh).dict?]
    split
    · exact ofText_uniform name _ args h h' hh trivial
    · exact ofText_uniform name _ args h h' hh trivial
    · exact ofInt_uniform name _ args h h' hh trivial
    · exact ofInt_uniform name _ args h h' hh trivial
    · split
      -- where a list is, nothing is bound, so it may be replaced
      · next vs hvs => exact ofList_related name _ vs args h h' hh (unbound_of_list? (L.looks hh) hvs)
      · exact .throw hh (L.plain rfl)
    · split
      · next es hes => exact ofDict_uniform name _ es args h h' hh trivial
      · exact .throw hh (L.plain rfl)
    · exact .throw hh (L.plain rfl)

end ExprTree.Builtin
