import ExprTree.Host.Sample
import ExprTree.Proofs.Eval.Binding
import ExprTree.Proofs.Host.Builtin

/-!
# The sample host is uniform

Its classes read and write attributes of objects, and their methods call only
each other, the operators and the functions they are given.
-/

namespace ExprTree.Sample

open Run

variable {L : Likeness} {h h' : Heap}

/-! ## Attributes -/

theorem attributes?_blind (h : Heap) (v : Value) : attributes? h.blind v = attributes? h v := by
  unfold attributes?
  split
  · next a =>
    rw [Heap.get?_blind]
    rcases h.get? a with _ | c
    · rfl
    · cases c <;> rfl
  · rfl

theorem attributes?_congr (hh : h.LooksLike h') : attributes? h = attributes? h' :=
  funext fun v => hh.read (attributes? · v) fun k => attributes?_blind k v

theorem unbound_of_attributes? (hh : h.LooksLike h') {v : Value} {a : Nat} {c : ClassName} {as : List (String × Value)}
    (hv : attributes? h' v = some (a, c, as)) : Unbound a h h' := by
  unfold attributes? at hv
  split at hv
  · split at hv
    · next hc =>
      obtain ⟨rfl, rfl, rfl⟩ := hv
      exact unbound_of_get? hh hc trivial
    · cases hv
  · cases hv

theorem readAttribute_uniform (target : Value) (name : String) : L.Uniform (readAttribute target name) := by
  unfold readAttribute
  refine .get fun h h' hh => ?_
  rw [attributes?_congr hh]
  split
  · split
    · exact .pure _
    · exact .host _
  · exact .host _

theorem writeAttribute_uniform (target : Value) (name : String) (v : Value) :
    L.Uniform (writeAttribute target name v) := by
  unfold writeAttribute
  refine fun h h' hh _ => .get ?_
  rw [attributes?_congr (L.looks hh)]
  split
  · next a c as hv =>
    split
    · exact Likeness.RelatedWhile.setCell a (.object c (put name v as)) trivial h h' hh (unbound_of_attributes? (L.looks hh) hv)
    · exact .throw hh (L.plain rfl)
  · exact .throw hh (L.plain rfl)

/-! ## Properties -/

theorem computed_uniform {c : ClassName} {name n : String} {f : Value → Run Value} (hf : computed? c name = some (n, f))
    (v : Value) : L.Uniform (f v) := by
  unfold computed? at hf
  split at hf
  · obtain ⟨rfl, rfl⟩ := hf
    exact (ordered_uniform _ _ _).bind fun _ => .pure _
  · split at hf
    · obtain ⟨rfl, rfl⟩ := hf
      exact operate_uniform _ _ _ _
    · split at hf
      · obtain ⟨rfl, rfl⟩ := hf
        exact .newList _
      · cases hf

theorem readThrough_uniform (depth : Nat) (target : Value) (name : String) :
    L.Uniform (readThrough depth target name) := by
  -- a property leads to the property of another name, which is read with less depth
  induction depth generalizing target name with
  | zero => exact .host _
  | succ depth ih =>
    unfold readThrough
    refine .get fun h h' hh => ?_
    rw [attributes?_congr hh]
    split
    · exact .host _
    · split
      · exact readAttribute_uniform _ _
      · refine .ite (.host _) (.ite (.pure _) ?_)
        split
        · exact ih _ _
        · next hf => exact (ih _ _).bind (computed_uniform hf)
        · exact .host _

theorem writeThrough_uniform (depth : Nat) (target : Value) (name : String) (v : Value) :
    L.Uniform (writeThrough depth target name v) := by
  induction depth generalizing target name with
  | zero => exact .host _
  | succ depth ih =>
    unfold writeThrough
    refine .get fun h h' hh => ?_
    rw [attributes?_congr hh]
    split
    · exact .host _
    · split
      · exact writeAttribute_uniform _ _ _
      · split
        · exact ih _ _
        · exact .host _

theorem readField_uniform (target : Value) (name : String) : L.Uniform (readField target name) :=
  readThrough_uniform _ _ _

theorem writeField_uniform (target : Value) (name : String) (v : Value) : L.Uniform (writeField target name v) :=
  writeThrough_uniform _ _ _ _

theorem readProperty_uniform (c : ClassName) (name : String) (target : Value) :
    L.Uniform (readProperty c name target) := by
  unfold readProperty
  refine .ite (.pure _) ?_
  split
  · exact readField_uniform _ _
  · next hf => exact (readField_uniform _ _).bind (computed_uniform hf)
  · exact .host _

theorem writeProperty_uniform (c : ClassName) (name : String) (target v : Value) :
    L.Uniform (writeProperty c name target v) := by
  unfold writeProperty
  split
  · exact writeField_uniform _ _ _
  · exact .host _

/-! ## Methods -/

theorem setUp_uniform (c : ClassName) (target : Value) (arguments : List Value) :
    L.Uniform (setUp c target arguments) := by
  unfold setUp
  split
  · exact .host _
  · have hwrite (cs : List (String × Value)) : L.Uniform (forIn cs PUnit.unit fun c _ => do
        writeField target c.1 c.2
        pure (ForInStep.yield PUnit.unit)) :=
      .forIn cs _ fun c _ => (writeField_uniform target c.1 c.2).bind fun _ => .pure _
    exact .ite (.host _) ((hwrite _).bind fun _ => (hwrite (extras c)).bind fun _ => .pure _)

theorem make_uniform (c : ClassName) (arguments : List Value) : L.Uniform (make c arguments) := by
  refine Likeness.RelatedWhile.bind (.alloc trivial) fun target => ?_
  exact (setUp_uniform c target arguments).bind fun _ => .pure target

theorem plus_uniform (v w : Value) : L.Uniform (operate (.arithmetic .add) .object v w) :=
  operate_uniform _ _ v w

theorem sumFrom_uniform (start : Value) (vs : List Value) : L.Uniform (sumFrom start vs) :=
  .foldlM vs start plus_uniform

theorem times_uniform (v w : Value) : L.Uniform (times v w) :=
  operate_uniform _ _ v w

theorem addTo_uniform (target : Value) (name : String) (amount : Value) : L.Uniform (addTo target name amount) :=
  (readField_uniform target name).bind fun _ => (plus_uniform _ amount).bind fun _ =>
    (writeField_uniform target name _).bind fun _ => readField_uniform target name

variable {apply apply' : Apply} (happly : L.Applies apply apply')

include happly

open Query (one_related two_related oneAnd_related TablesRelated)

theorem counterMethods_related : TablesRelated L (counterMethods apply) (counterMethods apply') := by
  refine .cons (two_related fun target amount => addTo_uniform target _ amount) <|
    .cons (one_related fun target => (writeField_uniform target _ _).bind fun _ => .pure _) <|
    .cons (one_related fun v => times_uniform v _) <| .cons (one_related fun total => make_uniform counter [total]) <|
    .cons (two_related fun items selector => ?pick) <|
    .cons (two_related fun target v => ?wrap) <| .cons (oneAnd_related fun v _ => times_uniform v _) <|
    .cons (one_related .pure) <| .cons (two_related fun a b => .newList [a, b]) <|
    .cons ?variadic <| .cons (one_related fun _ => .pure _) .nil
  case pick => exact Query.listed_related items (Query.map_related fun v => happly selector [v])
  case wrap =>
    exact (Likeness.RelatedWhile.newList [v]).bind fun vs => (readField_uniform target _).bind fun n => times_uniform vs n
  case variadic =>
    rintro (_ | ⟨_, _ | ⟨first, rest⟩⟩)
    · exact .host _
    · exact .host _
    · exact (sumFrom_uniform _ rest).bind fun _ => plus_uniform first _

theorem methods_related (c : ClassName) : TablesRelated L (methods apply c) (methods apply' c) := by
  refine .ite (.cons (one_related fun _ => .pure _) .nil) <| .ite (.cons (one_related fun _ => .pure _) .nil) <|
    .ite ?account <| .ite (counterMethods_related happly) <| .ite ?labelled <| .ite ?thermostat <| .ite ?greeter <|
    .ite ?pair <| .ite (.cons (two_related fun _ factor => .pure factor) .nil) <|
    .ite (.cons (one_related .pure) .nil) <| .ite ?inner <|
    .ite (.cons (one_related fun target => readField_uniform target _) .nil) <|
    .ite (.cons (fun values => .ite (.pure _) (.host _)) .nil) .nil
  case account =>
    refine .cons (two_related fun target amount => addTo_uniform target _ amount) <|
      .cons (one_related fun amount => .ofResult (Arithmetic.onNumbers_plain Number.floorDiv_plain amount _)) <|
      .cons (one_related fun balance => make_uniform account [balance]) .nil
  case labelled =>
    exact .cons (two_related fun target amount => (times_uniform _ amount).bind fun _ => addTo_uniform target _ _) .nil
  case thermostat =>
    exact .cons (two_related fun target v => (writeField_uniform target _ v).bind fun _ => .pure _) .nil
  case greeter =>
    exact .cons (two_related fun target who => (readField_uniform target _).bind fun _ => plus_uniform _ who) .nil
  case pair =>
    refine .cons (one_related fun target => readField_uniform target _) <| .cons (one_related fun target => ?_) <|
      .cons (one_related fun v => .newList [v]) .nil
    exact (readField_uniform target _).bind fun _ => (readField_uniform target _).bind fun _ => make_uniform pair _
  case inner =>
    refine .cons (one_related fun target => ?_) .nil
    exact (readField_uniform target _).bind fun _ => (plus_uniform _ _).bind fun _ => make_uniform inner _

theorem invoke_related (c : ClassName) (name : String) (values : List Value) :
    L.Related (invoke apply c name values) (invoke apply' c name values) := by
  unfold invoke
  refine .ite ?_ (Query.runIn_related (methods_related happly c) name values)
  cases values with
  | nil => exact .host _
  | cons target arguments => exact setUp_uniform c target arguments

omit happly in
/-- The classes of the sample host, the operators and the built-in methods tell functions apart only by calling them. -/
theorem host_isUniform : host.IsUniform where
  invoke happly _ values :=
    .ite (Builtin.invoke_uniform _ _ values)
      (.ite (Query.run_related happly _ values) (invoke_related happly _ _ values))
  readField := readField_uniform
  writeField := writeField_uniform
  readProperty := readProperty_uniform
  writeProperty := writeProperty_uniform

omit happly in
theorem host_isBlind : host.IsBlind :=
  host_isUniform.isBlind

omit happly in
theorem host_isSafe : host.IsSafe :=
  host_isUniform.isSafe

end ExprTree.Sample
