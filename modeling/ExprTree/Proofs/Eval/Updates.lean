import ExprTree.Host.Sample
import ExprTree.Proofs.Node.Building
import ExprTree.Proofs.Ty.Congruence

/-!
# Updates

A compound assignment and a step by one run alike: they evaluate their target,
change the value, and assign to the target. A target that is a member is
therefore looked for twice, once to read and once to write; that is what an
assignment of the operation to the target does too.
-/

namespace ExprTree

namespace Run

/-- Does a run leave the heap as it is? -/
def ReadsOnly {α : Type} (x : Run α) : Prop :=
  ∀ h, (x.run h).2 = h

namespace ReadsOnly

variable {α β : Type} {x : Run α}

theorem eq (hx : x.ReadsOnly) {h k : Heap} {r : Except Fault α} (hrun : x.run h = (r, k)) : k = h := by
  rw [← hx h, hrun]

theorem pure (a : α) : ReadsOnly (Pure.pure a : Run α) := fun _ => rfl

theorem throw (f : Fault) : ReadsOnly (MonadExcept.throw f : Run α) := fun _ => rfl

theorem ofResult (r : Except Fault α) : (Run.ofResult r).ReadsOnly := by
  cases r <;> exact fun _ => rfl

theorem bind {f : α → Run β} (hx : x.ReadsOnly) (hf : ∀ a, (f a).ReadsOnly) : ReadsOnly (x >>= f) := by
  intro h
  rcases hrun : x.run h with ⟨e | a, k⟩
  · rw [Action.run_bind_error hrun, hx.eq hrun]
  · rw [Action.run_bind_ok hrun, hf a k, hx.eq hrun]

theorem get {f : Heap → Run α} (hf : ∀ h, (f h).ReadsOnly) : ReadsOnly (MonadState.get >>= f) :=
  bind (fun _ => rfl) hf

theorem readParameter (frame : Frame) (p : Parameter) : (Run.readParameter frame p).ReadsOnly := by
  refine .get fun h => ?_
  split
  · exact .pure _
  · exact .throw _

end ReadsOnly

end Run

/-- A compound assignment with its operand, or a step. -/
inductive Update where
  | compound (o : Operation) (operand : Node)
  | step (k : StepKind)

namespace Node

open Run

/-- The node that updates a target. -/
def update (target : Node) (t : Ty) : Update → Node
  | .compound o operand => .binary (.binary (.compound o)) target operand t
  | .step k => .unary (.unary (.step k)) target t

variable (host : Host) (apply : Apply) (frame : Frame)

/-- What an update makes of the value its target has: what it writes, and what it yields. -/
def change (target t : Ty) (old : Value) : Update → Run (Value × Value)
  | .compound o operand => do
    let v ← operate o t old (← eval host apply frame operand)
    return (v, v)
  | .step k => do
    let v ← unaryValue host.library (.step k) target t old
    return (v, if k.yieldsOld then old else v)

theorem eval_update (target : Node) (t : Ty) (u : Update) :
    eval host apply frame (target.update t u) = do
      let old ← eval host apply frame target
      let r ← change host apply frame target.type t old u
      assign host apply frame target r.1
      return r.2 := by
  cases u with
  | compound o operand => simp [update, change, eval]
  | step k => simp [update, change, eval]

/-! ## Members -/

/-- The update of a member that looks for the object once. -/
def updateOnce (e : Node) (m : DataMember) (t : Ty) (u : Update) : Run Value := do
  let x ← eval host apply frame e
  let r ← change host apply frame m.type t (← host.read m x) u
  host.write m x r.1
  return r.2

/-- After the value is changed, does looking for the object again find the same one and do nothing else? -/
def FindsAgain (e : Node) (m : DataMember) (t : Ty) (u : Update) (h : Heap) : Prop :=
  ∀ x k r k', (eval host apply frame e).run h = (.ok x, k) →
    (host.read m x >>= fun old => change host apply frame m.type t old u).run k = (.ok r, k') →
      (eval host apply frame e).run k' = (.ok x, k')

/-- The update of a member as it runs: the first object found is read, and the second one written. -/
def updateTwice (e : Node) (m : DataMember) (t : Ty) (u : Update) : Run Value := do
  let x ← eval host apply frame e
  let r ← change host apply frame m.type t (← host.read m x) u
  let y ← eval host apply frame e
  host.write m y r.1
  return r.2

theorem eval_update_member (e : Node) (m : DataMember) (t : Ty) (u : Update) :
    eval host apply frame ((member e m).update t u) = updateTwice host apply frame e m t u := by
  rw [eval_update, updateTwice]
  simp [eval, assign, type]

theorem updateTwice_run (e : Node) (m : DataMember) (t : Ty) (u : Update) (h : Heap)
    (hagain : FindsAgain host apply frame e m t u h) :
    (updateTwice host apply frame e m t u).run h = (updateOnce host apply frame e m t u).run h := by
  unfold updateTwice updateOnce
  refine Action.run_bind_congr fun x k hx => ?_
  rw [← bind_assoc, ← bind_assoc]
  refine Action.run_bind_congr fun r k' hr => ?_
  rw [Action.run_bind_ok (hagain x k r k' hx hr)]

/-- A constant, a parameter, or a member of one of these that is only read. -/
inductive IsPath (host : Host) : Node → Prop where
  | constant (v : Value) (t : Ty) : IsPath host (.constant v t)
  | parameter (p : Parameter) : IsPath host (.parameter p)
  | member {e : Node} {m : DataMember} (he : IsPath host e) (hm : ∀ v, (host.read m v).ReadsOnly) :
      IsPath host (.member e m)

theorem IsPath.readsOnly {host : Host} {e : Node} (he : e.IsPath host) (apply : Apply) (frame : Frame) :
    (eval host apply frame e).ReadsOnly := by
  induction he with
  | constant v t =>
    rw [eval]
    exact .pure v
  | parameter p =>
    rw [eval]
    exact .readParameter frame p
  | member _ hm ih =>
    rw [eval]
    exact ih.bind hm

/-- A path leads to the same object again if the update changes nothing before it writes. -/
theorem IsPath.findsAgain {host : Host} {apply : Apply} {frame : Frame} {e : Node} (he : e.IsPath host) {m : DataMember}
    (hm : ∀ v, (host.read m v).ReadsOnly) {t : Ty} {u : Update}
    (hu : ∀ old, (change host apply frame m.type t old u).ReadsOnly) (h : Heap) :
    FindsAgain host apply frame e m t u h := by
  intro x i r j hx hr
  obtain rfl := (he.readsOnly apply frame).eq hx
  obtain rfl := ((hm x).bind hu).eq hr
  exact hx

theorem change_step_readsOnly (target t : Ty) (old : Value) (k : StepKind) :
    (change host apply frame target t old (.step k)).ReadsOnly :=
  ReadsOnly.bind (.ofResult _) fun _ => .pure _

/-- The object of a member is looked for twice, before it is read and again before it is written. That makes no
difference where the second search finds the same object and does nothing else. -/
theorem update_member (e : Node) (m : DataMember) (t : Ty) (u : Update) :
    eval host apply frame ((member e m).update t u) = updateTwice host apply frame e m t u ∧
      ∀ h, FindsAgain host apply frame e m t u h →
        (eval host apply frame ((member e m).update t u)).run h = (updateOnce host apply frame e m t u).run h := by
  rw [eval_update_member]
  exact ⟨rfl, fun h => updateTwice_run host apply frame e m t u h⟩

theorem readsOnly_sample {name : String} (hstored : ∀ c, Sample.storedAs c name = none)
    (hcomputed : ∀ c, Sample.computed? c name = none) (target : Value) : (Sample.readField target name).ReadsOnly := by
  have hattribute : (Sample.readAttribute target name).ReadsOnly := by
    refine .get fun h => ?_
    split
    · split
      · exact .pure _
      · exact .throw _
    · exact .throw _
  refine .get fun h => ?_
  split
  · exact .throw _
  · split
    · exact hattribute
    · rw [hstored, hcomputed]
      split
      · exact .throw _
      · split
        · exact .pure _
        · exact .throw _

/-- The number that a counter is at. -/
def totalField : DataMember := ⟨Sample.counter, "total", .int, .field⟩

/-- The number of the counter that a parameter holds. -/
def totalOf : Node := .member (.parameter ⟨0, .cls Sample.counter, some "counter"⟩) totalField

def counterAt (n : Int) : Cell :=
  .object Sample.counter [("total", .int n), ("label", .str "")]

/-- A counter, and a scope for the parameter. -/
def totalAt (n : Int) : Heap :=
  ⟨#[.scope [(0, .ref 1)], counterAt n]⟩

theorem update_member_total :
    (eval Sample.host Sample.host.apply [0] (totalOf.update .int (.step ⟨true, true⟩))).run (totalAt 5) =
      (.ok (.int 5), totalAt 6) := by
  have hread (v : Value) : (Sample.host.read totalField v).ReadsOnly :=
    readsOnly_sample (fun _ => by simp [Sample.storedAs, totalField]) (fun _ => by simp [Sample.computed?, totalField]) v
  obtain ⟨-, honce⟩ := update_member Sample.host Sample.host.apply [0]
    (.parameter ⟨0, .cls Sample.counter, some "counter"⟩) totalField .int (.step ⟨true, true⟩)
  have hagain := (IsPath.parameter ⟨0, .cls Sample.counter, some "counter"⟩).findsAgain hread
    (fun old => change_step_readsOnly Sample.host Sample.host.apply [0] .int .int old ⟨true, true⟩) (totalAt 5)
  exact (honce (totalAt 5) hagain).trans rfl

def oneCounter : Parameter := ⟨0, .cls Sample.counter, some "one"⟩
def otherCounter : Parameter := ⟨1, .cls Sample.counter, some "other"⟩
def searches : Parameter := ⟨2, .int, some "searches"⟩

/-- An instance that counts how often it is looked for, and is another one after the first time. -/
def alternating : Node :=
  .conditional
    (.binary (.binary .equal)
      (.binary (.binary (.compound (.arithmetic .add))) (.parameter searches) (.constant (.int 1) .int) .int)
      (.constant (.int 1) .int) .bool)
    (.parameter oneCounter) (.parameter otherCounter)

/-- Two counters, and a scope for the parameters. -/
def totalsAt (i j n : Int) : Heap :=
  ⟨#[counterAt i, counterAt j, .scope [(0, .ref 0), (1, .ref 1), (2, .int n)]]⟩

theorem update_member_alternating :
    mkBinary Sample.library (.binary (.compound (.arithmetic .add))) (member alternating totalField)
        (.constant (.int 10) .int) =
      .ok ((member alternating totalField).update .int (.compound (.arithmetic .add) (.constant (.int 10) .int))) ∧
    (eval Sample.host Sample.host.apply [2]
        ((member alternating totalField).update .int (.compound (.arithmetic .add) (.constant (.int 10) .int)))).run
        (totalsAt 5 7 0) = (.ok (.int 15), totalsAt 5 15 2) ∧
      (updateOnce Sample.host Sample.host.apply [2] alternating totalField .int
        (.compound (.arithmetic .add) (.constant (.int 10) .int))).run (totalsAt 5 7 0) =
          (.ok (.int 15), totalsAt 15 7 1) ∧
      (eval Sample.host Sample.host.apply [2] ((member alternating totalField).update .int (.step ⟨true, false⟩))).run
        (totalsAt 5 7 0) = (.ok (.int 6), totalsAt 5 6 2) :=
  ⟨rfl, rfl, rfl, rfl⟩

/-! ## Expansions -/

/-- May one node stand for another, whatever is around it and on whatever host it runs? -/
structure Interchangeable (m n : Node) : Prop where
  type : m.type.equivalent n.type = true
  check : ∀ scope, m.check scope = n.check scope
  eval : ∀ host apply frame, eval host apply frame m = eval host apply frame n

theorem mkBinary_assign {l : Library} {target value : Node} (htarget : requireWritable target = .ok ())
    (htype : value.type = target.type) :
    mkBinary l (.binary .assign) target value = .ok (.binary (.binary .assign) target value target.type) := by
  have haccepts : l.accepts target.type target.type = true := Ty.accepts_of_equivalent _ (Ty.equivalent_refl _)
  refine mkBinary_eq_ok.mpr ⟨.assign, target.type, rfl, ?_, rfl⟩
  simp [binaryType, htarget, htype, haccepts]

/-- A compound assignment is accepted where its target can be written and the operation is defined. -/
theorem mkBinary_compound {l : Library} {o : Operation} {target operand n : Node}
    (hn : mkBinary l (.binary (.compound o)) target operand = .ok n) :
    requireWritable target = .ok () ∧ (∀ k, operationType k o target.type operand.type = .ok target.type) ∧
      n = target.update target.type (.compound o operand) := by
  obtain ⟨b, t, ⟨⟩, htype, rfl⟩ := mkBinary_eq_ok.mp hn
  obtain ⟨⟨⟩, hwritable, htype⟩ := bind_eq_ok.mp htype
  obtain ⟨result, hresult, htype⟩ := bind_eq_ok.mp htype
  obtain ⟨-, rfl⟩ := of_ite_eq_ok htype
  obtain ⟨hdefined, rfl⟩ := operationType_eq_ok.mp hresult
  exact ⟨hwritable, fun k => operationType_eq_ok.mpr ⟨hdefined, rfl⟩, rfl⟩

theorem mkBinary_expand {l : Library} {o : Operation} {target operand n : Node}
    (hn : mkBinary l (.binary (.compound o)) target operand = .ok n) :
    ∃ value a, mkBinary l (.binary (.operation o)) target operand = .ok value ∧
      mkBinary l (.binary .assign) target value = .ok a ∧ Interchangeable n a := by
  obtain ⟨hwritable, htype, rfl⟩ := mkBinary_compound hn
  refine ⟨_, _, mkBinary_eq_ok.mpr ⟨_, target.type, rfl, htype _, rfl⟩, mkBinary_assign hwritable rfl, ?_⟩
  constructor
  · simp [update, type]
  · intro scope
    simp [update, Node.check, bind_assoc]
  · intro host apply frame
    simp [update, Node.eval]

/-- The operator whose value a step writes. -/
def stepOperator (increments : Bool) : UnaryKind :=
  if increments then .increment else .decrement

theorem stepOperator_ne_convert (increments checked : Bool) : stepOperator increments ≠ .convert checked := by
  cases increments <;> simp [stepOperator]

/-- A step is accepted where its target can be written and the operator is accepted. -/
theorem mkUnary_step {k : StepKind} {target n : Node} {type : Option Ty}
    (hn : mkUnary (.unary (.step k)) target type = .ok n) :
    requireWritable target = .ok () ∧
      (∀ yieldsOld, mkUnary (.unary (.step ⟨k.increments, yieldsOld⟩)) target type =
        .ok (target.update target.type (.step ⟨k.increments, yieldsOld⟩))) ∧
      mkUnary (.unary (stepOperator k.increments)) target type =
        .ok (.unary (.unary (stepOperator k.increments)) target target.type) ∧
      n = target.update target.type (.step k) := by
  obtain ⟨t, htype, hgiven, rfl⟩ := (mkUnary_eq_ok (by simp)).mp hn
  obtain ⟨-, rfl⟩ : _ ∧ t = target.type := unaryType_of_ok htype
  obtain ⟨⟨⟩, hwritable, hnumeric⟩ := bind_eq_ok.mp htype
  obtain ⟨hnumeric, -⟩ := of_ite_eq_ok hnumeric
  have hstep (k : StepKind) : unaryType (.step k) target = .ok target.type := by
    simp [unaryType, hwritable, hnumeric]
  have hoperator : unaryType (stepOperator k.increments) target = .ok target.type := by
    unfold stepOperator
    split <;> simp [unaryType, hnumeric]
  refine ⟨hwritable, fun yieldsOld => ?_, ?_, rfl⟩
  · exact (mkUnary_eq_ok (by simp)).mpr ⟨_, hstep _, hgiven, rfl⟩
  · exact (mkUnary_eq_ok (stepOperator_ne_convert _)).mpr ⟨_, hoperator, hgiven, rfl⟩

theorem mkUnary_expand (l : Library) {increments : Bool} {target n : Node} {type : Option Ty}
    (hn : mkUnary (.unary (.step ⟨increments, false⟩)) target type = .ok n) :
    ∃ value a, mkUnary (.unary (stepOperator increments)) target type = .ok value ∧
      mkBinary l (.binary .assign) target value = .ok a ∧ Interchangeable n a := by
  obtain ⟨hwritable, -, hoperator, rfl⟩ := mkUnary_step hn
  refine ⟨_, _, hoperator, mkBinary_assign hwritable rfl, ?_⟩
  constructor
  · simp [update, Node.type]
  · intro scope
    cases increments <;> simp [update, stepOperator, Node.check]
  · intro host apply frame
    cases increments <;> simp [update, stepOperator, Node.eval, unaryValue]

/-- A step by one, with the values before and after it. -/
def stepped (increments : Bool) (target : Node) : Run (Value × Value) := do
  let old ← eval host apply frame target
  let v ← ofResult (if increments then Arithmetic.increment target.type old else Arithmetic.decrement target.type old)
  assign host apply frame target v
  return (old, v)

theorem eval_step (k : StepKind) (target : Node) (t : Ty) :
    eval host apply frame (target.update t (.step k)) = do
      let r ← stepped host apply frame k.increments target
      return if k.yieldsOld then r.1 else r.2 := by
  simp [eval_update, change, stepped, unaryValue]

/-- A compound assignment is an assignment of the operation, and a step that yields the value after it is one of the
operator; a step that yields the value before it does the same. -/
theorem updates_expand (l : Library) (target : Node) :
    (∀ o operand n, mkBinary l (.binary (.compound o)) target operand = .ok n →
      ∃ value a, mkBinary l (.binary (.operation o)) target operand = .ok value ∧
        mkBinary l (.binary .assign) target value = .ok a ∧ Interchangeable n a) ∧
    ∀ k type n, mkUnary (.unary (.step k)) target type = .ok n →
      ∃ pre post value a, mkUnary (.unary (.step ⟨k.increments, false⟩)) target type = .ok pre ∧
        mkUnary (.unary (.step ⟨k.increments, true⟩)) target type = .ok post ∧
        mkUnary (.unary (stepOperator k.increments)) target type = .ok value ∧
        mkBinary l (.binary .assign) target value = .ok a ∧ Interchangeable pre a ∧
        post.type = pre.type ∧ (∀ scope, post.check scope = pre.check scope) ∧
        ∀ host apply frame,
          eval host apply frame pre = (do return (← stepped host apply frame k.increments target).2) ∧
          eval host apply frame post = (do return (← stepped host apply frame k.increments target).1) := by
  refine ⟨fun o operand n hn => mkBinary_expand hn, fun k type n hn => ?_⟩
  obtain ⟨-, haccepted, -⟩ := mkUnary_step hn
  obtain ⟨value, a, hvalue, ha, hsame⟩ := mkUnary_expand l (haccepted false)
  refine ⟨_, _, value, a, haccepted false, haccepted true, hvalue, ha, hsame, rfl, fun _ => rfl, fun host apply frame => ?_⟩
  exact ⟨eval_step host apply frame _ target _, eval_step host apply frame _ target _⟩

theorem updates_expand_total :
    (∃ n value a, mkBinary Sample.library (.binary (.compound (.arithmetic .add))) totalOf (.constant (.int 10) .int) = .ok n ∧
      mkBinary Sample.library (.binary .assign) totalOf value = .ok a ∧
      (eval Sample.host Sample.host.apply [0] a).run (totalAt 5) = (.ok (.int 15), totalAt 15)) ∧
    ∃ post value a, mkUnary (.unary (.step ⟨false, true⟩)) totalOf none = .ok post ∧
      mkBinary Sample.library (.binary .assign) totalOf value = .ok a ∧
      (eval Sample.host Sample.host.apply [0] post).run (totalAt 5) = (.ok (.int 5), totalAt 4) ∧
      (eval Sample.host Sample.host.apply [0] a).run (totalAt 5) = (.ok (.int 4), totalAt 4) := by
  obtain ⟨hcompound, hstep⟩ := updates_expand Sample.library totalOf
  constructor
  · obtain ⟨value, a, -, ha, hsame⟩ := hcompound (.arithmetic .add) (.constant (.int 10) .int) _ rfl
    exact ⟨_, value, a, rfl, ha, by rw [← hsame.eval]; rfl⟩
  · obtain ⟨pre, post, value, a, hpre, hpost, -, ha, hsame, -, -, heval⟩ := hstep ⟨false, true⟩ none _ rfl
    obtain ⟨heq, hpost'⟩ := heval Sample.host Sample.host.apply [0]
    refine ⟨post, value, a, hpost, ha, ?_, ?_⟩
    · rw [hpost']
      rfl
    · rw [← hsame.eval, heq]
      rfl

end Node

end ExprTree
