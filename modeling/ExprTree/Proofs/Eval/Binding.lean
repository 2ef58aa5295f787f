import ExprTree.Proofs.Eval.Faults
import ExprTree.Proofs.Eval.Simulation

/-!
# Runs that find their parameters

A frame covers a scope if it binds all of its numbers. A heap is scoped if
every function in it remembers a frame that covers a scope in which its body
passes the check. Scopes only ever gain bindings, so a frame that covers a scope
once covers it at every later time, after the call that opened it as well; and
from a scoped heap an expression that passed the check finds every parameter.
-/

namespace ExprTree

open Node (Scope check checkAll checkTarget)

variable {α β : Type} {h k : Heap} {frame : Frame} {scope : Scope}

/-! ## Scoped heaps -/

theorem Heap.lt_size_of_mem_keys {a number : Nat} (hn : number ∈ h.keys a) : a < h.cells.size := by
  by_cases ha : a < h.cells.size
  · exact ha
  · have hnone : h.get? a = none := by
      rw [← Option.not_isSome_iff_eq_none, Heap.isSome_get?]
      exact ha
    simp [Heap.keys, hnone] at hn

/-- Does the frame bind every number of the scope? -/
def Frame.Covers (h : Heap) (frame : Frame) (scope : Scope) : Prop :=
  ∀ number ∈ scope, ∃ a ∈ frame, number ∈ h.keys a

theorem Frame.Covers.mono (hf : frame.Covers h scope) (hk : h.Keeps k) : frame.Covers k scope := by
  intro number hnumber
  obtain ⟨a, ha, hbound⟩ := hf number hnumber
  rw [← hk.keys a (Heap.lt_size_of_mem_keys hbound)] at hbound
  exact ⟨a, ha, hbound⟩

/-- Was the body of the cell, if it is a function, checked in a scope that its frame covers? -/
def Cell.IsScoped (h : Heap) : Cell → Prop
  | .function ps body frame =>
    ∃ scope, Frame.Covers h frame scope ∧ check (ps.map (·.number) ++ scope) body = .ok ()
  | _ => True

theorem Cell.IsScoped.mono {c : Cell} (hc : c.IsScoped h) (hk : h.Keeps k) : c.IsScoped k := by
  cases c with
  | function ps body frame =>
    obtain ⟨scope, hcovers, hcheck⟩ := hc
    exact ⟨scope, hcovers.mono hk, hcheck⟩
  | _ => trivial

namespace Heap

def IsScoped (h : Heap) : Prop :=
  ∀ a c, h.get? a = some c → c.IsScoped h

theorem isScoped_empty : empty.IsScoped := by
  intro a c hc
  simp [empty, get?] at hc

theorem IsScoped.add (hh : h.IsScoped) {c : Cell} (hc : c.IsScoped h) : (h.add c).2.IsScoped := by
  intro a d hd
  rw [get?_add] at hd
  by_cases ha : a = h.cells.size
  · rw [if_pos ha] at hd
    cases hd
    exact hc.mono (keeps_add c)
  · rw [if_neg ha] at hd
    exact (hh a d hd).mono (keeps_add c)

theorem IsScoped.set (hh : h.IsScoped) {a : Nat} {c : Cell} (hc : c.IsScoped h) (hkeys : c.keys = h.keys a) :
    (h.set a c).IsScoped := by
  intro b d hd
  have hk := keeps_set hkeys
  rw [get?_set] at hd
  split at hd
  · split at hd
    · cases hd
      exact hc.mono hk
    · cases hd
  · exact (hh b d hd).mono hk

end Heap

/-! ## Safe runs -/

namespace Run

/-- Does a run end without a parameter that was not bound, and leave a scoped heap that keeps all bindings? -/
structure EndsSafely (h : Heap) (r : Except Fault α × Heap) : Prop where
  plain : Plain r.1
  isScoped : r.2.IsScoped
  keeps : h.Keeps r.2

/-- Does a computation end safely from all scoped heaps of which this holds? -/
def SafeWhile (P : Heap → Prop) (x : Run α) : Prop :=
  ∀ h, h.IsScoped → P h → EndsSafely h (x.run h)

abbrev Safe (x : Run α) : Prop :=
  SafeWhile (fun _ => True) x

/-- Does a property of a heap stay when the heap keeps all bindings? -/
class Stays (P : Heap → Prop) : Prop where
  keeps : ∀ {h k : Heap}, P h → h.Keeps k → P k

theorem EndsSafely.bind {x : Run α} {f : α → Run β} (hx : EndsSafely h (x.run h))
    (hf : ∀ a k, (x.run h).1 = .ok a → k.IsScoped → h.Keeps k → EndsSafely k ((f a).run k)) :
    EndsSafely h ((x >>= f).run h) := by
  rcases hr : x.run h with ⟨e | a, k⟩
  · rw [hr] at hx
    rw [Action.run_bind_error hr]
    exact ⟨.error (hx.plain e rfl), hx.isScoped, hx.keeps⟩
  · rw [hr] at hx hf
    rw [Action.run_bind_ok hr]
    have hend := hf a k rfl hx.isScoped hx.keeps
    exact ⟨hend.plain, hend.isScoped, hx.keeps.trans hend.keeps⟩

theorem EndsSafely.throw (hh : h.IsScoped) {f : Fault} (hf : f.isUnbound = false) :
    EndsSafely h ((MonadExcept.throw f : Run α).run h) :=
  ⟨.error hf, hh, .refl h⟩

namespace SafeWhile

variable {P : Heap → Prop} {x y : Run α} {f : α → Run β}

theorem within (hx : Safe x) : SafeWhile P x :=
  fun h hh _ => hx h hh trivial

theorem pure (a : α) : SafeWhile P (Pure.pure a) :=
  fun h hh _ => ⟨.ok a, hh, .refl h⟩

theorem throw {f : Fault} (hf : f.isUnbound = false) : SafeWhile P (MonadExcept.throw f : Run α) :=
  fun _ hh _ => .throw hh hf

theorem host (kind : FaultKind) : SafeWhile P (Run.host kind : Run α) :=
  .throw rfl

theorem ite {p : Prop} [Decidable p] (hx : SafeWhile P x) (hy : SafeWhile P y) : SafeWhile P (if p then x else y) := by
  split
  · exact hx
  · exact hy

theorem alloc {c : Cell} (hc : ∀ h, P h → c.IsScoped h) : SafeWhile P (Run.alloc c) :=
  fun h hh hP => ⟨.ok _, hh.add (hc h hP), Heap.keeps_add c⟩

variable [Stays P]

theorem bind (hx : SafeWhile P x) (hf : ∀ a, SafeWhile P (f a)) : SafeWhile P (x >>= f) :=
  fun h hh hP => (hx h hh hP).bind fun a k _ hscoped hk => hf a k hscoped (Stays.keeps hP hk)

end SafeWhile

/-! ## Parameters -/

/-- Does a computation end safely as long as the frame covers the scope? -/
abbrev SafeIn (frame : Frame) (scope : Scope) (x : Run α) : Prop :=
  SafeWhile (Frame.Covers · frame scope) x

instance : Stays (Frame.Covers · frame scope) :=
  ⟨fun hf hk => hf.mono hk⟩

theorem exists_scopeOf? (hf : frame.Covers h scope) {p : Parameter} (hp : p.number ∈ scope) :
    ∃ a ∈ frame, Frame.scopeOf? h frame p.number = some a ∧ p.number ∈ h.keys a := by
  obtain ⟨b, hb, hbound⟩ := hf p.number hp
  cases hscope : Frame.scopeOf? h frame p.number with
  | none =>
    -- a frame without such a scope would cover nothing that holds the number
    have hnone := List.find?_eq_none.mp hscope b hb
    rw [← Frame.keys_bindings, List.mem_map] at hbound
    obtain ⟨binding, hmem, heq⟩ := hbound
    exact (hnone (List.any_eq_true.mpr ⟨binding, hmem, by simpa using heq⟩)).elim
  | some a =>
    have hany : (Frame.bindings h a).any (·.1 = p.number) = true := by
      simpa using List.find?_some hscope
    obtain ⟨binding, hmem, heq⟩ := List.any_eq_true.mp hany
    refine ⟨a, List.mem_of_find?_eq_some hscope, rfl, ?_⟩
    rw [← Frame.keys_bindings]
    exact List.mem_map.mpr ⟨binding, hmem, by simpa using heq⟩

theorem mem_of_checkParameter {p : Parameter} (hp : Node.checkParameter scope p = .ok ()) : p.number ∈ scope := by
  unfold Node.checkParameter at hp
  split at hp
  · next hmem => simpa using hmem
  · cases hp

theorem lookup_isSome {bs : List (Nat × Value)} {number : Nat} (hn : number ∈ bs.map (·.1)) :
    ∃ v, bs.lookup number = some v := by
  induction bs with
  | nil => simp at hn
  | cons b bs ih =>
    rw [List.lookup_cons]
    by_cases hb : number = b.1
    · exact ⟨b.2, by simp [hb]⟩
    · simp only [List.map_cons, List.mem_cons, hb, false_or] at hn
      rw [beq_false_of_ne hb]
      exact ih hn

theorem readParameter_safe {p : Parameter} (hp : Node.checkParameter scope p = .ok ()) :
    SafeIn frame scope (readParameter frame p) := by
  intro h hh hcovers
  obtain ⟨a, -, hscope, hkeys⟩ := exists_scopeOf? hcovers (mem_of_checkParameter hp)
  rw [← Frame.keys_bindings] at hkeys
  obtain ⟨v, hv⟩ := lookup_isSome hkeys
  have hfound : Frame.lookup? h frame p.number = some v := by
    simp [Frame.lookup?, hscope, hv]
  have hrun : (readParameter frame p).run h = (.ok v, h) := by
    unfold readParameter
    rw [Action.run_bind_ok (Action.run_get h), hfound]
    rfl
  rw [hrun]
  exact ⟨.ok v, hh, .refl h⟩

theorem writeParameter_safe {p : Parameter} (hp : Node.checkParameter scope p = .ok ()) (v : Value) :
    SafeIn frame scope (writeParameter frame p v) := by
  intro h hh hcovers
  obtain ⟨a, -, hscope, -⟩ := exists_scopeOf? hcovers (mem_of_checkParameter hp)
  have hrun : (writeParameter frame p v).run h = (.ok ⟨⟩, Frame.rebind h a p.number v) := by
    unfold writeParameter
    rw [Action.run_bind_ok (Action.run_get h), hscope]
    rfl
  have hkeys : Cell.keys (.scope ((Frame.bindings h a).map fun b => if b.1 = p.number then (p.number, v) else b)) =
      h.keys a := (Frame.keys_rebind v).trans (Frame.keys_bindings h a)
  rw [hrun]
  exact ⟨.ok _, hh.set trivial hkeys, Heap.keeps_set hkeys⟩

theorem keys_zip (ps : List Parameter) (vs : List Value) (hlength : vs.length = ps.length) :
    ((ps.zip vs).map fun (p, v) => (p.number, v)).map (·.1) = ps.map (·.number) := by
  induction ps generalizing vs with
  | nil => rfl
  | cons p ps ih =>
    cases vs with
    | nil => simp at hlength
    | cons v vs => simpa using ih vs (by simpa using hlength)

theorem values_zip (ps : List Parameter) (vs : List Value) (hlength : vs.length = ps.length) :
    ((ps.zip vs).map fun (p, v) => (p.number, v)).map (·.2) = vs := by
  rw [List.map_map]
  exact List.map_snd_zip hlength.le

/-- The scope that is opened binds its parameters in front of what the frame covers. -/
theorem opened_safe {f : Frame → Run β} {ps : List Parameter} {vs : List Value} (hlength : vs.length = ps.length)
    (hf : ∀ frame', SafeIn frame' (ps.map (·.number) ++ scope) (f frame')) :
    SafeIn frame scope (opened frame ps vs >>= f) := by
  intro h hh hcovers
  have hkeys := keys_zip ps vs hlength
  generalize hbs : (ps.zip vs).map (fun (p, v) => (p.number, v)) = bs at hkeys
  have hkeeps : h.Keeps (h.add (.scope bs)).2 := Heap.keeps_add _
  have hrun : (opened frame ps vs).run h = (.ok ((h.add (.scope bs)).1 :: frame), (h.add (.scope bs)).2) := by
    rw [← hbs]
    rfl
  have hcovers' : Frame.Covers (h.add (.scope bs)).2 ((h.add (.scope bs)).1 :: frame) (ps.map (·.number) ++ scope) := by
    intro number hnumber
    obtain hnew | hold := List.mem_append.mp hnumber
    · refine ⟨_, List.mem_cons_self, ?_⟩
      rw [Heap.keys_add_self, Cell.keys, hkeys]
      exact hnew
    · obtain ⟨a, ha, hbound⟩ := hcovers.mono hkeeps number hold
      exact ⟨a, List.mem_cons_of_mem _ ha, hbound⟩
  rw [Action.run_bind_ok hrun]
  have hscoped : (h.add (.scope bs)).2.IsScoped := hh.add trivial
  have hend := hf _ _ hscoped hcovers'
  exact ⟨hend.plain, hend.isScoped, hkeeps.trans hend.keeps⟩

end Run

/-! ## The likeness of scoped heaps -/

theorem Cell.IsPlain.isScoped {c : Cell} (hc : c.IsPlain) (h : Heap) : c.IsScoped h := by
  cases c with
  | scope | function => exact hc.elim
  | _ => trivial

/-- A scoped heap is alike to itself, and so is a fault unless it is a parameter that was not bound. -/
def Likeness.scoped : Likeness where
  heaps h h' := h = h' ∧ h.IsScoped
  faults e e' := e = e' ∧ e.isUnbound = false
  looks hh := congrArg Heap.blind hh.1
  add := by
    rintro h _ c ⟨rfl, hh⟩ hc
    exact ⟨rfl, hh.add (hc.isScoped h)⟩
  set := by
    rintro h _ a c ⟨rfl, hh⟩ ha hc
    exact ⟨rfl, hh.set (hc.isScoped h) (hc.keys.trans ha.keys.symm)⟩
  plain hf := ⟨rfl, hf⟩

namespace Likeness

theorem RelatedWhile.safe {x : Run α} (hx : scoped.Uniform x) : Run.Safe x := by
  intro h hh _
  have hend := hx h h ⟨rfl, hh⟩ trivial
  generalize x.run h = r at hend
  obtain ⟨r, k⟩ := r
  cases hend with
  | ok hk => exact ⟨.ok _, hk.heaps.2, hk.left⟩
  | error hk he => exact ⟨.error he.2, hk.heaps.2, hk.left⟩

theorem uniform_of_safe {x : Run α} (hx : Run.Safe x) : scoped.Uniform x := by
  rintro h _ ⟨rfl, hh⟩ _
  have hend := hx h hh trivial
  generalize x.run h = r at hend
  obtain ⟨r, k⟩ := r
  have hgrows : scoped.Grows h h k k := ⟨⟨rfl, hend.isScoped⟩, hend.keeps, hend.keeps⟩
  cases r with
  | ok a => exact .ok hgrows
  | error e => exact .error hgrows ⟨rfl, hend.plain e rfl⟩

end Likeness

/-! ## Operators -/

namespace Run

theorem operate_safe (o : Operation) (t : Ty) (v w : Value) : Safe (operate o t v w) :=
  (operate_uniform o t v w).safe

theorem isTrue_safe (v : Value) : Safe (isTrue v) :=
  (isTrue_uniform v).safe

theorem equal_safe (v w : Value) : Safe (equal v w) :=
  (equal_uniform v w).safe

theorem ordered_safe (k : OrderingKind) (v w : Value) : Safe (ordered k v w) :=
  (ordered_uniform k v w).safe

end Run

/-! ## Hosts -/

open Run

def Apply.IsSafe (apply : Apply) : Prop :=
  ∀ f vs, Safe (apply f vs)

/-- Does a host leave scopes and functions alone, and say that a parameter is not bound only if a function it calls does? -/
structure Host.IsSafe (host : Host) : Prop where
  invoke : ∀ {apply : Apply}, apply.IsSafe → ∀ m vs, Safe (host.invoke apply m vs)
  readField : ∀ v name, Safe (host.readField v name)
  writeField : ∀ v name w, Safe (host.writeField v name w)
  readProperty : ∀ c name v, Safe (host.readProperty c name v)
  writeProperty : ∀ c name v w, Safe (host.writeProperty c name v w)

variable {host : Host} {apply : Apply}

namespace Host

theorem IsUniform.isSafe (hhost : host.IsUniform) : host.IsSafe where
  invoke happly m vs := (hhost.invoke (fun f vs => Likeness.uniform_of_safe (happly f vs)) m vs).safe
  readField v name := (hhost.readField v name).safe
  writeField v name w := (hhost.writeField v name w).safe
  readProperty c name v := (hhost.readProperty c name v).safe
  writeProperty c name v w := (hhost.writeProperty c name v w).safe

theorem IsSafe.read (hhost : host.IsSafe) (m : DataMember) (v : Value) : Safe (host.read m v) := by
  unfold Host.read
  split
  · exact hhost.readField _ _
  · exact .ite (hhost.readProperty _ _ _) (.throw rfl)

theorem IsSafe.write (hhost : host.IsSafe) (m : DataMember) (v w : Value) : Safe (host.write m v w) := by
  unfold Host.write
  split
  · exact hhost.writeField _ _ _
  · exact .ite (hhost.writeProperty _ _ _ _) (.throw rfl)

theorem IsSafe.call (hhost : host.IsSafe) (happly : apply.IsSafe) (m : Method) (v : Value) (vs : List Value) :
    Safe (host.call apply m v vs) :=
  .ite (.throw rfl) (.ite (hhost.invoke happly _ _) (hhost.invoke happly _ _))

end Host

/-! ## Expressions -/

namespace Node

theorem unaryValue_safe (l : Library) (k : UnaryKind) (t target : Ty) (v : Value) :
    Safe (unaryValue l k t target v) :=
  (unaryValue_uniform l k t target v).safe

mutual

/-- What passes the check in a scope finds its parameters in every frame that covers the scope. -/
theorem eval_safe (hhost : host.IsSafe) (happly : apply.IsSafe) : ∀ (n : Node) {scope : Scope} (frame : Frame),
    check scope n = .ok () → SafeIn frame scope (eval host apply frame n)
  | .constant v _, _, _, _ => .pure v
  | .parameter p, _, _, hcheck => readParameter_safe hcheck
  | .lambda _ _, scope, _, hcheck => by
    -- the function remembers the frame, which covers the scope in which its body was checked
    exact .alloc fun h hcovers => ⟨scope, hcovers, hcheck⟩
  | .binary k left right t, scope, frame, hcheck => by
    cases k with
    | binary k =>
      simp only [check, andThen_eq_ok] at hcheck
      obtain ⟨hr, hl⟩ := hcheck
      have hright := eval_safe hhost happly right frame hr
      simp only [eval]
      cases k with
      | assign => exact hright.bind fun v => (assign_safe hhost happly left frame hl v).bind fun _ => .pure v
      | compound o =>
        obtain ⟨hl, htarget⟩ := andThen_eq_ok.mp hl
        have hleft := eval_safe hhost happly left frame hl
        exact hleft.bind fun old => hright.bind fun w => (operate_safe o t old w).within.bind fun v =>
          (assign_safe hhost happly left frame htarget v).bind fun _ => .pure v
      | andAlso =>
        have hleft := eval_safe hhost happly left frame hl
        exact hleft.bind fun v => (isTrue_safe v).within.bind fun _ => .ite
          (hright.bind fun w => (isTrue_safe w).within.bind fun _ => .pure _) (.pure _)
      | orElse =>
        have hleft := eval_safe hhost happly left frame hl
        exact hleft.bind fun v => (isTrue_safe v).within.bind fun _ => .ite (.pure _)
          (hright.bind fun w => (isTrue_safe w).within.bind fun _ => .pure _)
      | coalesce =>
        have hleft := eval_safe hhost happly left frame hl
        exact hleft.bind fun v => .ite hright (.pure v)
      | operation o =>
        have hleft := eval_safe hhost happly left frame hl
        exact hleft.bind fun v => hright.bind fun w => (operate_safe o left.type v w).within
      | equal =>
        have hleft := eval_safe hhost happly left frame hl
        exact hleft.bind fun v => hright.bind fun w => (equal_safe v w).within.bind fun _ => .pure _
      | notEqual =>
        have hleft := eval_safe hhost happly left frame hl
        exact hleft.bind fun v => hright.bind fun w => (equal_safe v w).within.bind fun _ => .pure _
      | ordering o =>
        have hleft := eval_safe hhost happly left frame hl
        exact hleft.bind fun v => hright.bind fun w => (ordered_safe o v w).within.bind fun _ => .pure _
    | _ => exact .host _
  | .converted left right p body, scope, frame, hcheck => by
    simp only [check, andThen_eq_ok] at hcheck
    obtain ⟨hr, hl, hb⟩ := hcheck
    rw [eval]
    refine (eval_safe hhost happly left frame hl).bind fun v => .ite (eval_safe hhost happly right frame hr) ?_
    exact opened_safe rfl fun frame' => eval_safe hhost happly body frame' hb
  | .unary k operand t, scope, frame, hcheck => by
    cases k with
    | unary k =>
      simp only [check, andThen_eq_ok] at hcheck
      obtain ⟨ho, hstep⟩ := hcheck
      simp only [eval]
      refine (eval_safe hhost happly operand frame ho).bind fun old => ?_
      refine (unaryValue_safe _ k _ t old).within.bind fun v => ?_
      cases k with
      | step s => exact (assign_safe hhost happly operand frame hstep v).bind fun _ => .pure _
      | _ => exact .pure v
    | _ => exact .host _
  | .member e m, _, frame, hcheck =>
    (eval_safe hhost happly e frame hcheck).bind fun v => (hhost.read m v).within
  | .call m args, _, frame, hcheck =>
    (evalAll_safe hhost happly args frame hcheck).bind fun vs => (hhost.call happly m _ vs).within
  | .callOn target m args, _, frame, hcheck => by
    simp only [check, andThen_eq_ok] at hcheck
    exact (eval_safe hhost happly target frame hcheck.1).bind fun v =>
      (evalAll_safe hhost happly args frame hcheck.2).bind fun vs => (hhost.call happly m v vs).within
  | .conditional test ifTrue ifFalse, _, frame, hcheck => by
    simp only [check, andThen_eq_ok] at hcheck
    exact (eval_safe hhost happly test frame hcheck.1).bind fun v => (isTrue_safe v).within.bind fun _ =>
      .ite (eval_safe hhost happly ifTrue frame hcheck.2.1) (eval_safe hhost happly ifFalse frame hcheck.2.2)
  | .bare .., _, _, _ => .host _

theorem evalAll_safe (hhost : host.IsSafe) (happly : apply.IsSafe) : ∀ (ns : List Node) {scope : Scope}
    (frame : Frame), checkAll scope ns = .ok () → SafeIn frame scope (evalAll host apply frame ns)
  | [], _, _, _ => .pure []
  | n :: ns, _, frame, hcheck => by
    simp only [checkAll, andThen_eq_ok] at hcheck
    exact (eval_safe hhost happly n frame hcheck.1).bind fun v =>
      (evalAll_safe hhost happly ns frame hcheck.2).bind fun vs => .pure (v :: vs)

theorem assign_safe (hhost : host.IsSafe) (happly : apply.IsSafe) : ∀ (n : Node) {scope : Scope} (frame : Frame),
    checkTarget scope n = .ok () → ∀ v, SafeIn frame scope (assign host apply frame n v)
  | .parameter _, _, _, hcheck, v => writeParameter_safe hcheck v
  | .member e m, _, frame, hcheck, v =>
    (eval_safe hhost happly e frame hcheck).bind fun w => (hhost.write m w v).within
  | .constant .., _, _, _, _ | .lambda .., _, _, _, _ | .binary .., _, _, _, _ | .converted .., _, _, _, _
  | .unary .., _, _, _, _ | .call .., _, _, _, _ | .callOn .., _, _, _, _ | .conditional .., _, _, _, _
  | .bare .., _, _, _, _ => .host _

end

end Node

/-! ## Functions -/

namespace Host

/-- A function finds its parameters whenever it is called, since the frame it remembers covers what it was checked in. -/
theorem applyAt_safe (hhost : host.IsSafe) (depth : Nat) : Apply.IsSafe (host.applyAt depth) := by
  induction depth with
  | zero => exact fun _ _ => .host _
  | succ depth ih =>
    intro f vs
    cases f with
    | ref a =>
      intro h hh _
      unfold applyAt
      rw [Action.run_bind_ok (Action.run_get h)]
      cases hc : h.get? a with
      | none => exact .throw hh rfl
      | some c =>
        cases c with
        | function ps body frame =>
          obtain ⟨scope, hcovers, hcheck⟩ := hh a _ hc
          by_cases hlength : vs.length = ps.length
          · have hcall : SafeIn frame scope (opened frame ps vs >>= fun frame' =>
                Node.eval host (host.applyAt depth) frame' body) :=
              opened_safe hlength fun frame' => Node.eval_safe hhost ih body frame' hcheck
            simpa [hlength] using hcall h hh hcovers
          · simp only [ne_eq, hlength, not_false_eq_true, if_true]
            exact EndsSafely.throw hh rfl
        | _ => exact .throw hh rfl
    | _ => exact .host _

theorem eval_safe (hhost : host.IsSafe) {n : Node} (hcheck : check [] n = .ok ()) : Safe (host.eval n) := by
  intro h hh _
  -- outside of all lambdas no parameter is in scope, so there is nothing to cover
  exact n.eval_safe hhost (host.applyAt_safe hhost callDepth) [] hcheck h hh fun number hn => by simp at hn

end Host

end ExprTree
